import KemtlsMavlink.Library.TwoRuns
import KemtlsMavlink.Session.Flow
import KemtlsMavlink.Session.Sample

namespace KemtlsMavlink

open Library

variable {ρ : Type} {P : Platform ρ} {e : Env ρ} {s : HqcSession} {i : Input ρ}
  {fx : List Effect} {now t : UInt32}

/-- The message names another session. -/
def Event.IsForeign (s : HqcSession) : Event → Prop
  | .pkChunk m => m.sessionId ≠ s.rx.sessionId
  | .ctAck m => m.sessionId ≠ s.rx.sessionId
  | .finish m => m.sessionId ≠ s.rx.sessionId
  | _ => False

def Effect.IsAnswer : Effect → Bool
  | .ctChunk _ | .pkAck .. | .helloAck _ | .hqcAbort .. => true
  | _ => false

/-- What a step shows: what it sends, and the state, the transcript and the keys
that it leaves. -/
structure Observation where
  sent : List Effect
  state : HqcState
  th : Bytes 32
  ms : Bytes 32
  kTx : Bytes 16
  kRx : Bytes 16
  ivTx : Bytes 12
  ivRx : Bytes 12
  kChachaTx : Bytes 32
  kChachaRx : Bytes 32

def observation (r : HqcSession × List Effect) : Observation :=
  ⟨r.2.filter Effect.IsAnswer, r.1.state, r.1.th, r.1.ms, r.1.kTx, r.1.kRx, r.1.ivTx, r.1.ivRx,
    r.1.kChachaTx, r.1.kChachaRx⟩

/-- The message shows nothing, and neither does anything that follows it. -/
def Unnoticed (P : Platform ρ) (s : HqcSession) (i : Input ρ) (js : List (Input ρ)) : Prop :=
  observation (handle P s i) = observation (s, []) ∧
    (session P).observe observation s js =
      (session P).observe observation (handle P s i).1 js

def HqcSession.Waits (s : HqcSession) (kind : UInt8) : Prop :=
  ∃ ct j, s.rx.Holds kind ct ∧ j * s.rx.mtu < (s.rx.stream kind).len ∧
    (s.rx.stream kind).acked.getD j false = false

def HqcSession.Probes (s : HqcSession) : Prop :=
  s.owner = true ∧ (s.Waits 0 ∨ s.Waits 1)

/-- Nothing has been received for 1500 ms, and there is a fragment to probe. -/
structure HqcSession.Idle (s : HqcSession) (now : UInt32) : Prop where
  late : (now - s.tLastRx).toNat > idleNudgeMs
  probes : s.Probes

/-- A tick of a running handshake, whose `pump_tx` leaves the session idle. -/
structure Nudges (P : Platform ρ) (s : HqcSession) (i : Input ρ) : Prop where
  tick : i.event = .tick
  running : ¬ (s.state = .idle ∨ s.state = .fail ∨ s.state = .active)
  intime : ¬ (i.env.millis 0 - s.tStart).toNat > hsTimeoutMs
  idle : (pumpTx P (i.env.millis 0) s).1.Idle (i.env.millis 0)

/-- A tick probes in both of two sessions or in none of them. -/
def SameNudges (P : Platform ρ) (t : HqcSession × HqcSession) (i : Input ρ) : Prop :=
  Nudges P t.1 i ↔ Nudges P t.2 i

theorem sameNudges_of_not {s' : HqcSession} (h : ¬ Nudges P s i) (h' : ¬ Nudges P s' i) :
    SameNudges P (s, s') i := iff_of_false h h'

/-- What a probe does to a session: when there is something to probe it sends
chunks, and when there is not it leaves the session as it was. -/
structure Probed (s : HqcSession) (w : Prop) (r : HqcSession × List Effect) : Prop where
  session : ∃ t, r.1 = s.noteTx t
  quiet : ¬ w → r = (s, [])
  sends : w → r.2 ≠ []
  chunks : ∀ o ∈ r.2, ∃ c, o = .ctChunk c

theorem Probed.none {w : Prop} (h : ¬ w) : Probed s w (s, []) :=
  ⟨⟨s.tLastTx, rfl⟩, fun _ ↦ rfl, fun hw ↦ absurd hw h, List.forall_mem_nil _⟩

theorem probeStream_probed (now : UInt32) (kind : UInt8) (hm : 0 < s.rx.mtu) (hz : s.rx.Sized) :
    Probed s (s.Waits kind) (probeStream now kind s) := by
  unfold probeStream
  dsimp only
  rw [hz.setStream_self]
  split
  · rename_i hb
    refine .none fun ⟨ct, j, hc, _⟩ ↦ ?_
    exact nomatch hb.symm.trans hc.buf
  · rename_i ct hb
    split_ifs with hl
    · exact .none fun ⟨ct, j, hc, _⟩ ↦ hc.len hl
    · rw [hz.stream kind]
      split
      · rename_i hnone
        refine .none fun ⟨ct, j, hc, hj, hu⟩ ↦ ?_
        have hn := List.find?_eq_none.mp hnone j (List.mem_range.mpr ((lt_fragments hm).mpr hj))
        exact hn (by rw [hu]; rfl)
      · rename_i j hj
        have hlt := (lt_fragments hm).mp (List.mem_range.mp (List.mem_of_find?_eq_some hj))
        have hu : (s.rx.stream kind).acked.getD j false = false := by
          simpa using List.find?_some hj
        have hw : s.Waits kind := ⟨ct, j, ⟨hb, hl⟩, hlt, hu⟩
        exact ⟨⟨now, rfl⟩, fun h ↦ absurd hw h, fun _ ↦ List.cons_ne_nil _ _,
          List.forall_mem_singleton.mpr ⟨_, rfl⟩⟩

theorem kickAcks_probed (e : Env ρ) (hm : 0 < s.rx.mtu) (hz : s.rx.Sized) :
    Probed s s.Probes (kickAcks e s) := by
  unfold kickAcks HqcSession.Probes
  split_ifs with ho
  · refine .none fun h ↦ ?_
    rw [h.1] at ho
    exact absurd ho (by decide)
  · have howner : s.owner = true := by simpa using ho
    have h₀ := probeStream_probed (e.millis 1) 0 hm hz
    dsimp only
    generalize probeStream (e.millis 1) 0 s = r₀ at h₀ ⊢
    obtain ⟨s₁, fx₀⟩ := r₀
    obtain ⟨t₀, rfl⟩ : ∃ t, s₁ = s.noteTx t := h₀.session
    have h₁ := probeStream_probed (s := s.noteTx t₀) (e.millis 2) 1 hm hz
    dsimp only
    generalize probeStream (e.millis 2) 1 (s.noteTx t₀) = r₁ at h₁ ⊢
    obtain ⟨s₂, fx₁⟩ := r₁
    obtain ⟨t₁, rfl⟩ : ∃ t, s₂ = (s.noteTx t₀).noteTx t := h₁.session
    refine ⟨⟨t₁, rfl⟩, fun hn ↦ ?_, fun hw ↦ ?_, List.forall_mem_append.mpr ⟨h₀.chunks, h₁.chunks⟩⟩
    · have hq₀ := h₀.quiet fun hw ↦ hn ⟨howner, .inl hw⟩
      have hq₁ := h₁.quiet fun hw ↦ hn ⟨howner, .inr hw⟩
      rw [Prod.mk.injEq] at hq₀ hq₁
      rw [hq₁.1, hq₀.1, hq₀.2, hq₁.2]
      rfl
    · rw [Ne, List.append_eq_nil_iff]
      rintro ⟨he₀, he₁⟩
      rcases hw.2 with hw | hw
      · exact h₀.sends hw he₀
      · exact h₁.sends hw he₁

def HqcSession.Near (s s' : HqcSession) : Prop := ∃ t, s' = s.noteRx t

/-- The second result is the first but for the time of the last message. -/
def Alike {α : Type} (r r' : HqcSession × α) : Prop := ∃ t, r' = (r.1.noteRx t, r.2)

theorem HqcSession.Near.refl (s : HqcSession) : s.Near s := ⟨s.tLastRx, rfl⟩

theorem Alike.refl {α : Type} (r : HqcSession × α) : Alike r r := ⟨r.1.tLastRx, rfl⟩

theorem pumpNew_noteRx (now t : UInt32) (kind : UInt8) (s : HqcSession) (st : CtStream)
    (ct : Block) (inflight : Nat) :
    pumpNew now kind (s.noteRx t) st ct inflight =
      ((pumpNew now kind s st ct inflight).1.noteRx t, (pumpNew now kind s st ct inflight).2) := by
  unfold pumpNew
  dsimp only
  rw [HqcSession.noteRx_rx]
  split_ifs <;> rfl

theorem abortTimeout_noteRx (P : Platform ρ) (s : HqcSession) (t : UInt32) (detail : UInt8)
    (value : Nat) : abortTimeout P (s.noteRx t) detail value = abortTimeout P s detail value := rfl

theorem pumpCt_alike (now t : UInt32) (kind : UInt8) (s : HqcSession) (ct : Block) :
    Alike (pumpCt P now kind s ct) (pumpCt P now kind (s.noteRx t) ct) := by
  unfold pumpCt
  dsimp only
  have hdue : ∀ st, dueFragment now (s.noteRx t) st = dueFragment now s st := fun _ ↦ rfl
  rw [hdue, HqcSession.noteRx_rx]
  split
  · exact .refl _
  · exact ⟨t, by rw [pumpNew_noteRx]⟩
  · rename_i j _
    refine ⟨t, ?_⟩
    have hs : ((s.noteRx t).setRx (s.rx.countRetry (j * s.rx.mtu))).noteTx now =
      ((s.setRx (s.rx.countRetry (j * s.rx.mtu))).noteTx now).noteRx t := rfl
    rw [hs, pumpNew_noteRx]

theorem pumpStream_alike (P : Platform ρ) (now t : UInt32) (kind : UInt8) (s : HqcSession) :
    Alike (pumpStream P now kind s) (pumpStream P now kind (s.noteRx t)) := by
  unfold pumpStream
  rw [HqcSession.noteRx_rx]
  split
  · exact ⟨t, rfl⟩
  · split_ifs
    · exact ⟨t, rfl⟩
    · exact pumpCt_alike now t kind s _

theorem pumpTx_alike (P : Platform ρ) (now t : UInt32) (s : HqcSession) :
    Alike (pumpTx P now s) (pumpTx P now (s.noteRx t)) := by
  have howner : (s.noteRx t).owner = s.owner := rfl
  obtain ⟨t₀, h₀⟩ := pumpStream_alike P now t 0 s
  obtain ⟨t₁, h₁⟩ := pumpStream_alike P now t₀ 1 (pumpStream P now 0 s).1
  unfold pumpTx
  dsimp only
  rw [howner, h₀]
  dsimp only
  rw [h₁]
  split_ifs
  · exact ⟨t, rfl⟩
  · exact ⟨t₀, rfl⟩
  · exact ⟨t₁, rfl⟩
  · refine ⟨t₁, ?_⟩
    unfold pumpDone
    rw [HqcSession.noteRx_rx, HqcSession.noteRx_state]
    split_ifs <;> rfl

theorem probeStream_noteRx (now t : UInt32) (kind : UInt8) (s : HqcSession) :
    probeStream now kind (s.noteRx t) =
      ((probeStream now kind s).1.noteRx t, (probeStream now kind s).2) := by
  unfold probeStream
  dsimp only
  rw [HqcSession.noteRx_rx]
  split
  · rfl
  · split_ifs
    · rfl
    · simp only [HqcSession.setRx_rx]
      split <;> rfl

theorem kickAcks_noteRx (e : Env ρ) (t : UInt32) (s : HqcSession) :
    kickAcks e (s.noteRx t) = ((kickAcks e s).1.noteRx t, (kickAcks e s).2) := by
  have howner : (s.noteRx t).owner = s.owner := rfl
  unfold kickAcks
  dsimp only
  rw [howner, probeStream_noteRx]
  dsimp only
  rw [probeStream_noteRx]
  split_ifs <;> rfl

theorem handle_noteRx (hi : i.event ≠ .tick) (t : UInt32) :
    handle P (s.noteRx t) i = handle P s i := by
  unfold handle
  cases he : i.event with
  | hello m => rfl
  | pkChunk m => rfl
  | ctAck m => rfl
  | finish m => rfl
  | tick => exact absurd he hi

def nudge (e : Env ρ) (r : HqcSession × List Effect) : HqcSession × List Effect :=
  if (e.millis 0 - r.1.tLastRx).toNat > idleNudgeMs then
    ((kickAcks e r.1).1.noteRx (e.millis 0), r.2 ++ (kickAcks e r.1).2)
  else r

theorem tick_running (hrun : ¬ (s.state = .idle ∨ s.state = .fail ∨ s.state = .active))
    (htime : ¬ (e.millis 0 - s.tStart).toNat > hsTimeoutMs) :
    tick P e s = nudge e (pumpTx P (e.millis 0) s) := by
  unfold tick
  dsimp only
  rw [if_neg hrun, if_neg htime]
  rfl

theorem tick_late (hrun : ¬ (s.state = .idle ∨ s.state = .fail ∨ s.state = .active))
    (htime : (e.millis 0 - s.tStart).toNat > hsTimeoutMs) :
    tick P e s = abortTimeout P s 2 0 := (if_neg hrun).trans (if_pos htime)

theorem nudge_quiet (hm : 0 < s.rx.mtu) (hz : s.rx.Sized) (h : ¬ s.Idle (e.millis 0))
    (fx : List Effect) :
    Alike (s, fx) (nudge e (s, fx)) := by
  unfold nudge
  split_ifs with hlate
  · rw [(kickAcks_probed e hm hz).quiet fun hp ↦ h ⟨hlate, hp⟩]
    exact ⟨e.millis 0, by rw [List.append_nil]⟩
  · exact .refl _

theorem nudge_idle (h : s.Idle (e.millis 0)) : nudge e (s, fx) =
    ((kickAcks e s).1.noteRx (e.millis 0), fx ++ (kickAcks e s).2) := if_pos h.late

theorem observation_noteRx (s : HqcSession) (t : UInt32) (fx : List Effect) :
    observation (s.noteRx t, fx) = observation (s, fx) := rfl

theorem Alike.observation_eq {r r' : HqcSession × List Effect} (h : Alike r r') :
    observation r' = observation r := by
  obtain ⟨t, rfl⟩ := h
  exact observation_noteRx r.1 t r.2

theorem nudge_idle_ne {s' : HqcSession} (hm : 0 < s.rx.mtu) (hz : s.rx.Sized)
    (h : s.Idle (e.millis 0)) : observation (nudge e (s, fx)) ≠ observation (s', fx) := by
  intro he
  have hk := kickAcks_probed e hm hz
  rw [nudge_idle h] at he
  have hsent : (fx ++ (kickAcks e s).2).filter Effect.IsAnswer = fx.filter Effect.IsAnswer :=
    congrArg Observation.sent he
  rw [List.filter_append, List.append_right_eq_self] at hsent
  have hall : (kickAcks e s).2.filter Effect.IsAnswer = (kickAcks e s).2 := by
    refine List.filter_eq_self.mpr fun o ho ↦ ?_
    obtain ⟨c, rfl⟩ := hk.chunks o ho
    rfl
  exact hk.sends h.probes (hall.symm.trans hsent)

theorem nudge_near (hm : 0 < s.rx.mtu) (hz : s.rx.Sized) (t : UInt32) (fx : List Effect) :
    (observation (nudge e (s, fx)) = observation (nudge e (s.noteRx t, fx)) ↔
        (s.Idle (e.millis 0) ↔ (s.noteRx t).Idle (e.millis 0))) ∧
      ((s.Idle (e.millis 0) ↔ (s.noteRx t).Idle (e.millis 0)) →
        (nudge e (s, fx)).1.Near (nudge e (s.noteRx t, fx)).1) := by
  by_cases h : s.Idle (e.millis 0) <;> by_cases h' : (s.noteRx t).Idle (e.millis 0)
  · have heq : nudge e (s.noteRx t, fx) = nudge e (s, fx) := by
      rw [nudge_idle h, nudge_idle h', kickAcks_noteRx]
      rfl
    rw [heq]
    exact ⟨iff_of_true rfl (iff_of_true h h'), fun _ ↦ .refl _⟩
  · have hq := nudge_quiet (s := s.noteRx t) hm hz h' fx
    refine ⟨iff_of_false (fun he ↦ ?_) fun hi ↦ h' (hi.mp h), fun hi ↦ absurd (hi.mp h) h'⟩
    rw [hq.observation_eq] at he
    exact nudge_idle_ne hm hz h he
  · have hq := nudge_quiet hm hz h fx
    refine ⟨iff_of_false (fun he ↦ ?_) fun hi ↦ h (hi.mpr h'), fun hi ↦ absurd (hi.mpr h') h⟩
    rw [hq.observation_eq] at he
    exact nudge_idle_ne (s := s.noteRx t) hm hz h' he.symm
  · obtain ⟨a, ha⟩ := nudge_quiet hm hz h fx
    obtain ⟨b, hb⟩ := nudge_quiet (s := s.noteRx t) hm hz h' fx
    rw [ha, hb]
    exact ⟨iff_of_true rfl (iff_of_false h h'), fun _ ↦ ⟨b, rfl⟩⟩

theorem Cleared.sized {rx : HqcRxBuf} (h : Cleared rx) : rx.Sized := by
  have h₀ : rx.cte = {} := h.stream 0
  have h₁ : rx.cts = {} := h.stream 1
  unfold HqcRxBuf.Sized
  rw [h₀, h₁, h.mtu]
  exact ⟨rfl, rfl⟩

theorem pumpTx_sized (P : Platform ρ) (now : UInt32) (hm : 0 < s.rx.mtu) (hz : s.rx.Sized) :
    0 < (pumpTx P now s).1.rx.mtu ∧ (pumpTx P now s).1.rx.Sized := by
  have h := pumpTx_outcome (R := fun _ _ ↦ True) P now hm hz fun _ _ _ ↦ trivial
  have hwiped : ∀ s₀ : HqcSession, 0 < s₀.wipe.rx.mtu ∧ s₀.wipe.rx.Sized :=
    fun s₀ ↦ ⟨Nat.succ_pos 219, (cleared_wipe s₀).sized⟩
  generalize pumpTx P now s = r at h ⊢
  cases h with
  | went s' fx h => exact ⟨h.same.mtu ▸ hm, h.same.sized hz⟩
  | exhausted s₀ s' rx fx kind ct j h hk hc hf ht hs => exact hs ▸ hwiped s₀
  | timeout s₀ s' hs => exact hs ▸ hwiped s₀

theorem tick_near (hm : 0 < s.rx.mtu) (hz : s.rx.Sized) (hi : i.event = .tick) (t : UInt32) :
    (observation (tick P i.env s) = observation (tick P i.env (s.noteRx t)) ↔
        SameNudges P (s, s.noteRx t) i) ∧
      (SameNudges P (s, s.noteRx t) i →
        (tick P i.env s).1.Near (tick P i.env (s.noteRx t)).1) := by
  by_cases hrest : s.state = .idle ∨ s.state = .fail ∨ s.state = .active
  · have heq : ∀ t, tick P i.env (s.noteRx t) = (s.noteRx t, []) := fun t ↦ if_pos hrest
    have hs : tick P i.env s = (s, []) := if_pos hrest
    rw [heq, hs]
    have hn : SameNudges P (s, s.noteRx t) i :=
      sameNudges_of_not (fun h ↦ h.running hrest) fun h ↦ h.running hrest
    exact ⟨iff_of_true rfl hn, fun _ ↦ ⟨t, rfl⟩⟩
  · by_cases htime : (i.env.millis 0 - s.tStart).toNat > hsTimeoutMs
    · rw [tick_late hrest htime, tick_late (s := s.noteRx t) hrest htime, abortTimeout_noteRx]
      have hn : SameNudges P (s, s.noteRx t) i :=
        sameNudges_of_not (fun h ↦ h.intime htime) fun h ↦ h.intime htime
      exact ⟨iff_of_true rfl hn, fun _ ↦ .refl _⟩
    · obtain ⟨hm', hz'⟩ := pumpTx_sized P (i.env.millis 0) hm hz
      obtain ⟨t', ha⟩ := pumpTx_alike P (i.env.millis 0) t s
      have hn : Nudges P s i ↔ (pumpTx P (i.env.millis 0) s).1.Idle (i.env.millis 0) :=
        ⟨fun h ↦ h.idle, fun h ↦ ⟨hi, hrest, htime, h⟩⟩
      have hn' : Nudges P (s.noteRx t) i ↔
          ((pumpTx P (i.env.millis 0) s).1.noteRx t').Idle (i.env.millis 0) := by
        constructor
        · intro h
          have := h.idle
          rwa [ha] at this
        · intro h
          refine ⟨hi, hrest, htime, ?_⟩
          rwa [ha]
      unfold SameNudges
      rw [hn, hn', tick_running hrest htime, tick_running (s := s.noteRx t) hrest htime, ha]
      exact nudge_near hm' hz' t' _

/-- A session of a run, and one that differs from it in `t_last_rx`. -/
structure Twins (s s' : HqcSession) : Prop where
  settled : Settled s
  flow : Flow s.rx
  near : s.Near s'

theorem Twins.shown {s' : HqcSession} (h : Twins s s') (i : Input ρ) :
    (observation (handle P s i) = observation (handle P s' i) ↔ SameNudges P (s, s') i) ∧
      (SameNudges P (s, s') i → Twins (handle P s i).1 (handle P s' i).1) := by
  obtain ⟨t, rfl⟩ := h.near
  have hnear : (observation (handle P s i) = observation (handle P (s.noteRx t) i) ↔
        SameNudges P (s, s.noteRx t) i) ∧
      (SameNudges P (s, s.noteRx t) i →
        (handle P s i).1.Near (handle P (s.noteRx t) i).1) := by
    by_cases hi : i.event = .tick
    · have heq : ∀ s, handle P s i = tick P i.env s := by
        intro s
        unfold handle
        rw [hi]
      rw [heq, heq]
      exact tick_near h.flow.mtu_pos h.settled.sized hi t
    · rw [handle_noteRx hi]
      have hn : SameNudges P (s, s.noteRx t) i :=
        sameNudges_of_not (fun h ↦ hi h.tick) fun h ↦ hi h.tick
      exact ⟨iff_of_true rfl hn, fun _ ↦ .refl _⟩
  exact ⟨hnear.1, fun hs ↦ ⟨h.settled.step i, (h.flow.handle P h.settled i).1, hnear.2 hs⟩⟩

theorem handle_foreign (hi : i.event.IsForeign s) :
    ∃ fx, handle P s i = (s.noteRx (i.env.millis 0), fx) ∧ fx.filter Effect.IsAnswer = [] := by
  unfold Event.IsForeign at hi
  unfold handle
  cases he : i.event with
  | pkChunk m =>
    rw [he] at hi
    have herr : pkChunkError s.rx m = some (0, .badSeq, 1) := if_pos hi
    unfold handleHqcPkChunk
    simp only [HqcSession.noteRx_rx, herr]
    exact ⟨_, rfl, rfl⟩
  | ctAck m =>
    rw [he] at hi
    exact ⟨[], handleHqcCtAck_ignored i.env fun h ↦ hi h.1, rfl⟩
  | finish m =>
    rw [he] at hi
    have herr : finishError (s.noteRx (i.env.millis 0)) m = some (0, .badSeq, 20) := if_pos hi
    unfold handleHqcFinish
    simp only [herr]
    exact ⟨_, rfl, rfl⟩
  | hello m =>
    rw [he] at hi
    exact hi.elim
  | tick =>
    rw [he] at hi
    exact hi.elim

/-- In every run, a message of another session goes unnoticed exactly when no
later tick probes in one of the two runs only, the one with the message and the
one without. -/
theorem foreign_unnoticed_iff (P : Platform ρ) (kChachaTx kChachaRx : Bytes 32)
    (is js : List (Input ρ)) (i : Input ρ)
    (hi : i.event.IsForeign ((session P).final (.fresh kChachaTx kChachaRx) is)) :
    Unnoticed P ((session P).final (.fresh kChachaTx kChachaRx) is) i js ↔
      (session P).twice.Guarded (SameNudges P)
        ((session P).final (.fresh kChachaTx kChachaRx) is,
          (session P).final (.fresh kChachaTx kChachaRx) (is ++ [i])) js := by
  obtain ⟨hz, hf⟩ := run_flow P kChachaTx kChachaRx is
  rw [Machine.final_snoc]
  change _ ↔ (session P).twice.Guarded (SameNudges P) (_, (handle P _ i).1) js
  generalize (session P).final (.fresh kChachaTx kChachaRx) is = s at hi hz hf ⊢
  obtain ⟨fx, hs, hfx⟩ := handle_foreign (P := P) hi
  have htwins : Twins s (handle P s i).1 := ⟨hz, hf, _, congrArg Prod.fst hs⟩
  have hshown : observation (handle P s i) = observation (s, []) := by
    rw [hs, observation_noteRx, observation, hfx]
    rfl
  unfold Unnoticed
  rw [Machine.observe_eq_iff (R := Twins) (P := SameNudges P) (fun s s' i h ↦ (h.shown i).1)
    (fun s s' i h ↦ (h.shown i).2) htwins js]
  exact and_iff_right hshown

def sampleOpening : List (Input UInt8) := [⟨.hello (sampleHello 1), sampleEnv 0 1⟩]

def sampleForeign : Input UInt8 := ⟨.ctAck ⟨8, 1, 0, 0⟩, sampleEnv 1000 0⟩

def sampleOpened (is : List (Input UInt8)) : HqcSession :=
  (session samplePlatform).final (.fresh (Bytes.zeros 32) (Bytes.zeros 32)) is

theorem sampleForeign_isForeign : sampleForeign.event.IsForeign (sampleOpened sampleOpening) := by
  change (8 : UInt64) ≠ (sampleOpened sampleOpening).rx.sessionId
  decide +kernel

/-- A tick at 1200 ms is too early for a probe in either run. -/
theorem foreign_unnoticed_sample :
    Unnoticed samplePlatform (sampleOpened sampleOpening) sampleForeign [sampleTick 1200] := by
  have h₀ : ¬ Nudges samplePlatform (sampleOpened sampleOpening) (sampleTick 1200) :=
    fun h ↦ absurd h.idle.late (by decide +kernel)
  have h₁ : ¬ Nudges samplePlatform (sampleOpened (sampleOpening ++ [sampleForeign]))
      (sampleTick 1200) := fun h ↦ absurd h.idle.late (by decide +kernel)
  have hg : (session samplePlatform).twice.Guarded (SameNudges samplePlatform)
      (sampleOpened sampleOpening, sampleOpened (sampleOpening ++ [sampleForeign]))
      [sampleTick 1200] := ⟨sameNudges_of_not h₀ h₁, trivial⟩
  exact (foreign_unnoticed_iff samplePlatform (Bytes.zeros 32) (Bytes.zeros 32) sampleOpening
    [sampleTick 1200] sampleForeign sampleForeign_isForeign).mpr hg

/-- At 1600 ms the session probes its ciphertext, unless the acknowledgement of
another session has come in between. -/
theorem foreign_message_noticed :
    ¬ Unnoticed samplePlatform (sampleOpened sampleOpening) sampleForeign [sampleTick 1600] := by
  intro h
  have hsent := congrArg (List.map fun o ↦ o.sent.length) h.2
  exact absurd hsent (by decide +kernel)

end KemtlsMavlink
