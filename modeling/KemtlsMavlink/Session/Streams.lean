import KemtlsMavlink.Session.Sending

namespace KemtlsMavlink

open Library

variable {ρ : Type} {P : Platform ρ} {R : UInt8 → Nat → Prop} {now : UInt32} {kind : UInt8}
  {s : HqcSession} {rx rx' rx'' : HqcRxBuf} {fx fx' : List Effect}

namespace HqcRxBuf

variable (rx kind)

structure Holds (ct : Block) : Prop where
  buf : (rx.stream kind).buf = some ct
  len : (rx.stream kind).len ≠ 0

/-- Fragment `i` has been sent and is not acknowledged. -/
structure InFlight (i : Nat) : Prop where
  unacked : (rx.stream kind).acked.getD i false = false
  sent : i * rx.mtu < (rx.stream kind).sent

def inflight : Nat :=
  CtStream.inflight (rx.stream kind).acked ((rx.stream kind).chunks rx.mtu) rx.mtu
    (rx.stream kind).sent

def fragment (ct : Block) (i : Nat) : Effect :=
  KemtlsMavlink.fragment ct rx.sessionId kind rx.mtu (rx.stream kind).len i

def sendWindow (ct : Block) (budget : Nat) : List Effect × Nat :=
  KemtlsMavlink.sendWindow ct rx.sessionId kind rx.mtu (rx.stream kind).len budget
    (rx.stream kind).sent

def setSent (sent : Nat) : HqcRxBuf :=
  rx.setStream kind { rx.stream kind with sent := sent }

end HqcRxBuf

/-- What a tick does to the two ciphertexts, one loop at a time: a fragment is
sent again on account of its retry counter, as `R` allows; new fragments are
sent; a fragment is sent as a probe. -/
inductive RxStep (R : UInt8 → Nat → Prop) (rx : HqcRxBuf) : HqcRxBuf → List Effect → Prop
  | resend (kind : UInt8) (ct : Block) (i : Nat) (hk : kind = 0 ∨ kind = 1)
      (hc : rx.Holds kind ct) (hr : R kind i) (hi : i * rx.mtu < (rx.stream kind).len)
      (hf : rx.InFlight kind i) (ht : rx.retries (i * rx.mtu) < rx.maxRetries) :
      RxStep R rx (rx.countRetry (i * rx.mtu)) [rx.fragment kind ct i]
  | window (kind : UInt8) (ct : Block) (budget : Nat) (hk : kind = 0 ∨ kind = 1)
      (hc : rx.Holds kind ct) (hb : budget ≤ rx.window - rx.inflight kind) :
      RxStep R rx (rx.setSent kind (rx.sendWindow kind ct budget).2)
        (rx.sendWindow kind ct budget).1
  | probe (kind : UInt8) (ct : Block) (i : Nat) (hk : kind = 0 ∨ kind = 1)
      (hc : rx.Holds kind ct) (hi : i * rx.mtu < (rx.stream kind).len) :
      RxStep R rx rx [rx.fragment kind ct i]

inductive RxSteps (R : UInt8 → Nat → Prop) : HqcRxBuf → HqcRxBuf → List Effect → Prop
  | refl (rx : HqcRxBuf) : RxSteps R rx rx []
  | head {rx rx' rx'' : HqcRxBuf} {fx fx' : List Effect} (h : RxStep R rx rx' fx)
      (t : RxSteps R rx' rx'' fx') : RxSteps R rx rx'' (fx ++ fx')

theorem RxSteps.single (h : RxStep R rx rx' fx) : RxSteps R rx rx' fx := by
  have := RxSteps.head h (.refl rx')
  rwa [List.append_nil] at this

theorem RxSteps.trans (h : RxSteps R rx rx' fx) (h' : RxSteps R rx' rx'' fx') :
    RxSteps R rx rx'' (fx ++ fx') := by
  induction h with
  | refl rx => exact h'
  | head hstep hrest ih =>
    rw [List.append_assoc]
    exact .head hstep (ih h')

/-- A tick leaves everything but the retry counters and the progress alone. -/
structure SameStreams (rx rx' : HqcRxBuf) : Prop where
  sessionId : rx'.sessionId = rx.sessionId
  mtu : rx'.mtu = rx.mtu
  window : rx'.window = rx.window
  maxRetries : rx'.maxRetries = rx.maxRetries
  buf : ∀ kind, (rx'.stream kind).buf = (rx.stream kind).buf
  len : ∀ kind, (rx'.stream kind).len = (rx.stream kind).len
  acked : ∀ kind, (rx'.stream kind).acked = (rx.stream kind).acked

theorem SameStreams.trans (h : SameStreams rx rx') (h' : SameStreams rx' rx'') :
    SameStreams rx rx'' where
  sessionId := h'.sessionId.trans h.sessionId
  mtu := h'.mtu.trans h.mtu
  window := h'.window.trans h.window
  maxRetries := h'.maxRetries.trans h.maxRetries
  buf kind := (h'.buf kind).trans (h.buf kind)
  len kind := (h'.len kind).trans (h.len kind)
  acked kind := (h'.acked kind).trans (h.acked kind)

theorem stream_setStream (rx : HqcRxBuf) (kind kind' : UInt8) (st : CtStream) :
    (rx.setStream kind st).stream kind' =
      if kind = 0 ↔ kind' = 0 then st else rx.stream kind' := by
  unfold HqcRxBuf.setStream HqcRxBuf.stream
  by_cases hk : kind = 0 <;> by_cases hk' : kind' = 0 <;> simp [hk, hk']

theorem stream_setSent (rx : HqcRxBuf) (kind kind' : UInt8) (sent : Nat) :
    (rx.setSent kind sent).stream kind' =
      if kind = 0 ↔ kind' = 0 then { rx.stream kind' with sent := sent } else rx.stream kind' := by
  rw [HqcRxBuf.setSent, stream_setStream]
  split_ifs with h
  · rw [HqcRxBuf.stream, HqcRxBuf.stream, if_congr h rfl rfl]
  · rfl

theorem sameStreams_setSent (rx : HqcRxBuf) (kind : UInt8) (sent : Nat) :
    SameStreams rx (rx.setSent kind sent) := by
  have hs := fun kind' ↦ stream_setSent rx kind kind' sent
  refine ⟨?_, ?_, ?_, ?_, fun k ↦ ?_, fun k ↦ ?_, fun k ↦ ?_⟩
  all_goals first
    | (rw [hs]; split <;> rfl)
    | (unfold HqcRxBuf.setSent HqcRxBuf.setStream; split <;> rfl)

theorem setSent_self (rx : HqcRxBuf) (kind : UInt8) :
    rx.setSent kind (rx.stream kind).sent = rx := by
  unfold HqcRxBuf.setSent HqcRxBuf.setStream HqcRxBuf.stream
  split_ifs <;> rfl

theorem RxStep.same (h : RxStep R rx rx' fx) : SameStreams rx rx' := by
  cases h with
  | resend kind ct i hk hc hr hi hf ht =>
    exact ⟨rfl, rfl, rfl, rfl, fun _ ↦ rfl, fun _ ↦ rfl, fun _ ↦ rfl⟩
  | window kind ct budget hk hc hb => exact sameStreams_setSent rx kind _
  | probe kind ct i hk hc hi =>
    exact ⟨rfl, rfl, rfl, rfl, fun _ ↦ rfl, fun _ ↦ rfl, fun _ ↦ rfl⟩

theorem RxSteps.same (h : RxSteps R rx rx' fx) : SameStreams rx rx' := by
  induction h with
  | refl rx => exact ⟨rfl, rfl, rfl, rfl, fun _ ↦ rfl, fun _ ↦ rfl, fun _ ↦ rfl⟩
  | head hstep hrest ih => exact hstep.same.trans ih

theorem SameStreams.sized (h : SameStreams rx rx') (hz : rx.Sized) : rx'.Sized := by
  refine ⟨?_, ?_⟩
  · have ha : rx'.cte.acked = rx.cte.acked := h.acked 0
    have hl : rx'.cte.len = rx.cte.len := h.len 0
    rw [ha, CtStream.chunks, hl, h.mtu]
    exact hz.1
  · have ha : rx'.cts.acked = rx.cts.acked := h.acked 1
    have hl : rx'.cts.len = rx.cts.len := h.len 1
    rw [ha, CtStream.chunks, hl, h.mtu]
    exact hz.2

theorem HqcRxBuf.Sized.length (h : rx.Sized) (kind : UInt8) :
    (rx.stream kind).acked.length = (rx.stream kind).chunks rx.mtu :=
  HqcRxBuf.forall_stream (Q := fun st ↦ st.acked.length = st.chunks rx.mtu) h.1 h.2 kind

theorem HqcRxBuf.Sized.stream (h : rx.Sized) (kind : UInt8) :
    (rx.stream kind).sizedAcks rx.mtu = (rx.stream kind).acked :=
  CtStream.sizedAcks_of_length (h.length kind)

theorem HqcRxBuf.Sized.setStream_self (h : rx.Sized) (kind : UInt8) :
    rx.setStream kind { rx.stream kind with acked := (rx.stream kind).sizedAcks rx.mtu } = rx := by
  rw [h.stream kind]
  exact setSent_self rx kind

def HqcSession.Due (s : HqcSession) (now : UInt32) (kind : UInt8) (i : Nat) : Prop :=
  dueFragment now s (s.rx.stream kind) = .resend i

inductive DueOutcome (now : UInt32) (s : HqcSession) (kind : UInt8) : Due → Prop
  | none : DueOutcome now s kind .none
  | resend (i : Nat) (hi : i * s.rx.mtu < (s.rx.stream kind).len) (hf : s.rx.InFlight kind i)
      (hn : s.tLastTx ≠ now) (ht : s.rx.retries (i * s.rx.mtu) < s.rx.maxRetries) :
      DueOutcome now s kind (.resend i)
  | exhausted (i : Nat) (hf : s.rx.InFlight kind i)
      (ht : s.rx.maxRetries ≤ s.rx.retries (i * s.rx.mtu)) : DueOutcome now s kind (.exhausted i)

theorem rtoFor_pos (tries : UInt8) : 0 < rtoFor tries := by
  unfold rtoFor
  induction tries.toNat with
  | zero => decide
  | succ n ih =>
    rw [Function.iterate_succ_apply']
    split_ifs
    · exact Nat.mul_pos ih Nat.two_pos
    · decide

theorem dueFragment_spec (now : UInt32) (hm : 0 < s.rx.mtu) (kind : UInt8) :
    DueOutcome now s kind (dueFragment now s (s.rx.stream kind)) := by
  unfold dueFragment
  split
  · exact .none
  · rename_i i hi
    have hlt := (lt_fragments hm).mp (List.mem_range.mp (List.mem_of_find?_eq_some hi))
    have hp := List.find?_some hi
    rw [Bool.or_eq_true, decide_eq_true_eq, Bool.not_eq_true'] at hp
    dsimp only
    split_ifs with hs hr ht
    · exact .none
    · exact .none
    · exact .exhausted i ⟨hp.resolve_left hs, Nat.lt_of_not_le hs⟩ ht
    · refine .resend i hlt ⟨hp.resolve_left hs, Nat.lt_of_not_le hs⟩ (fun he ↦ hr ?_)
        (UInt8.not_le.mp ht)
      rw [he, UInt32.sub_self]
      exact rtoFor_pos _

theorem sendWindow_nil (ct : Block) (sessionId : UInt64) (kind : UInt8) (mtu len budget off : Nat)
    (h : (sendWindow ct sessionId kind mtu len budget off).1 = []) :
    (sendWindow ct sessionId kind mtu len budget off).2 = off := by
  cases budget with
  | zero => rfl
  | succ budget =>
    unfold sendWindow at h ⊢
    split_ifs at h ⊢
    rfl

/-- What `pump_stream` does to a session in which the vectors have their size. -/
inductive PumpOutcome (R : UInt8 → Nat → Prop) (now : UInt32) (kind : UInt8) (s : HqcSession) :
    HqcSession × List Effect × Bool → Prop
  | went (s' : HqcSession) (fx : List Effect) (h : RxSteps R s.rx s'.rx fx)
      (ht : s' = s ∨ s'.tLastTx = now) : PumpOutcome R now kind s (s', fx, true)
  | exhausted (s₀ : HqcSession) (ct : Block) (i : Nat) (hc : s.rx.Holds kind ct)
      (hf : s.rx.InFlight kind i) (ht : s.rx.maxRetries ≤ s.rx.retries (i * s.rx.mtu)) :
      PumpOutcome R now kind s (s₀.wipe,
        [.hqcAbort s.rx.sessionId .timeout (detailOf kind) (i * s.rx.mtu)], false)

theorem pumpNew_step (now : UInt32) {ct : Block} {inflight : Nat} (hk : kind = 0 ∨ kind = 1)
    (hc : s.rx.Holds kind ct) (hn : s.rx.inflight kind ≤ inflight) :
    RxSteps R s.rx (pumpNew now kind s (s.rx.stream kind) ct inflight).1.rx
        (pumpNew now kind s (s.rx.stream kind) ct inflight).2 ∧
      ((pumpNew now kind s (s.rx.stream kind) ct inflight).1 = s ∨
        (pumpNew now kind s (s.rx.stream kind) ct inflight).1.tLastTx = now) := by
  have hstep := RxStep.window (R := R) kind ct (s.rx.window - inflight) hk hc
    (Nat.sub_le_sub_left hn _)
  unfold pumpNew
  dsimp only
  split_ifs with hw
  · refine ⟨.single hstep, .inl ?_⟩
    have he := sendWindow_nil _ _ _ _ _ _ _ (List.isEmpty_iff.mp hw)
    rw [he]
    exact congrArg s.setRx (setSent_self s.rx kind)
  · exact ⟨.single hstep, .inr rfl⟩

theorem pumpStream_outcome (now : UInt32) (hk : kind = 0 ∨ kind = 1) (hm : 0 < s.rx.mtu)
    (hz : s.rx.Sized) (hR : ∀ i, s.Due now kind i → R kind i) :
    PumpOutcome R now kind s (pumpStream P now kind s) := by
  unfold pumpStream
  split
  · exact .went s [] (.refl _) (.inl rfl)
  · rename_i ct hb
    split_ifs with hl
    · exact .went s [] (.refl _) (.inl rfl)
    · have hc : s.rx.Holds kind ct := ⟨hb, hl⟩
      have hd := dueFragment_spec now hm kind
      unfold pumpCt
      simp only [hz.stream kind]
      cases hdue : dueFragment now s (s.rx.stream kind) with
      | none =>
        obtain ⟨hsteps, ht⟩ := pumpNew_step (R := R) now hk hc le_rfl
        exact .went _ _ hsteps ht
      | exhausted i =>
        rw [hdue] at hd
        cases hd with
        | exhausted i hf ht => exact .exhausted _ ct i hc hf ht
      | resend i =>
        rw [hdue] at hd
        cases hd with
        | resend i hi hf hn ht =>
          have hstep := RxStep.resend kind ct i hk hc (hR i hdue) hi hf ht
          obtain ⟨hsteps, htx⟩ := pumpNew_step (R := R) now
            (s := (s.setRx (s.rx.countRetry (i * s.rx.mtu))).noteTx now) hk ⟨hb, hl⟩
            (Nat.le_succ (s.rx.inflight kind))
          refine .went _ _ (.head hstep hsteps) (.inr ?_)
          exact htx.elim (congrArg HqcSession.tLastTx) id

theorem not_due_of_tLastTx (hm : 0 < s.rx.mtu) (ht : s.tLastTx = now) (kind : UInt8) (i : Nat) :
    ¬ s.Due now kind i := by
  intro hd
  have h := dueFragment_spec now hm kind
  rw [show dueFragment now s (s.rx.stream kind) = .resend i from hd] at h
  cases h with
  | resend i hi hf hn htries => exact hn ht

/-- What a tick does to a session in which the vectors have their size. -/
inductive TickOutcome (R : UInt8 → Nat → Prop) (s : HqcSession) :
    HqcSession × List Effect → Prop
  | went (s' : HqcSession) (fx : List Effect) (h : RxSteps R s.rx s'.rx fx) :
      TickOutcome R s (s', fx)
  | exhausted (s₀ s' : HqcSession) (rx : HqcRxBuf) (fx : List Effect) (kind : UInt8) (ct : Block)
      (i : Nat) (h : RxSteps R s.rx rx fx) (hk : kind = 0 ∨ kind = 1)
      (hc : rx.Holds kind ct) (hf : rx.InFlight kind i)
      (ht : rx.maxRetries ≤ rx.retries (i * rx.mtu)) (hs : s'.rx = s₀.wipe.rx) :
      TickOutcome R s
        (s', fx ++ [.hqcAbort rx.sessionId .timeout (detailOf kind) (i * rx.mtu)])
  | timeout (s₀ s' : HqcSession) (hs : s'.rx = s₀.wipe.rx) :
      TickOutcome R s (s', [.hqcAbort s.rx.sessionId .timeout 2 0])

theorem pumpTx_outcome (P : Platform ρ) (now : UInt32) (hm : 0 < s.rx.mtu) (hz : s.rx.Sized)
    (hR : ∀ kind i, s.Due now kind i → R kind i) : TickOutcome R s (pumpTx P now s) := by
  unfold pumpTx
  split_ifs
  · exact .went s [] (.refl _)
  · have h₀ := pumpStream_outcome (P := P) now (.inl rfl) hm hz (hR 0)
    dsimp only
    generalize pumpStream P now 0 s = r at h₀ ⊢
    cases h₀ with
    | exhausted s₀ ct i hc hf ht =>
      exact .exhausted s₀ s₀.wipe s.rx [] 0 ct i (.refl _) (.inl rfl) hc hf ht rfl
    | went s₁ fx h hlast =>
      have hm' : 0 < s₁.rx.mtu := h.same.mtu ▸ hm
      have hdue : ∀ i, s₁.Due now 1 i → R 1 i := by
        intro i hi
        rcases hlast with rfl | ht
        · exact hR 1 i hi
        · exact absurd hi (not_due_of_tLastTx hm' ht 1 i)
      have h₁ := pumpStream_outcome (P := P) now (.inr rfl) hm' (h.same.sized hz) hdue
      dsimp only
      generalize pumpStream P now 1 s₁ = r at h₁ ⊢
      cases h₁ with
      | exhausted s₀ ct i hc hf ht =>
        exact .exhausted s₀ s₀.wipe s₁.rx fx 1 ct i h (.inr rfl) hc hf ht rfl
      | went s₂ fx' h' hlast' =>
        have hdone : (pumpDone s₂).rx = s₂.rx := by
          unfold pumpDone
          split_ifs <;> rfl
        exact .went (pumpDone s₂) (fx ++ fx') (hdone ▸ h.trans h')

theorem probeStream_steps (now : UInt32) (hk : kind = 0 ∨ kind = 1) (hm : 0 < s.rx.mtu)
    (hz : s.rx.Sized) :
    RxSteps R s.rx (probeStream now kind s).1.rx (probeStream now kind s).2 := by
  unfold probeStream
  dsimp only
  rw [hz.setStream_self]
  split
  · exact .refl _
  · rename_i ct hb
    split_ifs with hl
    · exact .refl _
    · split
      · exact .refl _
      · rename_i i hi
        have hlt := (lt_fragments hm).mp (List.mem_range.mp (List.mem_of_find?_eq_some hi))
        exact .single (.probe kind ct i hk ⟨hb, hl⟩ hlt)

theorem kickAcks_steps (e : Env ρ) (hm : 0 < s.rx.mtu) (hz : s.rx.Sized) :
    RxSteps R s.rx (kickAcks e s).1.rx (kickAcks e s).2 := by
  unfold kickAcks
  split_ifs
  · exact .refl _
  · have h₀ := probeStream_steps (R := R) (e.millis 1) (.inl rfl) hm hz
    have h₁ := probeStream_steps (R := R) (e.millis 2) (.inr rfl) (h₀.same.mtu ▸ hm)
      (h₀.same.sized hz)
    exact h₀.trans h₁

theorem probeStream_absent (now : UInt32) (h : (s.rx.stream kind).buf = none) :
    probeStream now kind s = (s, []) := by
  unfold probeStream
  dsimp only
  rw [h]

theorem stream_buf_of_wiped {s₀ : HqcSession} (h : s.rx = s₀.wipe.rx) (kind : UInt8) :
    (s.rx.stream kind).buf = none := by
  rw [h]
  exact stream_buf_wipe s₀ kind

theorem kickAcks_absent (e : Env ρ) (h : ∀ kind, (s.rx.stream kind).buf = none) :
    kickAcks e s = (s, []) := by
  unfold kickAcks
  dsimp only
  rw [probeStream_absent _ (h 0), probeStream_absent _ (h 1)]
  split_ifs <;> rfl

/-- The tick would make the pump send fragment `i` again. -/
structure HqcSession.Resends (s : HqcSession) (now : UInt32) (kind : UInt8) (i : Nat) : Prop where
  running : ¬ (s.state = .idle ∨ s.state = .fail ∨ s.state = .active)
  intime : ¬ (now - s.tStart).toNat > hsTimeoutMs
  due : s.Due now kind i

theorem tick_outcome (P : Platform ρ) (e : Env ρ) (hm : 0 < s.rx.mtu) (hz : s.rx.Sized) :
    TickOutcome (s.Resends (e.millis 0)) s (tick P e s) := by
  unfold tick
  dsimp only
  split_ifs with hrest htime
  · exact .went s [] (.refl _)
  · exact .timeout _ _ rfl
  · have h := pumpTx_outcome P (e.millis 0) hm hz fun kind i hi ↦
      HqcSession.Resends.mk hrest htime hi
    generalize pumpTx P (e.millis 0) s = r at h ⊢
    cases h with
    | went s' fx h =>
      exact .went _ _ (h.trans (kickAcks_steps e (h.same.mtu ▸ hm) (h.same.sized hz)))
    | exhausted s₀ s' rx fx kind ct i h hk hc hf ht hs =>
      dsimp only
      rw [kickAcks_absent e (stream_buf_of_wiped hs), List.append_nil]
      exact .exhausted s₀ _ rx fx kind ct i h hk hc hf ht hs
    | timeout s₀ s' hs =>
      dsimp only
      rw [kickAcks_absent e (stream_buf_of_wiped hs)]
      exact .timeout s₀ _ hs
  · exact pumpTx_outcome P (e.millis 0) hm hz fun kind i hi ↦ ⟨hrest, htime, hi⟩

end KemtlsMavlink
