import KemtlsMavlink.Session.Phase
import KemtlsMavlink.Session.Sample

namespace KemtlsMavlink

open Library

variable {ρ : Type} {P : Platform ρ} {e : Env ρ} {m : Hello} {s s' : HqcSession} {i : Input ρ}

structure Clean (s : HqcSession) : Prop where
  ssE : s.rx.ssE = Bytes.zeros _
  ssS : s.rx.ssS = Bytes.zeros _
  ms : s.ms = Bytes.zeros _
  kTx : s.kTx = Bytes.zeros _
  kRx : s.kRx = Bytes.zeros _
  ivTx : s.ivTx = Bytes.zeros _
  ivRx : s.ivRx = Bytes.zeros _
  kChachaTx : s.kChachaTx = Bytes.zeros _
  kChachaRx : s.kChachaRx = Bytes.zeros _
  pke : s.rx.pke = none
  cte : s.rx.cte.buf = none
  pks : s.rx.pks = none
  cts : s.rx.cts.buf = none

theorem wipe_clean (s : HqcSession) : Clean s.wipe :=
  ⟨rfl, rfl, rfl, rfl, rfl, rfl, rfl, rfl, rfl, rfl, rfl, rfl, rfl⟩

theorem refused_clean (P : Platform ρ) (e : Env ρ) (s : HqcSession) (m : Hello) (th : Bytes 32)
    (alg : UInt8) : Clean ((helloSession P e s m alg none).setTh th) :=
  ⟨rfl, rfl, rfl, rfl, rfl, rfl, rfl, rfl, rfl, rfl, rfl, rfl, rfl⟩

theorem Clean.transmit (h : Clean s) (ht : Transmits s s') : Clean s' := by
  have hc := ht.core
  refine ⟨(congrArg (fun t ↦ t.rx.ssE) hc).trans h.ssE,
    (congrArg (fun t ↦ t.rx.ssS) hc).trans h.ssS,
    (congrArg (fun t ↦ t.ms) hc).trans h.ms, (congrArg (fun t ↦ t.kTx) hc).trans h.kTx,
    (congrArg (fun t ↦ t.kRx) hc).trans h.kRx, (congrArg (fun t ↦ t.ivTx) hc).trans h.ivTx,
    (congrArg (fun t ↦ t.ivRx) hc).trans h.ivRx,
    (congrArg (fun t ↦ t.kChachaTx) hc).trans h.kChachaTx,
    (congrArg (fun t ↦ t.kChachaRx) hc).trans h.kChachaRx, ?_, ?_, ?_, ?_⟩
  · exact (congrArg (fun t ↦ t.rx.pke) hc).trans h.pke
  · exact (congrArg (fun t ↦ t.rx.cte.buf) hc).trans h.cte
  · exact (congrArg (fun t ↦ t.rx.pks) hc).trans h.pks
  · exact (congrArg (fun t ↦ t.rx.cts.buf) hc).trans h.cts

def EncapOk (P : Platform ρ) (e : Env ρ) (rx : HqcRxBuf) : Prop :=
  ∃ pke ct, rx.pke = some pke ∧ rx.encapBuf e = some ct ∧ (encapOut P e pke ct).ok = true

theorem KeyCompletion.state {pke : Block} {r : HqcSession × List Effect}
    (h : KeyCompletion P e s pke r) (hp : s.rx.pke = some pke) :
    EncapOk P e s.rx ∧ r.1.state = .ctTx ∨
      ¬ EncapOk P e s.rx ∧ r.1.state = .fail ∧ r.1.rx.pke = some pke := by
  cases h with
  | noBuffer hb =>
    refine .inr ⟨fun ⟨pke', ct, _, hb', _⟩ ↦ ?_, rfl, hp⟩
    exact nomatch hb.symm.trans hb'
  | failed ct hb ho =>
    refine .inr ⟨fun ⟨pke', ct', hp', hb', ho'⟩ ↦ ?_, rfl, hp⟩
    obtain rfl := Option.some.inj (hp.symm.trans hp')
    obtain rfl := Option.some.inj (hb.symm.trans hb')
    exact Bool.false_ne_true (ho.symm.trans ho')
  | done ct fx hb ho hfx => exact .inl ⟨⟨pke, ct, hp, hb, ho⟩, rfl⟩

/-- An accepted chunk that leaves no fragment missing. -/
def Completes (rx : HqcRxBuf) (c : PkChunk) : Prop :=
  pkChunkError rx c = none ∧ ∀ k < rx.pkChunks, k = rx.fragIdx c ∨ rx.Received k

theorem completing_chunk {c : PkChunk} (ho : Open m s) (hi : i.event = .pkChunk c)
    (hc : Completes s.rx c) :
    EncapOk P i.env (s.rx.storeFragment c).1 ∧ (handle P s i).1.state = .ctTx ∨
      ¬ EncapOk P i.env (s.rx.storeFragment c).1 ∧ (handle P s i).1.state = .fail ∧
        (handle P s i).1.rx.pke.isSome := by
  have ha := pkChunkError_eq_none.mp hc.1
  have hk := (HqcRxBuf.keyComplete_afterChunk ho.rx.fragments ha).mpr hc.2
  have h := handleHqcPkChunk_spec P i.env s c
  simp only [handle, hi]
  generalize handleHqcPkChunk P i.env s c = r at h ⊢
  cases h with
  | refused value status detail he => cases he.symm.trans hc.1
  | stored sid base mask he hk' => exact absurd hk hk'
  | complete sid base mask pke r he hk hp hr =>
    rcases hr.state hp with h | ⟨hn, hs, hp'⟩
    · exact .inl h
    · exact .inr ⟨hn, hs, by rw [hp']; rfl⟩

def CleanAtRest (s : HqcSession) : Prop := s.state = .idle ∨ s.state = .fail → Clean s

def EncapSucceeds (P : Platform ρ) (s : HqcSession) (i : Input ρ) : Prop :=
  match i.event with
  | .pkChunk c => Completes s.rx c → EncapOk P i.env (s.rx.storeFragment c).1
  | _ => True

/-- The invariant of the runs without a failed encapsulation: `FAIL` is reached
by a wipe only. -/
def Wiped (s : HqcSession) : Prop :=
  Resting s ∧ (s.state = .active ∨ Clean s) ∨ ∃ m, Open m s ∧ s.state ≠ .fail

theorem Wiped.settled (h : Wiped s) : Settled s := h.imp (·.1) fun ⟨m, h⟩ ↦ ⟨m, h.1⟩

theorem Wiped.cleanAtRest (h : Wiped s) : CleanAtRest s := by
  intro hs
  rcases h with ⟨-, ha | hc⟩ | ⟨m, ho, hn⟩
  · simp [ha] at hs
  · exact hc
  · rcases ho.state with h | ⟨h, -⟩ | ⟨h, -⟩
    · simp [h] at hs
    · simp [h] at hs
    · exact absurd h hn

theorem hello_wiped (P : Platform ρ) (e : Env ρ) (s : HqcSession) (m : Hello) :
    Wiped (handleHqcHello P e s m).1 := by
  have h := handleHqcHello_spec P e s m
  generalize handleHqcHello P e s m = r at h ⊢
  cases h with
  | refused th alg fx hfx =>
    exact .inl ⟨refused_resting P e s m th alg, .inr (refused_clean P e s m th alg)⟩
  | accepted pke cts k ss fx fx' hf hs hw hk hfx =>
    exact .inr ⟨m, accepted_open hf hs k cts ss, nofun⟩

theorem Wiped.step (h : Wiped s) (hc : EncapSucceeds P s i) : Wiped (handle P s i).1 := by
  by_cases hi : i.event.IsHello
  · obtain ⟨m, he⟩ := hi.exists
    simp only [handle, he]
    exact hello_wiped P i.env s m
  · have hm := handle_move (P := P) h.settled.sized hi
    rcases h with ⟨hr, hw⟩ | ⟨m, ho, hn⟩
    · obtain ⟨ht, hs, -⟩ := hr.move hm
      exact .inl ⟨hr.transmit ht hs, hw.imp hs.trans fun hc ↦ hc.transmit ht⟩
    · generalize hr : handle P s i = r at hm ⊢
      cases hm with
      | quiet s' fx ht hs hfx => exact .inr ⟨m, ho.transmit ht hs, by rw [hs]; exact hn⟩
      | acked s' fx ht hs hd hw hfx =>
        exact .inr ⟨m, ho.acked ht hs hd, by rw [hs]; decide⟩
      | wiped s₀ s' fx ht hs hr hfx =>
        exact .inl ⟨(wipe_resting s₀).transmit ht hs, .inr ((wipe_clean s₀).transmit ht)⟩
      | chunk c sid base mask he ha hk => exact .inr ⟨m, ho.afterChunk ha _, hn⟩
      | encap c sid base mask pke r' he ha hk hp hkc =>
        unfold EncapSucceeds at hc
        rw [he] at hc
        have hcomp : Completes s.rx c := ⟨pkChunkError_eq_none.mpr ha,
          (HqcRxBuf.keyComplete_afterChunk ho.rx.fragments ha).mp hk⟩
        have hst : r'.1.state = .ctTx :=
          (hkc.state hp).elim (·.2) fun hf ↦ absurd (hc hcomp) hf.1
        have ho' := ho.afterChunk ha (i.env.millis 0)
        have hop : Open m r'.1 := Open.keyCompletion ho'.rx hk ho'.alg hkc
        exact .inr ⟨m, hop, by rw [hst]; decide⟩
      | finished f he ha => exact .inl ⟨activated_resting ho f _, .inl rfl⟩

theorem Wiped.encapSucceeds (h : Wiped s) (hc : CleanAtRest (handle P s i).1) :
    EncapSucceeds P s i := by
  unfold EncapSucceeds
  cases he : i.event with
  | pkChunk c =>
    intro hcomp
    have hp := (pkChunkError_eq_none.mp hcomp.1).pke
    rcases h with ⟨hr, -⟩ | ⟨m, ho, -⟩
    · rw [hr.pke] at hp
      exact nomatch hp
    · rcases completing_chunk ho he hcomp with ⟨hok, -⟩ | ⟨-, hs, hp'⟩
      · exact hok
      · rw [(hc (.inr hs)).pke] at hp'
        exact nomatch hp'
  | _ => trivial

/-- No secret outlives a dead session exactly along the runs in which every
complete key is encapsulated to. -/
theorem clean_at_rest_iff (P : Platform ρ) (e : Env ρ) (s : HqcSession) (m : Hello)
    (is : List (Input ρ)) :
    (session P).Always (fun s _ ↦ CleanAtRest s) (handleHqcHello P e s m).1 is ↔
      (session P).Guarded (EncapSucceeds P) (handleHqcHello P e s m).1 is :=
  Machine.always_iff_guarded (J := fun s _ ↦ Wiped s) (Q := fun _ ↦ True)
    (fun _ _ h ↦ h.cleanAtRest) (fun _ _ _ h _ hc ↦ h.step hc)
    (fun _ _ _ h _ hc ↦ h.encapSucceeds hc) (hello_wiped P e s m) fun _ _ ↦ trivial

/-- A failed encapsulation keeps the static secret and all four buffers. -/
theorem failed_encap_is_not_clean :
    ¬ (session samplePlatform).Always (fun s _ ↦ CleanAtRest s) (sampleSession 1)
      [⟨.pkChunk (sampleChunk 0 1), sampleEnv 1 0⟩] := by
  intro h
  have hc := h [⟨.pkChunk (sampleChunk 0 1), sampleEnv 1 0⟩] [] rfl (by decide +kernel)
  have hp : ((session samplePlatform).final (sampleSession 1)
      [⟨.pkChunk (sampleChunk 0 1), sampleEnv 1 0⟩]).rx.pke.isSome = true := by decide +kernel
  rw [hc.pke] at hp
  exact nomatch hp

/-- A message other than `HELLO`, or a tick, leaves a session in `IDLE` or `FAIL`
there. -/
def StateKept (P : Platform ρ) (s : HqcSession) (i : Input ρ) : Prop :=
  ¬ i.event.IsHello → s.state = .idle ∨ s.state = .fail → (handle P s i).1.state = s.state

/-- The acknowledgement is for a ciphertext of the session, names every fragment
of it that lacks one, and the other ciphertext lacks none. -/
def CompletesAcks (rx : HqcRxBuf) (c : CtAck) : Prop :=
  c.Held rx ∧ (rx.stream (if c.ctKind = 0 then 1 else 0)).done = true ∧
    ∀ k < (rx.stream c.ctKind).chunks rx.mtu,
      (rx.stream c.ctKind).acked.getD k false = true ∨ c.Names rx.mtu k

/-- What brings a session back from `FAIL`: a chunk that passes the checks and is
followed by a successful encapsulation, or the last acknowledgement. -/
def Revives (P : Platform ρ) (s : HqcSession) (i : Input ρ) : Prop :=
  (s.state = .idle ∨ s.state = .fail) ∧
    match i.event with
    | .pkChunk c => pkChunkError s.rx c = none ∧ EncapOk P i.env (s.rx.storeFragment c).1
    | .ctAck c => CompletesAcks s.rx c
    | _ => False

theorem Resting.stateKept (h : Resting s) (i : Input ρ) : StateKept P s i := by
  intro hi _
  exact (h.move (handle_move (P := P) h.sized hi)).2.1

theorem Resting.not_revives (h : Resting s) (i : Input ρ) : ¬ Revives P s i := by
  rintro ⟨-, hr⟩
  cases he : i.event with
  | pkChunk c =>
    rw [he] at hr
    have hp := (pkChunkError_eq_none.mp hr.1).pke
    rw [h.pke] at hp
    exact nomatch hp
  | ctAck c =>
    rw [he] at hr
    exact h.not_held c hr.1
  | _ => simp [he] at hr

theorem done_markedStream {st : CtStream} {mtu : Nat} (c : CtAck) (sent : Nat) (hm : 0 < mtu)
    (hs : st.acked.length = st.chunks mtu) (hl : st.len ≠ 0) :
    ({ markedStream st mtu c with sent := sent } : CtStream).done = true ↔
      ∀ k < st.chunks mtu, st.acked.getD k false = true ∨ c.Names mtu k := by
  have hpos : 0 < st.chunks mtu := Nat.div_pos (by omega) hm
  have hlen : (markAcked (st.sizedAcks mtu) (st.chunks mtu) (c.base.toNat / mtu) c.mask).length =
      st.chunks mtu := by rw [length_markAcked, CtStream.length_sizedAcks]
  have hne : markAcked (st.sizedAcks mtu) (st.chunks mtu) (c.base.toNat / mtu) c.mask ≠ [] :=
    List.ne_nil_of_length_pos (by rw [hlen]; exact hpos)
  simp only [CtStream.done, markedStream, Bool.and_eq_true, allAcked_iff, hlen, hl, hne, ne_eq,
    not_false_eq_true, decide_true, and_true, true_and]
  apply forall₂_congr
  intro k hk
  rw [CtStream.sizedAcks_of_length hs, getD_markAcked hs]
  exact or_congr_right (and_iff_right hk)

theorem applyCtAck_done {rx : HqcRxBuf} (hm : 0 < rx.mtu) (hz : rx.Sized) {c : CtAck}
    (hl : (rx.stream c.ctKind).len ≠ 0) (ct : Block) :
    ((applyCtAck rx c ct).1.cte.done = true ∧ (applyCtAck rx c ct).1.cts.done = true) ↔
      (rx.stream (if c.ctKind = 0 then 1 else 0)).done = true ∧
        ∀ k < (rx.stream c.ctKind).chunks rx.mtu,
          (rx.stream c.ctKind).acked.getD k false = true ∨ c.Names rx.mtu k := by
  obtain ⟨sent, retries, he⟩ := applyCtAck_fst rx c ct
  rw [he]
  by_cases hk : c.ctKind = 0
  · simp only [HqcRxBuf.stream, HqcRxBuf.setStream, hk, if_true] at hl ⊢
    rw [done_markedStream c sent hm hz.1 hl, and_comm]
    rfl
  · simp only [HqcRxBuf.stream, HqcRxBuf.setStream, hk, if_true, if_false] at hl ⊢
    rw [done_markedStream c sent hm hz.2 hl]

theorem ctAck_state (ho : Open m s) (e : Env ρ) (c : CtAck) :
    CompletesAcks s.rx c ∧ (handleHqcCtAck e s c).1.state = .waitCf ∨
      ¬ CompletesAcks s.rx c ∧ (handleHqcCtAck e s c).1.state = s.state := by
  by_cases hc : c.Held s.rx
  · obtain ⟨ct, -, h⟩ := handleHqcCtAck_held e hc
    have hd := applyCtAck_done ho.rx.fragments.mtu_pos ho.rx.sized hc.2.2 ct
    rw [h, settleCtAck]
    split_ifs with hb
    · exact .inl ⟨⟨hc, hd.mp (Bool.and_eq_true_iff.mp hb)⟩, rfl⟩
    · exact .inr ⟨fun hca ↦ hb (Bool.and_eq_true_iff.mpr (hd.mpr hca.2)), rfl⟩
  · rw [handleHqcCtAck_ignored e hc]
    exact .inr ⟨fun h ↦ hc h.1, rfl⟩

theorem Open.stateKept_iff (h : Open m s) (hs : s.state = .fail) (i : Input ρ) :
    (¬ i.event.IsHello → (handle P s i).1.state = s.state) ↔ ¬ Revives P s i := by
  have hk : s.rx.KeyComplete := by
    rcases h.state with h' | ⟨h', -⟩ | ⟨-, hk⟩
    · exact nomatch hs.symm.trans h'
    · exact nomatch hs.symm.trans h'
    · exact hk
  unfold Revives
  cases he : i.event with
  | hello m => simp [Event.IsHello]
  | pkChunk c =>
    by_cases hc : pkChunkError s.rx c = none
    · have hcomp : Completes s.rx c :=
        ⟨hc, fun k hlt ↦ .inr (h.rx.fragments.received_of_complete hk hlt)⟩
      rcases completing_chunk (P := P) h he hcomp with ⟨hok, hst⟩ | ⟨hok, hst, -⟩
      · simp [hs, hst, hc, hok, Event.IsHello]
      · simp [hs, hst, hok, Event.IsHello]
    · have hq : (handle P s i).1.state = s.state := by
        have hsp := handleHqcPkChunk_spec P i.env s c
        simp only [handle, he]
        generalize handleHqcPkChunk P i.env s c = r at hsp ⊢
        cases hsp with
        | refused value status detail _ => rfl
        | stored sid base mask hn _ => exact absurd hn hc
        | complete sid base mask pke r hn _ _ _ => exact absurd hn hc
      simp [hq, hc]
  | ctAck c =>
    rcases ctAck_state h i.env c with ⟨hc, hst⟩ | ⟨hc, hst⟩
    · simp [handle, he, hst, hs, hc, Event.IsHello]
    · simp [handle, he, hst, hc]
  | finish f =>
    have hq : (handle P s i).1.state = s.state := by
      have hsp := handleHqcFinish_spec P i.env s f
      simp only [handle, he]
      generalize handleHqcFinish P i.env s f = r at hsp ⊢
      cases hsp with
      | refused value status detail => rfl
      | rejected s₀ hw => exact nomatch hs.symm.trans hw
      | accepted ha => exact nomatch hs.symm.trans ha.state
    simp [hq]
  | tick =>
    have hq : (handle P s i).1.state = s.state := by simp [handle, he, tick, hs]
    simp [hq]

theorem Settled.stateKept_iff (h : Settled s) (i : Input ρ) :
    StateKept P s i ↔ ¬ Revives P s i := by
  rcases h with h | ⟨m, ho⟩
  · exact ⟨fun _ ↦ h.not_revives i, fun _ ↦ h.stateKept i⟩
  · by_cases hs : s.state = .fail
    · rw [← ho.stateKept_iff hs i]
      exact ⟨fun hk hi ↦ hk hi (.inr hs), fun hk hi _ ↦ hk hi⟩
    · have hn : ¬ (s.state = .idle ∨ s.state = .fail) := by
        rcases ho.state with h | ⟨h, -⟩ | ⟨h, -⟩
        · simp [h]
        · simp [h]
        · exact absurd h hs
      exact ⟨fun _ hr ↦ hn hr.1, fun _ _ hd ↦ absurd hd hn⟩

/-- `IDLE` and `FAIL` are left only by `HELLO` exactly along the runs in which
nothing revives a failed session. -/
theorem stateKept_run_iff (P : Platform ρ) (kChachaTx kChachaRx : Bytes 32)
    (is : List (Input ρ)) :
    (session P).Guarded (StateKept P) (.fresh kChachaTx kChachaRx) is ↔
      (session P).Guarded (fun s i ↦ ¬ Revives P s i) (.fresh kChachaTx kChachaRx) is := by
  have hs : ∀ as, Settled ((session P).final (.fresh kChachaTx kChachaRx) as) :=
    (fresh_settled kChachaTx kChachaRx).run
  rw [Machine.guarded_iff, Machine.guarded_iff]
  exact forall₄_congr fun as i bs _ ↦ (hs as).stateKept_iff i

/-- A failed encapsulation leaves `FAIL`; the same chunk again leads out of it. -/
theorem repeated_chunk_leaves_fail :
    ¬ (session samplePlatform).Guarded (StateKept samplePlatform)
      (.fresh (Bytes.zeros 32) (Bytes.zeros 32))
      [⟨.hello (sampleHello 1), sampleEnv 0 1⟩, ⟨.pkChunk (sampleChunk 0 1), sampleEnv 1 0⟩,
        ⟨.pkChunk (sampleChunk 0 1), sampleEnv 2 2⟩] := by
  rintro ⟨-, -, h, -⟩
  have hs := h id (.inr (by decide +kernel))
  exact absurd hs (by decide +kernel)

end KemtlsMavlink
