import KemtlsMavlink.Session.Moves

namespace KemtlsMavlink

open Library

variable {ρ : Type} {P : Platform ρ} {m : Hello} {s s' : HqcSession} {i : Input ρ}

/-- A session outside a handshake: never started, refused, wiped or active. It
holds no public key and no ciphertext, so that it waits for the next `HELLO`. -/
structure Resting (s : HqcSession) : Prop where
  state : s.state = .idle ∨ s.state = .fail ∨ s.state = .active
  pke : s.rx.pke = none
  cte : s.rx.cte.buf = none
  cts : s.rx.cts.buf = none
  len : s.state = .active ∨ s.rx.cte.len = 0
  sized : s.rx.Sized

structure OpenBuf (m : Hello) (rx : HqcRxBuf) : Prop where
  sessionId : rx.sessionId = m.sessionId
  salt : rx.salt = m.handshakeSalt
  pkLen : rx.pkLen = m.pkLen.toNat
  mtu : rx.mtu = 220
  pke : ∃ pke, rx.pke = some pke ∧ pke.size = rx.pkLen
  fragments : rx.Fragments
  sized : rx.Sized
  cts : rx.cts.buf.isSome ∧ rx.cts.len = apKemCiphertextBytes
  cte : rx.cte.len = 0 ∨ rx.cte.len = apKemCiphertextBytes ∧ rx.cte.buf.isSome
  complete : rx.cte.len ≠ 0 → rx.KeyComplete

/-- A handshake that `m` has opened: running, or in `FAIL` after a failed
`start_encap`, which needs the complete key. -/
structure Open (m : Hello) (s : HqcSession) : Prop where
  rx : OpenBuf m s.rx
  alg : s.aeadAlg = m.aeadOffer
  state : s.state = .ctTx ∨ s.state = .waitCf ∧ s.rx.cte.len ≠ 0 ∨
    s.state = .fail ∧ s.rx.KeyComplete

def Phase (m : Hello) (s : HqcSession) : Prop := Resting s ∨ Open m s

def Settled (s : HqcSession) : Prop := Resting s ∨ ∃ m, Open m s

theorem Settled.sized (h : Settled s) : s.rx.Sized := h.elim (·.sized) fun ⟨_, h⟩ ↦ h.rx.sized

theorem Phase.settled (h : Phase m s) : Settled s := h.imp_right fun h ↦ ⟨m, h⟩

theorem Phase.sized (h : Phase m s) : s.rx.Sized := h.elim (·.sized) (·.rx.sized)

theorem chunks_empty {st : CtStream} (h : st.len = 0) : st.chunks 220 = 0 := by
  simp [CtStream.chunks, h]

theorem fresh_resting (kChachaTx kChachaRx : Bytes 32) :
    Resting (.fresh kChachaTx kChachaRx) :=
  ⟨.inl rfl, rfl, rfl, rfl, .inr rfl, (chunks_empty rfl).symm, (chunks_empty rfl).symm⟩

theorem wipe_resting (s : HqcSession) : Resting s.wipe :=
  ⟨.inr (.inl rfl), rfl, rfl, rfl, .inr rfl, (chunks_empty rfl).symm, (chunks_empty rfl).symm⟩

theorem refused_resting (P : Platform ρ) (e : Env ρ) (s : HqcSession) (m : Hello) (th : Bytes 32)
    (alg : UInt8) : Resting ((helloSession P e s m alg none).setTh th) :=
  ⟨.inl rfl, rfl, rfl, rfl, .inr rfl, (chunks_empty rfl).symm, (chunks_empty rfl).symm⟩

theorem accepted_open {e : Env ρ} {pke : Block}
    (hf : helloFieldError (helloBegin P e s m).rx = none) (hs : pke.size = m.pkLen.toNat)
    (k : PdkKey) (cts : Block) (ss : Bytes apKemBytes) :
    Open m
      (helloAccept P (helloSession P e s m (selectAead m.aeadOffer) (some pke)) k cts ss).1 := by
  obtain ⟨-, -, -, -, ha⟩ := helloFieldError_eq_none hf
  refine ⟨?_, selectAead_eq ha, .inl rfl⟩
  refine ⟨rfl, rfl, rfl, rfl, ⟨pke, rfl, hs⟩, ?_, ⟨(chunks_empty rfl).symm, ?_⟩, ⟨rfl, rfl⟩,
    .inl rfl, absurd rfl⟩
  · refine ⟨Nat.zero_lt_succ 219, .inl rfl, Nat.zero_le _, fun i hi ↦ absurd hi (Nat.not_lt_zero _)⟩
  · exact List.length_replicate

/-- A `HELLO` leaves the session resting in `IDLE`, or opens a handshake. -/
theorem hello_phase (P : Platform ρ) (e : Env ρ) (s : HqcSession) (m : Hello) :
    Resting (handleHqcHello P e s m).1 ∧ (handleHqcHello P e s m).1.state = .idle ∨
      Open m (handleHqcHello P e s m).1 ∧ (handleHqcHello P e s m).1.state = .ctTx := by
  have h := handleHqcHello_spec P e s m
  generalize handleHqcHello P e s m = r at h ⊢
  cases h with
  | refused th alg fx hfx => exact .inl ⟨refused_resting P e s m th alg, rfl⟩
  | accepted pke cts k ss fx fx' hf hs hw hk hfx =>
    exact .inr ⟨accepted_open hf hs k cts ss, rfl⟩

theorem Transmits.rx_eq (h : Transmits s s') : ∃ retries cteAcked cteSent ctsAcked ctsSent,
    s'.rx = { s.rx with
      retries := retries
      cte := { s.rx.cte with acked := cteAcked, sent := cteSent }
      cts := { s.rx.cts with acked := ctsAcked, sent := ctsSent } } := by
  have hc : s'.core.rx = s.core.rx := congrArg HqcSession.rx h.core
  refine ⟨s'.rx.retries, s'.rx.cte.acked, s'.rx.cte.sent, s'.rx.cts.acked, s'.rx.cts.sent, ?_⟩
  calc s'.rx = { s'.core.rx with
        retries := s'.rx.retries
        cte := { s'.core.rx.cte with acked := s'.rx.cte.acked, sent := s'.rx.cte.sent }
        cts := { s'.core.rx.cts with acked := s'.rx.cts.acked, sent := s'.rx.cts.sent } } := rfl
    _ = _ := by rw [hc]; rfl

theorem Resting.transmit (h : Resting s) (ht : Transmits s s') (hs : s'.state = s.state) :
    Resting s' := by
  have hsz := ht.sized h.sized
  obtain ⟨r, a, b, c, d, he⟩ := ht.rx_eq
  rw [he] at hsz
  refine ⟨hs ▸ h.state, ?_, ?_, ?_, ?_, he ▸ hsz⟩
  · rw [he]; exact h.pke
  · rw [he]; exact h.cte
  · rw [he]; exact h.cts
  · rw [he, hs]; exact h.len

theorem OpenBuf.transmit (h : OpenBuf m s.rx) (ht : Transmits s s') : OpenBuf m s'.rx := by
  have hsz := ht.sized h.sized
  obtain ⟨r, a, b, c, d, he⟩ := ht.rx_eq
  rw [he] at hsz ⊢
  exact ⟨h.sessionId, h.salt, h.pkLen, h.mtu, h.pke,
    ⟨h.fragments.mtu_pos, h.fragments.length, h.fragments.rcvd_le, h.fragments.received⟩,
    hsz, h.cts, h.cte, h.complete⟩

theorem Open.transmit (h : Open m s) (ht : Transmits s s') (hs : s'.state = s.state) :
    Open m s' := by
  refine ⟨h.rx.transmit ht, ht.alg_eq.trans h.alg, ?_⟩
  have hlen : s'.rx.cte.len = s.rx.cte.len := HqcSession.cte_len_of_core ht.core
  obtain ⟨r, a, b, c, d, he⟩ := ht.rx_eq
  have hk : s'.rx.KeyComplete ↔ s.rx.KeyComplete := by rw [he]; exact Iff.rfl
  rw [hs, hlen, hk]
  exact h.state

theorem CtStream.len_of_done {st : CtStream} (h : st.done = true) : st.len ≠ 0 :=
  of_decide_eq_true (Bool.and_eq_true_iff.mp h).2

theorem CtStream.acked_of_done {st : CtStream} (h : st.done = true) :
    st.acked ≠ [] ∧ ∀ b ∈ st.acked, b = true := by
  obtain ⟨hne, hall⟩ := Bool.and_eq_true_iff.mp (Bool.and_eq_true_iff.mp h).1
  exact ⟨by simpa using hne, fun b hb ↦ List.all_eq_true.mp hall b hb⟩

theorem Open.acked (h : Open m s) (ht : Transmits s s') (hs : s'.state = .waitCf)
    (hd : s'.BothDone) : Open m s' :=
  ⟨h.rx.transmit ht, ht.alg_eq.trans h.alg,
    .inr (.inl ⟨hs, CtStream.len_of_done hd.1⟩)⟩

theorem OpenBuf.afterChunk {rx : HqcRxBuf} {c : PkChunk} (h : OpenBuf m rx)
    (ha : ChunkAccepted rx c) : OpenBuf m (rx.afterChunk c) := by
  have hf := h.fragments.afterChunk ha
  have hk : rx.KeyComplete → (rx.afterChunk c).KeyComplete := fun hk ↦ hk.afterChunk h.fragments ha
  have hp : ∃ pke, (rx.afterChunk c).pke = some pke ∧ pke.size = rx.pkLen := by
    obtain ⟨pke, hp, hs⟩ := h.pke
    by_cases hr : rx.Received (rx.fragIdx c)
    · exact ⟨pke, (HqcRxBuf.afterChunk_pke_of_received hr).trans hp, hs⟩
    · rw [HqcRxBuf.afterChunk_pke_of_not_received hr, hp]
      exact ⟨_, rfl, hs⟩
  refine ⟨?_, ?_, ?_, ?_, by simpa using hp, hf, ?_, ?_, ?_, ?_⟩
  · simpa using h.sessionId
  · simpa using h.salt
  · simpa using h.pkLen
  · simpa using h.mtu
  · simpa [HqcRxBuf.Sized] using h.sized
  · simpa using h.cts
  · simpa using h.cte
  · simpa using fun hl ↦ hk (h.complete hl)

theorem Open.afterChunk {c : PkChunk} (h : Open m s) (ha : ChunkAccepted s.rx c) (now : UInt32) :
    Open m ((s.noteRx now).setRx (s.rx.afterChunk c)) := by
  refine ⟨h.rx.afterChunk ha, h.alg, ?_⟩
  rcases h.state with hs | ⟨hs, hn⟩ | ⟨hs, hc⟩
  · exact .inl hs
  · exact .inr (.inl ⟨hs, by simpa using hn⟩)
  · exact .inr (.inr ⟨hs, hc.afterChunk h.rx.fragments ha⟩)

theorem OpenBuf.failEncap {rx : HqcRxBuf} (h : OpenBuf m rx) (ct : Block) :
    OpenBuf m (rx.failEncap ct) :=
  ⟨h.sessionId, h.salt, h.pkLen, h.mtu, h.pke,
    ⟨h.fragments.mtu_pos, h.fragments.length, h.fragments.rcvd_le, h.fragments.received⟩,
    h.sized, h.cts, h.cte.imp_right fun ⟨hl, _⟩ ↦ ⟨hl, rfl⟩, h.complete⟩

theorem encapsulatedSession_rx (P : Platform ρ) (s : HqcSession) (pke ct : Block)
    (ss : Bytes apKemBytes) : ∃ sent, (encapsulatedSession P s pke ct ss).rx =
      { s.rx with
        ssE := ss
        cte := ⟨some ct, apKemCiphertextBytes, List.replicate
          ((apKemCiphertextBytes + s.rx.mtu - 1) / s.rx.mtu) false, sent⟩ } := ⟨_, rfl⟩

theorem Open.encapsulated (h : OpenBuf m s.rx) (hk : s.rx.KeyComplete)
    (hg : s.aeadAlg = m.aeadOffer) (pke ct : Block) (ss : Bytes apKemBytes) :
    Open m (encapsulatedSession P s pke ct ss) := by
  refine ⟨?_, hg, .inl rfl⟩
  obtain ⟨sent, he⟩ := encapsulatedSession_rx P s pke ct ss
  rw [he]
  exact ⟨h.sessionId, h.salt, h.pkLen, h.mtu, h.pke,
    ⟨h.fragments.mtu_pos, h.fragments.length, h.fragments.rcvd_le, h.fragments.received⟩,
    ⟨List.length_replicate, h.sized.2⟩, h.cts, .inr ⟨rfl, rfl⟩, fun _ ↦ hk⟩

theorem Open.keyCompletion {e : Env ρ} {pke : Block} {r : HqcSession × List Effect}
    (h : OpenBuf m s.rx) (hk : s.rx.KeyComplete) (hg : s.aeadAlg = m.aeadOffer)
    (hr : KeyCompletion P e s pke r) : Open m r.1 := by
  cases hr with
  | noBuffer hb => exact ⟨h, hg, .inr (.inr ⟨rfl, hk⟩)⟩
  | failed ct hb ho => exact ⟨h.failEncap _, hg, .inr (.inr ⟨rfl, hk⟩)⟩
  | done ct fx hb ho hfx => exact .encapsulated h hk hg pke _ _

theorem activated_resting (h : Open m s) (f : Finish) (now : UInt32) :
    Resting ((s.noteRx now).activated P f) :=
  ⟨.inr (.inr rfl), rfl, rfl, rfl, .inl rfl, h.rx.sized⟩

theorem Resting.not_held (h : Resting s) (c : CtAck) : ¬ c.Held s.rx := by
  rintro ⟨-, hb, -⟩
  unfold HqcRxBuf.stream at hb
  split at hb
  · rw [h.cte] at hb
    exact nomatch hb
  · rw [h.cts] at hb
    exact nomatch hb

theorem Resting.move {r : HqcSession × List Effect} (h : Resting s) (hm : Move P s i r) :
    Transmits s r.1 ∧ r.1.state = s.state ∧ Sends s r.2 := by
  cases hm with
  | quiet s' fx ht hs hfx => exact ⟨ht, hs, hfx⟩
  | acked s' fx ht hs hd hw hfx =>
    exfalso
    rcases hw with hw | ⟨c, -, hc⟩
    · simpa [hw] using h.state
    · exact h.not_held c hc
  | wiped s₀ s' fx ht hs hr hfx => exact absurd h.state hr
  | chunk c sid base mask hi ha hk => exact absurd ha.pke (by simp [h.pke])
  | encap c sid base mask pke r hi ha hk hp hr => exact absurd ha.pke (by simp [h.pke])
  | finished f hi ha => exact absurd h.state (by simp [ha.state])

theorem Resting.step (h : Resting s) (hn : ¬ i.event.IsHello) :
    Resting (handle P s i).1 ∧ (handle P s i).1.state = s.state := by
  obtain ⟨ht, hs, -⟩ := h.move (handle_move (P := P) h.sized hn)
  exact ⟨h.transmit ht hs, hs⟩

theorem Resting.quiet (h : Resting s) (hn : ¬ i.event.IsHello) :
    ((handle P s i).1 = s ∨ (handle P s i).1 = s.noteRx (i.env.millis 0)) ∧
      ∀ o ∈ (handle P s i).2, ∃ sid value status detail,
        o = .hqcStatus sid value status detail := by
  unfold handle
  cases hi : i.event with
  | hello m => exact absurd (by rw [hi]; trivial) hn
  | pkChunk c =>
    have hc := handleHqcPkChunk_spec P i.env s c
    have hp : ¬ ChunkAccepted s.rx c := fun ha ↦ absurd ha.pke (by simp [h.pke])
    dsimp only
    generalize handleHqcPkChunk P i.env s c = r at hc ⊢
    cases hc with
    | refused value status detail he =>
      exact ⟨.inr rfl, List.forall_mem_singleton.mpr ⟨_, value, status, detail, rfl⟩⟩
    | stored sid base mask he hk => exact absurd (pkChunkError_eq_none.mp he) hp
    | complete sid base mask pke r he hk hp' hr => exact absurd (pkChunkError_eq_none.mp he) hp
  | ctAck c =>
    dsimp only
    rw [handleHqcCtAck_ignored i.env (h.not_held c)]
    exact ⟨.inr rfl, List.forall_mem_nil _⟩
  | finish f =>
    have hf := handleHqcFinish_spec P i.env s f
    dsimp only
    generalize handleHqcFinish P i.env s f = r at hf ⊢
    cases hf with
    | refused value status detail =>
      exact ⟨.inr rfl, List.forall_mem_singleton.mpr ⟨_, value, status, detail, rfl⟩⟩
    | rejected s₀ hs => exact absurd h.state (by simp [hs])
    | accepted ha => exact absurd h.state (by simp [ha.state])
  | tick =>
    have ht : tick P i.env s = (s, []) := if_pos h.state
    dsimp only
    rw [ht]
    exact ⟨.inl rfl, List.forall_mem_nil _⟩

theorem Resting.run (h : Resting s) {is : List (Input ρ)} (hn : ∀ i ∈ is, ¬ i.event.IsHello) :
    Resting ((session P).final s is) ∧ ((session P).final s is).state = s.state := by
  refine Machine.Guarded.invariant (I := fun t ↦ Resting t ∧ t.state = s.state)
    (P := fun _ i ↦ ¬ i.event.IsHello) (fun t i ⟨ht, hs⟩ hi ↦ ?_) ?_ ⟨h, rfl⟩
  · obtain ⟨ht', hs'⟩ := ht.step (P := P) hi
    exact ⟨ht', hs'.trans hs⟩
  · exact Machine.guarded_of_forall fun i hi _ ↦ hn i hi

theorem Open.move {r : HqcSession × List Effect} (h : Open m s) (hm : Move P s i r) :
    Phase m r.1 := by
  cases hm with
  | quiet s' fx ht hs hfx => exact .inr (h.transmit ht hs)
  | acked s' fx ht hs hd hw hfx => exact .inr (h.acked ht hs hd)
  | wiped s₀ s' fx ht hs hr hfx => exact .inl ((wipe_resting s₀).transmit ht hs)
  | chunk c sid base mask hi ha hk => exact .inr (h.afterChunk ha _)
  | encap c sid base mask pke r hi ha hk hp hr =>
    have ho := h.afterChunk ha (i.env.millis 0)
    have hn : Open m r.1 := Open.keyCompletion ho.rx hk ho.alg hr
    exact .inr hn
  | finished f hi ha => exact .inl (activated_resting h f _)

theorem Phase.step (h : Phase m s) (hn : ¬ i.event.IsHello) : Phase m (handle P s i).1 := by
  rcases h with h | h
  · exact .inl (h.step hn).1
  · exact h.move (handle_move h.rx.sized hn)

theorem Phase.run (h : Phase m s) {is : List (Input ρ)} (hn : ∀ i ∈ is, ¬ i.event.IsHello) :
    Phase m ((session P).final s is) := by
  refine Machine.Guarded.invariant (P := fun _ i ↦ ¬ i.event.IsHello)
    (fun s i hp hi ↦ hp.step hi) ?_ h
  exact Machine.guarded_of_forall fun i hi _ ↦ hn i hi

theorem Settled.step (h : Settled s) (i : Input ρ) : Settled (handle P s i).1 := by
  by_cases hi : i.event.IsHello
  · obtain ⟨m, he⟩ := hi.exists
    simp only [handle, he]
    exact (hello_phase P i.env s m).imp (·.1) fun h ↦ ⟨m, h.1⟩
  · rcases h with h | ⟨m, h⟩
    · exact .inl (h.step hi).1
    · exact (Phase.step (.inr h) hi).settled

theorem fresh_settled (kChachaTx kChachaRx : Bytes 32) : Settled (.fresh kChachaTx kChachaRx) :=
  .inl (fresh_resting _ _)

/-- Every state of every run is resting or in a handshake that a `HELLO` of the
run has opened. -/
theorem Settled.run (h : Settled s) (is : List (Input ρ)) : Settled ((session P).final s is) :=
  Machine.invariant (M := session P) (I := Settled) (fun _ i h ↦ h.step i) h is

end KemtlsMavlink
