import KemtlsMavlink.Session.Phase
import KemtlsMavlink.Session.Sample

namespace KemtlsMavlink

open Library

variable {ρ : Type} {P : Platform ρ} {s s' : HqcSession} {i : Input ρ}

def CtChunk.SliceOf (c : CtChunk) (ct : List UInt8) : Prop :=
  c.data.take c.count = (ct.drop c.offset).take c.count

def Effect.Carries (ct : List UInt8) : Effect → Prop
  | .ctChunk c => c.ctKind = 0 → c.SliceOf ct
  | _ => True

theorem ctChunkAt_sliceOf (b : Block) (sid : UInt64) (kind : UInt8) (mtu len off : Nat) :
    (ctChunkAt b sid kind mtu len off).SliceOf (b.read 0 len) := by
  have hn : min mtu (len - off) ≤ len - off := Nat.min_le_right _ _
  unfold CtChunk.SliceOf ctChunkAt
  generalize min mtu (len - off) = n at hn
  dsimp only
  rw [List.take_left' (Block.length_read n)]
  apply List.ext_getElem (by simp; omega)
  intro j h₁ h₂
  rw [List.getElem_take, List.getElem_drop, Block.getElem_read, Block.getElem_read, Nat.zero_add]

theorem Sends.carries {fx : List Effect} {ct : List UInt8} (h : Sends s fx)
    (hct : s.rx.cte.len = 0 ∨ ∀ b, s.rx.cte.buf = some b → b.read 0 s.rx.cte.len = ct) :
    ∀ o ∈ fx, o.Carries ct := by
  refine h.forall_effect (fun o hn ↦ ?_) fun kind b off hb hk ↦ ?_
  · cases o with
    | ctChunk c => exact hn.elim
    | _ => trivial
  · have hk : kind = 0 := hk
    subst hk
    rcases hct with hl | hct
    · have hz : min s.rx.mtu ((s.rx.stream 0).len - off) = 0 := by
        change min _ (s.rx.cte.len - off) = 0
        omega
      simp [CtChunk.SliceOf, ctChunkAt, hz]
    · rw [← hct b hb]
      exact ctChunkAt_sliceOf b _ 0 _ _ off

theorem stored_carries (sid : UInt64) (base : Nat) (mask : UInt32) (rx : HqcRxBuf) (c : PkChunk)
    (ct : List UInt8) : ∀ o ∈ (rx.storeFragment c).2 ++ [.pkAck sid base mask], o.Carries ct :=
  HqcRxBuf.forall_stored_effect (fun _ _ ↦ trivial) trivial rx c

/-- `start_encap` has succeeded, and the session has been neither reset nor
activated since. -/
def Encapsulated (s : HqcSession) : Prop := s.rx.cte.len ≠ 0 ∧ s.state ≠ .active

instance (s : HqcSession) : Decidable (Encapsulated s) := inferInstanceAs (Decidable (_ ∧ _))

def helloRecords (P : Platform ρ) (m : Hello) (ack : HelloAck) (cts : Block) : List Record :=
  [.hello m,
    .ctSummary m.sessionId 1 (UInt32.ofNat apKemCiphertextBytes)
      (P.sha256 (cts.read 0 apKemCiphertextBytes)),
    .helloAck ack]

def encapRecords (P : Platform ρ) (m : Hello) (pke cte : Block) : List Record :=
  [.pkSummary m.sessionId m.pkLen (P.sha256 (pke.read 0 m.pkLen.toNat)),
    .ctSummary m.sessionId 0 (UInt32.ofNat apKemCiphertextBytes)
      (P.sha256 (cte.read 0 apKemCiphertextBytes))]

/-- The transcript hash is that of the five records of the handshake, in order,
with the `HELLO_ACK` that was sent and with the keys and ciphertexts held. -/
def CleanTranscript (P : Platform ρ) (m : Hello) (sent : List Effect) (s : HqcSession) : Prop :=
  ∃ ack pke cts cte, .helloAck ack ∈ sent ∧ s.rx.pke = some pke ∧ s.rx.cts.buf = some cts ∧
    s.rx.cte.buf = some cte ∧
    s.th = transcriptHash P (helloRecords P m ack cts ++ encapRecords P m pke cte)

/-- A session that is started by the `HELLO` `m`, and then gets `is`, encapsulates
once and keeps a clean transcript. -/
structure SingleEncapsulation (P : Platform ρ) (e : Env ρ) (s : HqcSession) (m : Hello)
    (is : List (Input ρ)) : Prop where
  constant : ∀ as bs cs, is = as ++ bs ++ cs →
    ∀ s₁, s₁ = (session P).final (handleHqcHello P e s m).1 as →
    ∀ s₂, s₂ = (session P).final s₁ bs → Encapsulated s₁ → Encapsulated s₂ →
      s₂.rx.cte.buf = s₁.rx.cte.buf ∧ s₂.rx.ssE = s₁.rx.ssE
  slices : ∃ ct, ∀ o ∈ (handleHqcHello P e s m).2 ++
    (session P).outputs (handleHqcHello P e s m).1 is, o.Carries ct
  transcript : ∀ as bs, is = as ++ bs →
    ((session P).final (handleHqcHello P e s m).1 as).state = .waitCf →
      CleanTranscript P m (handleHqcHello P e s m).2
        ((session P).final (handleHqcHello P e s m).1 as)

def KeyOnce (s : HqcSession) (i : Input ρ) : Prop :=
  match i.event with
  | .pkChunk c => pkChunkError s.rx c = none → ¬ s.rx.pkLen ≤ s.rx.pkeRcvd
  | _ => True

theorem KeyOnce.not_complete {c : PkChunk} (h : KeyOnce s i) (hi : i.event = .pkChunk c)
    (ha : ChunkAccepted s.rx c) : ¬ s.rx.KeyComplete := by
  unfold KeyOnce at h
  rw [hi] at h
  exact h (pkChunkError_eq_none.mpr ha)

variable {m : Hello} {ack : HelloAck} {cts ct : Block} {ss : Bytes apKemBytes}

/-- The positive `HELLO_ACK` of a session and its static ciphertext. -/
structure Answered (m : Hello) (ack : HelloAck) (cts : Block) (s : HqcSession) : Prop where
  opened : Open m s
  answer : ackOf s s.rx.rs = ack
  static : s.rx.cts.buf = some cts

structure Unsealed (P : Platform ρ) (m : Hello) (ack : HelloAck) (cts : Block) (s : HqcSession) :
    Prop extends Answered m ack cts s where
  len : s.rx.cte.len = 0
  th : ¬ s.rx.KeyComplete → s.th = transcriptHash P (helloRecords P m ack cts)

/-- `ct` and `ss` have come from the encapsulation to the complete key. -/
structure Sealed (P : Platform ρ) (m : Hello) (ack : HelloAck) (cts ct : Block)
    (ss : Bytes apKemBytes) (s : HqcSession) : Prop extends Answered m ack cts s where
  complete : s.rx.KeyComplete
  buf : s.rx.cte.buf = some ct
  len : s.rx.cte.len = apKemCiphertextBytes
  ssE : s.rx.ssE = ss
  th : ∃ pke, s.rx.pke = some pke ∧
    s.th = transcriptHash P (helloRecords P m ack cts ++ encapRecords P m pke ct)

theorem Resting.not_encapsulated (h : Resting s) : ¬ Encapsulated s :=
  fun ⟨hl, ha⟩ ↦ h.len.elim ha hl

theorem Resting.carries {r : HqcSession × List Effect} (h : Resting s) (hm : Move P s i r)
    (ct : List UInt8) : Resting r.1 ∧ ∀ o ∈ r.2, o.Carries ct := by
  obtain ⟨ht, hs, hfx⟩ := h.move hm
  exact ⟨h.transmit ht hs, hfx.carries (.inr fun b hb ↦ nomatch h.cte.symm.trans hb)⟩

theorem ackOf_transmit (h : Transmits s s') : ackOf s' s'.rx.rs = ackOf s s.rx.rs := by
  have ha := h.alg_eq
  obtain ⟨r, a, b, c, d, he⟩ := h.rx_eq
  unfold ackOf
  rw [he, ha]

theorem Answered.transmit (h : Answered m ack cts s) (ht : Transmits s s') (ho : Open m s') :
    Answered m ack cts s' := by
  refine ⟨ho, (ackOf_transmit ht).trans h.answer, ?_⟩
  obtain ⟨r, a, b, c, d, he⟩ := ht.rx_eq
  rw [he]
  exact h.static

theorem Unsealed.transmit (h : Unsealed P m ack cts s) (ht : Transmits s s') (ho : Open m s') :
    Unsealed P m ack cts s' := by
  refine ⟨h.toAnswered.transmit ht ho, ?_, fun hk ↦ ht.th_eq.trans (h.th ?_)⟩
  · exact (HqcSession.cte_len_of_core ht.core).trans h.len
  · obtain ⟨r, a, b, c, d, he⟩ := ht.rx_eq
    rw [he] at hk
    exact hk

theorem Sealed.transmit (h : Sealed P m ack cts ct ss s) (ht : Transmits s s') (ho : Open m s') :
    Sealed P m ack cts ct ss s' := by
  have ha := h.toAnswered.transmit ht ho
  obtain ⟨r, a, b, c, d, he⟩ := ht.rx_eq
  refine ⟨ha, ?_, ?_, ?_, ?_, ?_⟩
  · rw [he]; exact h.complete
  · rw [he]; exact h.buf
  · rw [he]; exact h.len
  · rw [he]; exact h.ssE
  · rw [he, ht.th_eq]; exact h.th

theorem Answered.of_rx (h : Answered m ack cts s) (ho : Open m s') (ha : s'.aeadAlg = s.aeadAlg)
    (hid : s'.rx.sessionId = s.rx.sessionId) (hm : s'.rx.mtu = s.rx.mtu)
    (hw : s'.rx.window = s.rx.window) (hrs : s'.rx.rs = s.rx.rs) (hc : s'.rx.cts = s.rx.cts) :
    Answered m ack cts s' := by
  refine ⟨ho, ?_, by rw [hc]; exact h.static⟩
  rw [← h.answer, ackOf, ackOf, ha, hid, hm, hw, hrs]

theorem Unsealed.afterChunk (h : Unsealed P m ack cts s) {c : PkChunk}
    (ha : ChunkAccepted s.rx c) (now : UInt32) :
    Unsealed P m ack cts ((s.noteRx now).setRx (s.rx.afterChunk c)) := by
  refine ⟨h.toAnswered.of_rx (h.opened.afterChunk ha now) rfl ?_ ?_ ?_ ?_ ?_, ?_, fun hk ↦ ?_⟩
  · exact HqcRxBuf.afterChunk_sessionId _ _
  · exact HqcRxBuf.afterChunk_mtu _ _
  · exact HqcRxBuf.afterChunk_window _ _
  · exact HqcRxBuf.afterChunk_rs _ _
  · exact HqcRxBuf.afterChunk_cts _ _
  · exact (congrArg CtStream.len (HqcRxBuf.afterChunk_cte _ _)).trans h.len
  · exact h.th fun hc ↦ hk (hc.afterChunk h.opened.rx.fragments ha)

theorem Unsealed.failed (h : Unsealed P m ack cts s) (hk : s.rx.KeyComplete) (th : Bytes 32)
    (cte : CtStream) (hl : cte.len = 0) (ho : OpenBuf m { s.rx with cte := cte }) :
    Unsealed P m ack cts (((s.setTh th).setRx { s.rx with cte := cte }).setState .fail) :=
  ⟨h.toAnswered.of_rx ⟨ho, h.opened.alg, .inr (.inr ⟨rfl, hk⟩)⟩ rfl rfl rfl rfl rfl rfl, hl,
    fun hn ↦ absurd hk hn⟩

theorem encapsulatedSession_th {pke : Block} (h : OpenBuf m s.rx)
    (hth : s.th = transcriptHash P (helloRecords P m ack cts)) :
    (encapsulatedSession P s pke ct ss).th =
      transcriptHash P (helloRecords P m ack cts ++ encapRecords P m pke ct) := by
  have hlen : UInt32.ofNat s.rx.pkLen = m.pkLen := by rw [h.pkLen, UInt32.ofNat_toNat]
  have hct : apKemCiphertextBytes ≠ 0 := by decide
  rw [transcriptHash, List.foldl_append, ← transcriptHash, ← hth]
  change cteSummaryTh P ((s.setTh (pkSummaryTh P s pke)).setRx (s.rx.doneEncap ct ss)) ct = _
  simp only [cteSummaryTh, pkSummaryTh, HqcRxBuf.doneEncap, HqcSession.setRx_rx,
    HqcSession.setRx_th, HqcSession.setTh_th, encapRecords, List.foldl_cons, List.foldl_nil,
    Record.absorb, h.sessionId, hlen, ← h.pkLen, hct, ne_eq, not_false_eq_true, if_true]

theorem Unsealed.encapsulate (h : Unsealed P m ack cts s) {pke : Block}
    (hp : s.rx.pke = some pke) (hk : s.rx.KeyComplete)
    (hth : s.th = transcriptHash P (helloRecords P m ack cts)) (ct : Block)
    (ss : Bytes apKemBytes) :
    Sealed P m ack cts ct ss (encapsulatedSession P s pke ct ss) := by
  have ho : Open m (encapsulatedSession P s pke ct ss) :=
    .encapsulated h.opened.rx hk h.opened.alg pke ct ss
  exact ⟨h.toAnswered.of_rx ho rfl rfl rfl rfl rfl rfl, hk, rfl, rfl, rfl, pke, hp,
    encapsulatedSession_th h.opened.rx hth⟩

theorem Unsealed.keyCompletion {e : Env ρ} {pke : Block} {r : HqcSession × List Effect}
    (h : Unsealed P m ack cts s) (hk : s.rx.KeyComplete) (hp : s.rx.pke = some pke)
    (hth : s.th = transcriptHash P (helloRecords P m ack cts)) (hr : KeyCompletion P e s pke r) :
    Unsealed P m ack cts r.1 ∧ (∀ ct, ∀ o ∈ r.2, o.Carries ct) ∨
      ∃ ct ss, Sealed P m ack cts ct ss r.1 ∧
        ∀ o ∈ r.2, o.Carries (ct.read 0 apKemCiphertextBytes) := by
  cases hr with
  | noBuffer hb =>
    have hu := h.failed hk (pkSummaryTh P s pke) s.rx.cte h.len h.opened.rx
    exact .inl ⟨hu, fun ct ↦ List.forall_mem_singleton.mpr trivial⟩
  | failed ct hb ho =>
    let ct' := ct.write 0 (encapOut P e pke ct).ct.toList
    have hu := h.failed hk (pkSummaryTh P s pke) { s.rx.cte with buf := some ct' } h.len
      (h.opened.rx.failEncap ct')
    exact .inl ⟨hu, fun ct ↦ List.forall_mem_cons.mpr
      ⟨trivial, List.forall_mem_singleton.mpr trivial⟩⟩
  | done ct fx hb ho hfx =>
    refine .inr ⟨_, _, h.encapsulate hp hk hth _ _, List.forall_mem_cons.mpr ⟨trivial, ?_⟩⟩
    intro o ho
    obtain ⟨off, rfl⟩ := hfx o ho
    exact fun _ ↦ ctChunkAt_sliceOf _ _ _ _ _ _

theorem Unsealed.move {r : HqcSession × List Effect} (h : Unsealed P m ack cts s)
    (hm : Move P s i r) (hg : KeyOnce s i) :
    ((Resting r.1 ∨ Unsealed P m ack cts r.1) ∧ ∀ ct, ∀ o ∈ r.2, o.Carries ct) ∨
      ∃ ct ss, Sealed P m ack cts ct ss r.1 ∧
        ∀ o ∈ r.2, o.Carries (ct.read 0 apKemCiphertextBytes) := by
  cases hm with
  | quiet s' fx ht hs hfx =>
    have hu := h.transmit ht (h.opened.transmit ht hs)
    exact .inl ⟨.inr hu, fun ct ↦ hfx.carries (.inl h.len)⟩
  | acked s' fx ht hs hd hw hfx =>
    have hu := h.transmit ht (h.opened.acked ht hs hd)
    exact .inl ⟨.inr hu, fun ct ↦ hfx.carries (.inl h.len)⟩
  | wiped s₀ s' fx ht hs hr hfx =>
    have hw := (wipe_resting s₀).transmit ht hs
    exact .inl ⟨.inl hw, fun ct ↦ hfx.carries (.inl h.len)⟩
  | chunk c sid base mask hi ha hk =>
    exact .inl ⟨.inr (h.afterChunk ha _), stored_carries sid base mask s.rx c⟩
  | encap c sid base mask pke r hi ha hk hp hr =>
    have hth := h.th (hg.not_complete hi ha)
    have hu := h.afterChunk ha (i.env.millis 0)
    have hst := stored_carries sid base mask s.rx c
    rcases hu.keyCompletion hk hp hth hr with ⟨hu, hc⟩ | ⟨ct, ss, hs, hc⟩
    · exact .inl ⟨.inr hu, fun ct ↦ List.forall_mem_append.mpr ⟨hst ct, hc ct⟩⟩
    · exact .inr ⟨ct, ss, hs, List.forall_mem_append.mpr ⟨hst _, hc⟩⟩
  | finished f hi ha =>
    left
    refine ⟨.inl (activated_resting h.opened f _), fun ct ↦ ?_⟩
    exact List.forall_mem_cons.mpr ⟨trivial, List.forall_mem_singleton.mpr trivial⟩

theorem Sealed.carries {fx : List Effect} (h : Sealed P m ack cts ct ss s) (hfx : Sends s fx) :
    ∀ o ∈ fx, o.Carries (ct.read 0 apKemCiphertextBytes) := by
  apply hfx.carries
  right
  intro b hb
  rw [Option.some.inj (hb.symm.trans h.buf), h.len]

/-- Once sealed, a session keeps its ciphertext and its secret until it rests. -/
theorem Sealed.move {r : HqcSession × List Effect} (h : Sealed P m ack cts ct ss s)
    (hm : Move P s i r) (hg : KeyOnce s i) :
    (Resting r.1 ∨ Sealed P m ack cts ct ss r.1) ∧
      ∀ o ∈ r.2, o.Carries (ct.read 0 apKemCiphertextBytes) := by
  cases hm with
  | quiet s' fx ht hs hfx =>
    exact ⟨.inr (h.transmit ht (h.opened.transmit ht hs)), h.carries hfx⟩
  | acked s' fx ht hs hd hw hfx =>
    exact ⟨.inr (h.transmit ht (h.opened.acked ht hs hd)), h.carries hfx⟩
  | wiped s₀ s' fx ht hs hr hfx =>
    exact ⟨.inl ((wipe_resting s₀).transmit ht hs), h.carries hfx⟩
  | chunk c sid base mask hi ha hk => exact absurd h.complete (hg.not_complete hi ha)
  | encap c sid base mask pke r hi ha hk hp hr =>
    exact absurd h.complete (hg.not_complete hi ha)
  | finished f hi ha =>
    refine ⟨.inl (activated_resting h.opened f _), ?_⟩
    exact List.forall_mem_cons.mpr ⟨trivial, List.forall_mem_singleton.mpr trivial⟩

def OnceStep (s : HqcSession) (i : Input ρ) : Prop := ¬ i.event.IsHello ∧ KeyOnce s i

theorem Sealed.step (h : Resting s ∨ Sealed P m ack cts ct ss s) (hi : OnceStep s i) :
    (Resting (handle P s i).1 ∨ Sealed P m ack cts ct ss (handle P s i).1) ∧
      ∀ o ∈ (handle P s i).2, o.Carries (ct.read 0 apKemCiphertextBytes) := by
  rcases h with h | h
  · obtain ⟨hr, hfx⟩ := h.carries (handle_move h.sized hi.1) (ct.read 0 apKemCiphertextBytes)
    exact ⟨.inl hr, hfx⟩
  · exact h.move (handle_move h.opened.rx.sized hi.1) hi.2

theorem Sealed.run (h : Resting s ∨ Sealed P m ack cts ct ss s) {is : List (Input ρ)}
    (hg : (session P).Guarded OnceStep s is) :
    Resting ((session P).final s is) ∨ Sealed P m ack cts ct ss ((session P).final s is) :=
  hg.invariant (I := fun s ↦ Resting s ∨ Sealed P m ack cts ct ss s)
    (fun _ _ h hi ↦ (Sealed.step h hi).1) h

theorem Sealed.outputs (h : Resting s ∨ Sealed P m ack cts ct ss s) {is : List (Input ρ)}
    (hg : (session P).Guarded OnceStep s is) :
    ∀ o ∈ (session P).outputs s is, o.Carries (ct.read 0 apKemCiphertextBytes) :=
  hg.outputs (fun _ _ h hi ↦ Sealed.step h hi) h

def Tracked (P : Platform ρ) (m : Hello) (ack : HelloAck) (cts : Block) (s : HqcSession) : Prop :=
  (Resting s ∨ Unsealed P m ack cts s) ∨ ∃ ct ss, Sealed P m ack cts ct ss s

theorem Tracked.step (h : Tracked P m ack cts s) (hi : OnceStep s i) :
    Tracked P m ack cts (handle P s i).1 := by
  rcases h with (h | h) | ⟨ct, ss, h⟩
  · exact .inl (.inl (h.carries (handle_move h.sized hi.1) []).1)
  · rcases h.move (handle_move h.opened.rx.sized hi.1) hi.2 with ⟨h', -⟩ | ⟨ct, ss, h', -⟩
    · exact .inl h'
    · exact .inr ⟨ct, ss, h'⟩
  · exact (Sealed.step (.inr h) hi).1.elim (fun h ↦ .inl (.inl h)) fun h ↦ .inr ⟨ct, ss, h⟩

theorem Tracked.run (h : Tracked P m ack cts s) {is : List (Input ρ)}
    (hg : (session P).Guarded OnceStep s is) : Tracked P m ack cts ((session P).final s is) :=
  hg.invariant (fun _ _ h hi ↦ h.step hi) h

theorem Unsealed.outputs (h : Resting s ∨ Unsealed P m ack cts s) {is : List (Input ρ)}
    (hg : (session P).Guarded OnceStep s is) :
    ∃ ct, ∀ o ∈ (session P).outputs s is, o.Carries ct := by
  induction is generalizing s with
  | nil => exact ⟨[], List.forall_mem_nil _⟩
  | cons i is ih =>
    obtain ⟨hi, hg⟩ := hg
    rcases h with h | h
    · have hm := handle_move (P := P) h.sized hi.1
      obtain ⟨ct, hct⟩ := ih (.inl (h.carries hm []).1) hg
      exact ⟨ct, List.forall_mem_append.mpr ⟨(h.carries hm ct).2, hct⟩⟩
    · have hm := handle_move (P := P) h.opened.rx.sized hi.1
      rcases h.move hm hi.2 with ⟨h', hfx⟩ | ⟨ct, ss, h', hfx⟩
      · obtain ⟨ct, hct⟩ := ih h' hg
        exact ⟨ct, List.forall_mem_append.mpr ⟨hfx ct, hct⟩⟩
      · exact ⟨_, List.forall_mem_append.mpr ⟨hfx, Sealed.outputs (.inr h') hg⟩⟩

theorem Tracked.sealed (h : Tracked P m ack cts s) (he : Encapsulated s) :
    ∃ ct ss, Sealed P m ack cts ct ss s := by
  rcases h with (h | h) | h
  · exact absurd he h.not_encapsulated
  · exact absurd h.len he.1
  · exact h

theorem Tracked.clean (h : Tracked P m ack cts s) (hs : s.state = .waitCf) {sent : List Effect}
    (ha : .helloAck ack ∈ sent) : CleanTranscript P m sent s := by
  have he : Encapsulated s := by
    rcases h with (h | h) | ⟨ct, ss, h⟩
    · exact absurd h.state (by simp [hs])
    · rcases h.opened.state with h' | ⟨-, h'⟩ | ⟨h', -⟩
      · exact nomatch hs.symm.trans h'
      · exact ⟨h', by simp [hs]⟩
      · exact nomatch hs.symm.trans h'
    · exact ⟨by rw [h.len]; decide, by simp [hs]⟩
  obtain ⟨ct, ss, h⟩ := h.sealed he
  obtain ⟨pke, hp, hth⟩ := h.th
  exact ⟨ack, pke, cts, ct, ha, hp, h.static, h.buf, hth⟩

theorem HelloEffect.carries {e : Env ρ} {o : Effect} (h : HelloEffect P e s m o) (ct : List UInt8) :
    o.Carries ct := by
  rcases h with h | ⟨k, fx, ok, -, -, rfl⟩
  · cases o with
    | ctChunk c => exact h.elim
    | _ => trivial
  · trivial

/-- The start: an accepted `HELLO` has sent its `HELLO_ACK`, and of the
ciphertexts only the static one. -/
theorem hello_unsealed {e : Env ρ} (ha : (handleHqcHello P e s m).1.state = .ctTx) :
    (∀ ct, ∀ o ∈ (handleHqcHello P e s m).2, o.Carries ct) ∧
      ∃ ack cts, .helloAck ack ∈ (handleHqcHello P e s m).2 ∧
        Unsealed P m ack cts (handleHqcHello P e s m).1 := by
  have h := handleHqcHello_spec P e s m
  refine ⟨fun ct ↦ h.forall_effect (fun o ho ↦ ho.carries ct) ?_, ?_⟩
  · intro c hc hk
    exact absurd (hc.symm.trans hk) (by decide)
  · generalize handleHqcHello P e s m = r at h ha ⊢
    cases h with
    | refused th alg fx hfx => exact nomatch ha
    | accepted pke cts k ss fx fx' hf hs hw hk hfx =>
      have ho := accepted_open hf hs k cts ss
      refine ⟨_, cts, List.mem_append_right _ List.mem_cons_self, ?_⟩
      exact ⟨⟨ho, rfl, rfl⟩, rfl, fun _ ↦ rfl⟩

/-- One ciphertext and one transcript for a session in which the key is
completed once. -/
theorem single_encapsulation (P : Platform ρ) (e : Env ρ) (s : HqcSession) (m : Hello)
    (is : List (Input ρ)) (ha : (handleHqcHello P e s m).1.state = .ctTx)
    (hn : ∀ i ∈ is, ¬ i.event.IsHello)
    (hg : (session P).Guarded KeyOnce (handleHqcHello P e s m).1 is) :
    SingleEncapsulation P e s m is := by
  have hg : (session P).Guarded OnceStep (handleHqcHello P e s m).1 is :=
    (Machine.guarded_of_forall fun i hi _ ↦ hn i hi).and hg
  obtain ⟨hfx, ack, cts, hack, hu⟩ := hello_unsealed ha
  have htr : Tracked P m ack cts (handleHqcHello P e s m).1 := .inl (.inr hu)
  refine ⟨?_, ?_, ?_⟩
  · rintro as bs cs rfl s₁ rfl s₂ rfl h₁ h₂
    obtain ⟨hg, -⟩ := Machine.guarded_append.mp hg
    obtain ⟨hga, hgb⟩ := Machine.guarded_append.mp hg
    obtain ⟨ct, ss, h⟩ := (htr.run hga).sealed h₁
    have h' := (Sealed.run (.inr h) hgb).resolve_left fun h' ↦ h'.not_encapsulated h₂
    exact ⟨h'.buf.trans h.buf.symm, h'.ssE.trans h.ssE.symm⟩
  · obtain ⟨ct, hct⟩ := Unsealed.outputs (.inr hu) hg
    exact ⟨ct, List.forall_mem_append.mpr ⟨hfx ct, hct⟩⟩
  · rintro as bs rfl hw
    obtain ⟨hga, -⟩ := Machine.guarded_append.mp hg
    exact (htr.run hga).clean hw hack

theorem single_encapsulation_once :
    SingleEncapsulation samplePlatform (sampleEnv 0 1)
      (.fresh (Bytes.zeros 32) (Bytes.zeros 32)) (sampleHello 1)
      [⟨.pkChunk (sampleChunk 0 1), sampleEnv 1 2⟩, ⟨.ctAck (sampleAck 0), sampleEnv 2 0⟩] :=
  single_encapsulation _ _ _ _ _ (by decide +kernel) (by decide)
    ⟨by unfold KeyOnce; decide +kernel, trivial, trivial⟩

/-- A second copy of the last chunk replaces the ciphertext and the secret. -/
theorem duplicate_chunk_encapsulates_again :
    (handleHqcHello samplePlatform (sampleEnv 0 1) (.fresh (Bytes.zeros 32) (Bytes.zeros 32))
        (sampleHello 1)).1.state = .ctTx ∧
      ¬ SingleEncapsulation samplePlatform (sampleEnv 0 1)
        (.fresh (Bytes.zeros 32) (Bytes.zeros 32)) (sampleHello 1)
        [⟨.pkChunk (sampleChunk 0 1), sampleEnv 1 2⟩,
          ⟨.pkChunk (sampleChunk 0 1), sampleEnv 2 3⟩] := by
  refine ⟨by decide +kernel, fun h ↦ ?_⟩
  obtain ⟨-, hs⟩ := h.constant [⟨.pkChunk (sampleChunk 0 1), sampleEnv 1 2⟩]
    [⟨.pkChunk (sampleChunk 0 1), sampleEnv 2 3⟩] [] rfl _ rfl _ rfl
    (by decide +kernel) (by decide +kernel)
  exact absurd hs (by decide +kernel)

end KemtlsMavlink
