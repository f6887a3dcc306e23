import KemtlsMavlink.Session.State

namespace KemtlsMavlink

open Library

variable {ρ : Type} (P : Platform ρ)

/-- What `start_encap` passes to `ap_kem_enc` and gets back, once `rx.pke` and
the ciphertext buffer `ct` are there. -/
def encapOut (e : Env ρ) (pke ct : Block) : KemOut :=
  P.apKemEnc (pke.read 0 apKemPublicKeyBytes) (ct.read 0 apKemCiphertextBytes) e.rand

namespace HqcRxBuf

def encapBuf (rx : HqcRxBuf) (e : Env ρ) : Option Block :=
  rx.cte.buf <|> e.mallocCte.map (Block.malloc apKemCiphertextBytes)

def failEncap (rx : HqcRxBuf) (ct : Block) : HqcRxBuf :=
  { rx with cte := { rx.cte with buf := some ct } }

def doneEncap (rx : HqcRxBuf) (ct : Block) (ss : Bytes apKemBytes) : HqcRxBuf :=
  let len := apKemCiphertextBytes
  { rx with
    cte := ⟨some ct, len, List.replicate ((len + rx.mtu - 1) / rx.mtu) false, rx.cte.sent⟩
    ssE := ss }

end HqcRxBuf

def startEncap (e : Env ρ) (s : HqcSession) : HqcSession × List Effect :=
  match s.rx.pke with
  | none => (s.setState .fail, [])
  | some pke =>
    match s.rx.encapBuf e with
    | none => (s.setState .fail, [])
    | some ct =>
      let out := encapOut P e pke ct
      let ct := ct.write 0 out.ct.toList
      if !out.ok then ((s.setRx (s.rx.failEncap ct)).setState .fail, [.apKemEnc 0 pke false])
      else ((s.setRx (s.rx.doneEncap ct out.ss)).setState .encapDone, [.apKemEnc 0 pke true])

def HqcRxBuf.fragIdx (rx : HqcRxBuf) (m : PkChunk) : Nat := m.offset.toNat / rx.mtu

/-- The checks of `handle_hqc_pk_chunk`, in order, with the value and the detail
of the `HQC_STATUS` each of them sends. -/
def pkChunkError (rx : HqcRxBuf) (m : PkChunk) : Option (Nat × KexStatus × UInt8) :=
  let offset := m.offset.toNat
  let count := m.count.toNat
  let isLast := offset + count = rx.pkLen
  if m.sessionId ≠ rx.sessionId then some (0, .badSeq, 1)
  else if rx.pkLen = 0 ∨ rx.pke.isNone then some (0, .internal, 10)
  else if count = 0 ∨ count > rx.mtu then some (count, .badLen, 2)
  else if offset > rx.pkLen ∨ offset + count > rx.pkLen then some (offset, .badLen, 3)
  else if offset % rx.mtu ≠ 0 ∧ ¬ isLast then some (offset, .badSeq, 4)
  else if rx.fragIdx m ≥ rx.pkChunks then some (rx.fragIdx m, .badSeq, 5)
  else none

namespace HqcRxBuf

/-- The received-fragment vector, assigned on the first accepted chunk. -/
def pkeAcks (rx : HqcRxBuf) : List Bool :=
  if rx.pkeAcked.isEmpty then List.replicate rx.pkChunks false else rx.pkeAcked

def storeFragment (rx : HqcRxBuf) (m : PkChunk) : HqcRxBuf × List Effect :=
  let acked := rx.pkeAcks
  if !acked.getD (rx.fragIdx m) false then
    let data := m.data.toList.take m.count.toNat
    ({ rx with
        pke := rx.pke.map fun b ↦ b.write m.offset.toNat data
        pkeAcked := acked.set (rx.fragIdx m) true }, [.pkeCopy m.offset.toNat data])
  else ({ rx with pkeAcked := acked }, [])

/-- `while (base < total && acked[base]) base++`, with the number of rounds
that are left before `base` reaches `total`. -/
def scanAcked (acked : List Bool) : Nat → Nat → Nat
  | 0, base => base
  | left + 1, base => if acked.getD base false then scanAcked acked left (base + 1) else base

def baseFrag (rx : HqcRxBuf) : Nat :=
  scanAcked rx.pkeAcked (rx.pkChunks - rx.pkeRcvd / rx.mtu) (rx.pkeRcvd / rx.mtu)

def advanceBase (rx : HqcRxBuf) : HqcRxBuf :=
  { rx with pkeRcvd := min (rx.baseFrag * rx.mtu) rx.pkLen }

def sackMask (rx : HqcRxBuf) (base : Nat) : UInt32 :=
  (List.range 32).foldl (fun mask i ↦
    if base + i < rx.pkChunks ∧ rx.pkeAcked.getD (base + i) false then
      mask ||| (1 <<< UInt32.ofNat i)
    else mask) 0

def afterChunk (rx : HqcRxBuf) (m : PkChunk) : HqcRxBuf := (rx.storeFragment m).1.advanceBase

def KeyComplete (rx : HqcRxBuf) : Prop := rx.pkLen ≤ rx.pkeRcvd

instance (rx : HqcRxBuf) : Decidable rx.KeyComplete := inferInstanceAs (Decidable (_ ≤ _))

end HqcRxBuf

def pkSummaryTh (s : HqcSession) (pke : Block) : Bytes 32 :=
  thAddPkSummary P s.th s.rx.sessionId (UInt32.ofNat s.rx.pkLen)
    (P.sha256 (pke.read 0 s.rx.pkLen))

def cteSummaryTh (s : HqcSession) (ct : Block) : Bytes 32 :=
  let len := s.rx.cte.len
  if len ≠ 0 then
    thAddCtSummary P s.th s.rx.sessionId 0 (UInt32.ofNat len) (P.sha256 (ct.read 0 len))
  else s.th

/-- The end of `handle_hqc_pk_chunk`, after a successful `start_encap`: the
digest, and the first window of `ct_e`. -/
def openEphemeral (s : HqcSession) (ct : Block) : HqcSession × List Effect :=
  let w := sendWindow ct s.rx.sessionId 0 s.rx.mtu s.rx.cte.len s.rx.window 0
  (((s.setTh (cteSummaryTh P s ct)).setRx (s.rx.setStream 0 { s.rx.cte with sent := w.2 })).setState
    .ctTx, w.1)

def encapFailedText : Effect := .sendText .error "HQC: encap(ephemeral) failed" []

/-- The branch of `handle_hqc_pk_chunk` for `pke_rcvd >= pk_len`. The checks
before it have made sure of `rx.pke`. -/
def completeKey (e : Env ρ) (s : HqcSession) : HqcSession × List Effect :=
  match s.rx.pke with
  | none => (s, [])
  | some pke =>
    let r := startEncap P e ((s.setTh (pkSummaryTh P s pke)).setState .encapReady)
    if r.1.state ≠ .encapDone then (r.1, r.2 ++ [encapFailedText])
    else
      match r.1.rx.cte.buf with
      | none => (r.1.setState .ctTx, r.2)
      | some ct =>
        let t := openEphemeral P r.1 ct
        (t.1, r.2 ++ t.2)

def handleHqcPkChunk (e : Env ρ) (s : HqcSession) (m : PkChunk) : HqcSession × List Effect :=
  let s := s.noteRx (e.millis 0)
  match pkChunkError s.rx m with
  | some (value, status, detail) => (s, [.hqcStatus s.rx.sessionId value status detail])
  | none =>
    let r := s.rx.storeFragment m
    let rx := s.rx.afterChunk m
    let fx := r.2 ++ [.pkAck rx.sessionId rx.pkeRcvd (rx.sackMask r.1.baseFrag)]
    if rx.KeyComplete then
      let t := completeKey P e (s.setRx rx)
      (t.1, fx ++ t.2)
    else (s.setRx rx, fx)

variable {P} {e : Env ρ} {s : HqcSession} {pke ct : Block}

theorem startEncap_no_buffer (hp : s.rx.pke = some pke) (hb : s.rx.encapBuf e = none) :
    startEncap P e s = (s.setState .fail, []) := by
  simp only [startEncap, hp, hb]

theorem startEncap_failed (hp : s.rx.pke = some pke) (hb : s.rx.encapBuf e = some ct)
    (ho : (encapOut P e pke ct).ok = false) :
    startEncap P e s =
      ((s.setRx (s.rx.failEncap (ct.write 0 (encapOut P e pke ct).ct.toList))).setState .fail,
        [.apKemEnc 0 pke false]) := by
  simp only [startEncap, hp, hb, ho, Bool.not_false, if_true]

theorem startEncap_done (hp : s.rx.pke = some pke) (hb : s.rx.encapBuf e = some ct)
    (ho : (encapOut P e pke ct).ok = true) :
    startEncap P e s =
      ((s.setRx (s.rx.doneEncap (ct.write 0 (encapOut P e pke ct).ct.toList)
        (encapOut P e pke ct).ss)).setState .encapDone, [.apKemEnc 0 pke true]) := by
  simp only [startEncap, hp, hb, ho, Bool.not_true, Bool.false_eq_true, if_false]

def encapsulatedSession (P : Platform ρ) (s : HqcSession) (pke ct : Block)
    (ss : Bytes apKemBytes) : HqcSession :=
  (openEphemeral P ((s.setTh (pkSummaryTh P s pke)).setRx (s.rx.doneEncap ct ss)) ct).1

/-- The three outcomes of a complete key: no buffer for the ciphertext, a failed
encapsulation, or a new ciphertext. -/
inductive KeyCompletion (P : Platform ρ) (e : Env ρ) (s : HqcSession) (pke : Block) :
    HqcSession × List Effect → Prop
  | noBuffer (hb : s.rx.encapBuf e = none) :
      KeyCompletion P e s pke
        ((s.setTh (pkSummaryTh P s pke)).setState .fail, [encapFailedText])
  | failed (ct : Block) (hb : s.rx.encapBuf e = some ct) (ho : (encapOut P e pke ct).ok = false) :
      KeyCompletion P e s pke
        (((s.setTh (pkSummaryTh P s pke)).setRx
          (s.rx.failEncap (ct.write 0 (encapOut P e pke ct).ct.toList))).setState .fail,
          [.apKemEnc 0 pke false, encapFailedText])
  | done (ct : Block) (fx : List Effect) (hb : s.rx.encapBuf e = some ct)
      (ho : (encapOut P e pke ct).ok = true)
      (hfx : ∀ o ∈ fx, ∃ off, o = .ctChunk (ctChunkAt
        (ct.write 0 (encapOut P e pke ct).ct.toList) s.rx.sessionId 0 s.rx.mtu
          apKemCiphertextBytes off)) :
      KeyCompletion P e s pke
        (encapsulatedSession P s pke (ct.write 0 (encapOut P e pke ct).ct.toList)
          (encapOut P e pke ct).ss, .apKemEnc 0 pke true :: fx)

theorem KeyCompletion.forall_effect {Q : Effect → Prop} {r : HqcSession × List Effect}
    (h : KeyCompletion P e s pke r) (htext : Q encapFailedText)
    (hkem : ∀ ok, Q (.apKemEnc 0 pke ok)) (hct : ∀ c : CtChunk, Q (.ctChunk c)) :
    ∀ o ∈ r.2, Q o := by
  cases h with
  | noBuffer hb => exact List.forall_mem_singleton.mpr htext
  | failed ct hb ho =>
    exact List.forall_mem_cons.mpr ⟨hkem false, List.forall_mem_singleton.mpr htext⟩
  | done ct fx hb ho hfx =>
    refine List.forall_mem_cons.mpr ⟨hkem true, fun o ho ↦ ?_⟩
    obtain ⟨off, rfl⟩ := hfx o ho
    exact hct _

theorem completeKey_spec (hp : s.rx.pke = some pke) :
    KeyCompletion P e s pke (completeKey P e s) := by
  have hp' : ((s.setTh (pkSummaryTh P s pke)).setState .encapReady).rx.pke = some pke := hp
  unfold completeKey
  simp only [hp]
  cases hb : s.rx.encapBuf e with
  | none =>
    rw [startEncap_no_buffer hp' hb]
    exact .noBuffer hb
  | some ct =>
    cases ho : (encapOut P e pke ct).ok with
    | false =>
      rw [startEncap_failed hp' hb ho]
      exact .failed ct hb ho
    | true =>
      rw [startEncap_done hp' hb ho]
      exact .done ct _ hb ho fun o h ↦ sendWindow_chunks _ _ _ _ _ _ _ o h

/-- A `PK_CHUNK` is refused with a status, or stored; a chunk that leaves the
key complete goes on to `start_encap`. -/
inductive ChunkOutcome (P : Platform ρ) (e : Env ρ) (s : HqcSession) (m : PkChunk) :
    HqcSession × List Effect → Prop
  | refused (value : Nat) (status : KexStatus) (detail : UInt8)
      (he : pkChunkError s.rx m = some (value, status, detail)) :
      ChunkOutcome P e s m
        (s.noteRx (e.millis 0), [.hqcStatus s.rx.sessionId value status detail])
  | stored (sid : UInt64) (base : Nat) (mask : UInt32) (he : pkChunkError s.rx m = none)
      (hk : ¬ (s.rx.afterChunk m).KeyComplete) :
      ChunkOutcome P e s m ((s.noteRx (e.millis 0)).setRx (s.rx.afterChunk m),
        (s.rx.storeFragment m).2 ++ [.pkAck sid base mask])
  | complete (sid : UInt64) (base : Nat) (mask : UInt32) (pke : Block)
      (r : HqcSession × List Effect) (he : pkChunkError s.rx m = none)
      (hk : (s.rx.afterChunk m).KeyComplete)
      (hp : (s.rx.afterChunk m).pke = some pke)
      (hr : KeyCompletion P e ((s.noteRx (e.millis 0)).setRx (s.rx.afterChunk m)) pke r) :
      ChunkOutcome P e s m (r.1, (s.rx.storeFragment m).2 ++ [.pkAck sid base mask] ++ r.2)

structure ChunkAccepted (rx : HqcRxBuf) (m : PkChunk) : Prop where
  session : m.sessionId = rx.sessionId
  pkLen_pos : 0 < rx.pkLen
  pke : rx.pke.isSome
  count_pos : 0 < m.count.toNat
  count_le : m.count.toNat ≤ rx.mtu
  end_le : m.offset.toNat + m.count.toNat ≤ rx.pkLen
  aligned : m.offset.toNat % rx.mtu = 0 ∨ m.offset.toNat + m.count.toNat = rx.pkLen
  frag_lt : rx.fragIdx m < rx.pkChunks

theorem pkChunkError_eq_none {rx : HqcRxBuf} {m : PkChunk} :
    pkChunkError rx m = none ↔ ChunkAccepted rx m := by
  unfold pkChunkError
  constructor
  · intro h
    dsimp only at h
    split_ifs at h with h₁ h₂ h₃ h₄ h₅ h₆
    obtain ⟨hl, hp⟩ := not_or.mp h₂
    exact ⟨not_not.mp h₁, Nat.pos_of_ne_zero hl, by simpa [Option.isSome_iff_ne_none] using hp,
      by omega, by omega, by omega, by omega, Nat.lt_of_not_le h₆⟩
  · rintro ⟨h₁, h₂, h₃, h₄, h₅, h₆, h₇, h₈⟩
    have h₂₃ : ¬ (rx.pkLen = 0 ∨ rx.pke.isNone = true) := by
      rintro (h | h)
      · omega
      · simp_all [Option.isSome_iff_ne_none]
    rw [if_neg (not_not.mpr h₁), if_neg h₂₃, if_neg (by omega), if_neg (by omega),
      if_neg (by omega), if_neg (Nat.not_le_of_lt h₈)]

theorem afterChunk_pke_isSome {rx : HqcRxBuf} (m : PkChunk) (h : rx.pke.isSome) :
    (rx.afterChunk m).pke.isSome := by
  unfold HqcRxBuf.afterChunk HqcRxBuf.advanceBase HqcRxBuf.storeFragment
  dsimp only
  split_ifs
  · simpa using h
  · exact h

theorem handleHqcPkChunk_spec (P : Platform ρ) (e : Env ρ) (s : HqcSession) (m : PkChunk) :
    ChunkOutcome P e s m (handleHqcPkChunk P e s m) := by
  unfold handleHqcPkChunk
  simp only [HqcSession.noteRx_rx]
  cases he : pkChunkError s.rx m with
  | some err => exact .refused _ _ _ he
  | none =>
    obtain ⟨pke, hp⟩ := Option.isSome_iff_exists.mp
      (afterChunk_pke_isSome m (pkChunkError_eq_none.mp he).pke)
    by_cases hk : (s.rx.afterChunk m).KeyComplete
    · simp only [hk, if_true]
      exact .complete _ _ _ pke
        (completeKey P e ((s.noteRx (e.millis 0)).setRx (s.rx.afterChunk m))) he hk hp
        (completeKey_spec hp)
    · simp only [hk, if_false]
      exact .stored _ _ _ he hk

end KemtlsMavlink
