import KemtlsMavlink.Session.State

namespace KemtlsMavlink

open Library

variable {ρ : Type} (P : Platform ρ)

def selectAead (offer : UInt8) : UInt8 :=
  if offer = 0 then 0 else if offer = 1 then 1 else if offer = 2 then 2 else 1

/-- Everything `handle_hqc_hello` does before its first check. -/
def helloBegin (e : Env ρ) (s : HqcSession) (m : Hello) : HqcSession :=
  let s := s.reset
  let rx := { s.rx with
    sessionId := m.sessionId, pkLen := m.pkLen.toNat, version := m.version, suiteId := m.suiteId
    flags := m.flags, aeadOffer := m.aeadOffer, salt := m.handshakeSalt, rc := m.rc }
  let rx := rx.clampKexParams
  let s := { s with rx := rx, negotiatedMtu := rx.mtu, negotiatedWindow := rx.window }
  let s := s.onHelloStart (e.millis 0)
  { s with th := thAddHello P s.th m }

/-- The way a `HELLO` is refused: what happens before the refusal itself, the
status of the negative `HELLO_ACK` (none when an `HQC_STATUS` has been sent in
its place), and what follows. -/
structure Refusal where
  before : List Effect
  status : Option KexStatus
  after : List Effect

def nackText (fmt : String) (v : Nat) : Effect := .sendText .error fmt [.num v]

def nackOf (s : HqcSession) (status : KexStatus) : HelloAck :=
  ⟨s.rx.sessionId, UInt16.ofNat s.rx.mtu, UInt8.ofNat s.rx.window, s.aeadAlg, 0, status, 0, 0,
    Bytes.zeros 32⟩

def HqcRxBuf.freeKeys (rx : HqcRxBuf) : HqcRxBuf :=
  { rx with pke := none, pks := none, cts := { rx.cts with buf := none } }

def refuse (s : HqcSession) (r : Refusal) : HqcSession × List Effect :=
  match r.status with
  | none => (s.setRx s.rx.freeKeys, r.before ++ r.after)
  | some status =>
    let nack := nackOf s status
    ((s.setRx s.rx.freeKeys).setTh (thAddHelloAck P s.th nack),
      r.before ++ .helloAck nack :: r.after)

/-- The four checks on the fields of the `HELLO`, with the algorithm each of
them leaves in `aead_alg`. -/
def helloFieldError (rx : HqcRxBuf) : Option (UInt8 × KexStatus × Effect) :=
  if rx.version ≠ 1 then
    some (selectAead rx.aeadOffer, .rejected,
      nackText "HQC: unsupported version %u" rx.version.toNat)
  else if rx.suiteId ≠ 1 then
    some (selectAead rx.aeadOffer, .rejected,
      nackText "HQC: suite not supported (%u)" rx.suiteId.toNat)
  else if rx.pkLen = 0 ∨ rx.pkLen > 65536 then
    some (selectAead rx.aeadOffer, .badLen, nackText "HQC: bad pk_len=%u" rx.pkLen)
  else if rx.aeadOffer > 2 then
    some (1, .rejected, nackText "HQC: unsupported AEAD offer (%u)" rx.aeadOffer.toNat)
  else none

def rd16 (p : List UInt8) (i : Nat) : UInt16 :=
  (p.getD i 0).toUInt16 ||| ((p.getD (i + 1) 0).toUInt16 <<< 8)

def rd32 (p : List UInt8) (i : Nat) : UInt32 :=
  (p.getD i 0).toUInt32 ||| ((p.getD (i + 1) 0).toUInt32 <<< 8) |||
    ((p.getD (i + 2) 0).toUInt32 <<< 16) ||| ((p.getD (i + 3) 0).toUInt32 <<< 24)

/-- `while (got < pksz)` over the short reads of the key. Every round that goes
on reads a byte, so `pksz` rounds are enough. A store past the end of the block
is kept and read back, as in flat memory. -/
def readPks (fs : PdkFs) (pksz : Nat) : Nat → Nat → Block → Block × List Effect × Nat
  | 0, got, pks => (pks, [], got)
  | fuel + 1, got, pks =>
    if got < pksz then
      let r := fs.read (56 + got) (pksz - got)
      if r.isEmpty then (pks, [], got)
      else
        let next := readPks fs pksz fuel (got + r.length) (pks.write got r)
        (next.1, .pksStore got r.length :: next.2.1, next.2.2)
    else (pks, [], got)

structure PdkHeader where
  magic : UInt32
  ver : UInt16
  suite : UInt8
  alg : UInt8
  pksz : Nat
  fp : List UInt8

def pdkHeader (hdr : List UInt8) : PdkHeader :=
  ⟨rd32 hdr 0, rd16 hdr 4, hdr.getD 6 0, hdr.getD 7 0, (rd32 hdr 16).toNat, (hdr.drop 20).take 32⟩

/-- From the first `stat` of the key file to the checks on its header. -/
def pdkError (fs : PdkFs) : Option Refusal :=
  let hdr := fs.read 0 56
  let h := pdkHeader hdr
  if !(fs.statSize.any fun size ↦ ¬ size < 56) then
    some ⟨[], some .encUnav, [nackText "HQC: PDK not found or too small" 0]⟩
  else if !fs.openOk then some ⟨[], some .internal, [nackText "HQC: open PDK failed" 0]⟩
  else if hdr.length ≠ 56 then
    some ⟨[.fsOpen, .fsClose], some .internal, [nackText "HQC: PDK header read failed" 0]⟩
  else if h.magic ≠ 0x544D454B ∨ h.ver ≠ 1 ∨ h.suite ≠ 1 ∨
      !(fs.statSize2.any fun size ↦ ¬ size < 56 + h.pksz) ∨ h.pksz = 0 ∨ h.pksz > 65536 then
    some ⟨[.fsOpen, .fsClose], some .internal,
      [nackText "HQC: bad PDK header/suite/size (pksz=%u)" h.pksz]⟩
  else none

structure PdkKey where
  pks : Block
  hdr : PdkHeader
  fpCalc : Bytes 32

def pkszWarning (pksz : Nat) : List Effect :=
  if pksz ≠ apKemPublicKeyBytes then
    [.sendText .warning "HQC: pksz(%u) != AP_KEM_PUBLICKEYBYTES(%u)"
      [.num pksz, .num apKemPublicKeyBytes]]
  else []

def readPdk (e : Env ρ) (sessionId : UInt64) (h : PdkHeader) :
    Except Refusal (PdkKey × List Effect) :=
  match e.callocPks with
  | none =>
    .error ⟨[.fsOpen, .fsClose, .hqcStatus sessionId 0 .internal 2,
      nackText "HQC: malloc pks(%u) failed" apKemPublicKeyBytes], none, []⟩
  | some init =>
    let r := readPks e.fs h.pksz h.pksz 0 (Block.calloc apKemPublicKeyBytes init)
    let fx := .fsOpen :: r.2.1 ++ [.fsClose]
    if r.2.2 < h.pksz then
      .error ⟨fx ++ [.hqcStatus sessionId 0 .internal 3,
        .sendText .error "HQC: read pks short (%u/%u)" [.num r.2.2, .num h.pksz]], none, []⟩
    else
      let fpCalc := P.sha256 (r.1.read 0 h.pksz)
      let fx := fx ++ pkszWarning h.pksz
      if fpCalc.toList ≠ h.fp then
        .error ⟨fx ++ [.sendText .error "HQC: PDK fp mismatch hdr=%s calc=%s"
          [.hex h.fp, .hex fpCalc.toList]], some .internal, []⟩
      else .ok (⟨r.1, h, fpCalc⟩, fx)

def loadPks (e : Env ρ) (sessionId : UInt64) : Except Refusal (PdkKey × List Effect) :=
  match pdkError e.fs with
  | some r => .error r
  | none => readPdk P e sessionId (pdkHeader (e.fs.read 0 56))

def ackOf (s : HqcSession) (rs : Bytes 32) : HelloAck :=
  ⟨s.rx.sessionId, UInt16.ofNat s.rx.mtu, UInt8.ofNat s.rx.window, s.aeadAlg, 1, .inProgress,
    UInt32.ofNat apKemCiphertextBytes, UInt32.ofNat apKemCiphertextBytes, rs⟩

def ctsSummaryTh (s : HqcSession) (cts : Block) : Bytes 32 :=
  thAddCtSummary P s.th s.rx.sessionId 1 (UInt32.ofNat apKemCiphertextBytes)
    (P.sha256 (cts.read 0 apKemCiphertextBytes))

def helloRs (s : HqcSession) (k : PdkKey) : Bytes 32 :=
  P.sha256 (le64 s.rx.sessionId ++ s.rx.salt.toList ++ k.hdr.fp)

/-- The part of `handle_hqc_hello` from the successful static encapsulation on. -/
def helloAccept (s : HqcSession) (k : PdkKey) (cts : Block) (ss : Bytes apKemBytes) :
    HqcSession × List Effect :=
  let len := apKemCiphertextBytes
  let rs := helloRs P s k
  let ack := ackOf s rs
  let w := sendWindow cts s.rx.sessionId 1 s.rx.mtu len s.rx.window 0
  let rx := { s.rx with
    pks := some k.pks, ssS := ss, rs := rs
    cts := ⟨some cts, len, List.replicate ((len + s.rx.mtu - 1) / s.rx.mtu) false, w.2⟩ }
  (((s.setRx rx).setTh (thAddHelloAck P (ctsSummaryTh P s cts) ack)).setState .ctTx,
    .helloAck ack :: w.1)

def kemEncTexts (k : PdkKey) : List Effect :=
  [.sendText .error "HQC: kem_enc rc=%d pksz=%u pkbytes=%u ctbytes=%u"
      [.num 0, .num k.hdr.pksz, .num apKemPublicKeyBytes, .num apKemCiphertextBytes],
    .sendText .info "HQC: pk_sha256=%s" [.hex k.fpCalc.toList]]

def pdkText (k : PdkKey) : Effect :=
  .sendText .info "HQC: suite=%u alg=%u pksz=%u pkbytes=%u ctbytes=%u"
    [.num k.hdr.suite.toNat, .num k.hdr.alg.toNat, .num k.hdr.pksz, .num apKemPublicKeyBytes,
      .num apKemCiphertextBytes]

def helloEncap (e : Env ρ) (s : HqcSession) (k : PdkKey) (fx : List Effect) :
    HqcSession × List Effect :=
  match e.mallocCts with
  | none => refuse P s ⟨fx, some .internal, [nackText "HQC: malloc cts failed" 0]⟩
  | some init =>
    let cts := Block.malloc apKemCiphertextBytes init
    let out := P.apKemEnc (k.pks.read 0 apKemPublicKeyBytes) (cts.read 0 apKemCiphertextBytes)
      e.rand
    let fx := fx ++ [.apKemEnc 1 k.pks out.ok]
    if !out.ok then
      refuse P s ⟨fx ++ kemEncTexts k, some .encUnav, [nackText "HQC: kem enc unavailable (%u)" 0]⟩
    else
      let r := helloAccept P s k (cts.write 0 out.ct.toList) out.ss
      (r.1, fx ++ r.2)

/-- The session of a `HELLO` with the negotiated algorithm and the buffer for
the ephemeral key. -/
def helloSession (e : Env ρ) (s : HqcSession) (m : Hello) (alg : UInt8) (pke : Option Block) :
    HqcSession :=
  let s := helloBegin P e s m
  { s with aeadAlg := alg, rx := { s.rx with pke := pke } }

def handleHqcHello (e : Env ρ) (s : HqcSession) (m : Hello) : HqcSession × List Effect :=
  let rx := (helloBegin P e s m).rx
  match helloFieldError rx with
  | some (alg, status, text) =>
    refuse P (helloSession P e s m alg none) ⟨[], some status, [text]⟩
  | none =>
    let alg := selectAead rx.aeadOffer
    match e.mallocPke with
    | none =>
      refuse P (helloSession P e s m alg none)
        ⟨[], some .internal, [nackText "HQC: malloc pke failed" 0]⟩
    | some init =>
      let s := helloSession P e s m alg (some (Block.malloc rx.pkLen init))
      match loadPks P e rx.sessionId with
      | .error r => refuse P s r
      | .ok (k, fx) => helloEncap P e s k (fx ++ [pdkText k])

variable {P} {e : Env ρ} {s : HqcSession} {m : Hello}

/-- What happens on the way to an answer: reports, texts and the reading of the
key file. -/
def Effect.IsSetup : Effect → Prop
  | .helloAck _ | .hqcStatus .. | .sendText .. | .fsOpen | .fsClose | .pksStore .. => True
  | _ => False

def loadEffects : Except Refusal (PdkKey × List Effect) → List Effect
  | .error r => r.before ++ r.after
  | .ok q => q.2

theorem readPks_setup (fs : PdkFs) (pksz fuel got : Nat) (pks : Block) :
    ∀ o ∈ (readPks fs pksz fuel got pks).2.1, o.IsSetup := by
  induction fuel generalizing got pks with
  | zero => exact List.forall_mem_nil _
  | succ fuel ih =>
    unfold readPks
    split
    · dsimp only
      split
      · exact List.forall_mem_nil _
      · exact List.forall_mem_cons.mpr ⟨trivial, ih _ _⟩
    · exact List.forall_mem_nil _

theorem pkszWarning_setup (pksz : Nat) : ∀ o ∈ pkszWarning pksz, o.IsSetup := by
  unfold pkszWarning
  split
  · exact List.forall_mem_singleton.mpr trivial
  · exact List.forall_mem_nil _

theorem pdkError_setup {fs : PdkFs} {r : Refusal} (h : pdkError fs = some r) :
    ∀ o ∈ r.before ++ r.after, o.IsSetup := by
  unfold pdkError at h
  dsimp only at h
  split_ifs at h <;> cases h <;> simp [Effect.IsSetup, nackText]

theorem loadPks_setup (P : Platform ρ) (e : Env ρ) (sessionId : UInt64) :
    ∀ o ∈ loadEffects (loadPks P e sessionId), o.IsSetup := by
  unfold loadPks
  cases he : pdkError e.fs with
  | some r => exact pdkError_setup he
  | none =>
    unfold readPdk
    cases e.callocPks with
    | none => simp [loadEffects, Effect.IsSetup, nackText]
    | some init =>
      have hr := readPks_setup e.fs (pdkHeader (e.fs.read 0 56)).pksz
        (pdkHeader (e.fs.read 0 56)).pksz 0 (Block.calloc apKemPublicKeyBytes init)
      have hw := pkszWarning_setup (pdkHeader (e.fs.read 0 56)).pksz
      dsimp only
      split
      · simpa [loadEffects, Effect.IsSetup, or_imp, forall_and] using hr
      · split
        · simpa [loadEffects, Effect.IsSetup, or_imp, forall_and] using ⟨hr, hw⟩
        · simpa [loadEffects, Effect.IsSetup, or_imp, forall_and] using ⟨hr, hw⟩

theorem readPdk_eq_ok {sid : UInt64} {h : PdkHeader} {k : PdkKey} {fx : List Effect} :
    readPdk P e sid h = .ok (k, fx) ↔
    ∃ init, e.callocPks = some init ∧
      let r := readPks e.fs h.pksz h.pksz 0 (.calloc apKemPublicKeyBytes init)
      h.pksz ≤ r.2.2 ∧ (P.sha256 (r.1.read 0 h.pksz)).toList = h.fp ∧
        k = ⟨r.1, h, P.sha256 (r.1.read 0 h.pksz)⟩ ∧
          fx = .fsOpen :: r.2.1 ++ [.fsClose] ++ pkszWarning h.pksz := by
  unfold readPdk
  cases e.callocPks with
  | none => simp
  | some init =>
    simp only [Option.some.injEq, exists_eq_left']
    generalize readPks e.fs h.pksz h.pksz 0 (.calloc apKemPublicKeyBytes init) = r
    split_ifs with hgot hfp
    · simp [Nat.not_le.mpr hgot]
    · simp [hfp]
    · simp [Nat.not_lt.mp hgot, not_not.mp hfp, eq_comm]

theorem loadPks_eq_ok {sid : UInt64} {k : PdkKey} {fx : List Effect} :
    loadPks P e sid = .ok (k, fx) ↔
    pdkError e.fs = none ∧ readPdk P e sid (pdkHeader (e.fs.read 0 56)) = .ok (k, fx) := by
  unfold loadPks
  cases pdkError e.fs <;> simp

def HelloEffect (P : Platform ρ) (e : Env ρ) (s : HqcSession) (m : Hello) (o : Effect) : Prop :=
  o.IsSetup ∨ ∃ k fx ok, helloFieldError (helloBegin P e s m).rx = none ∧
    loadPks P e m.sessionId = .ok (k, fx) ∧ o = .apKemEnc 1 k.pks ok

/-- How far a `HELLO` gets: to a refusal by the checks on its fields, by the allocation
of `rx.pke` or over the key file, or to the static encapsulation. -/
inductive HelloCase (P : Platform ρ) (e : Env ρ) (s : HqcSession) (m : Hello) :
    HqcSession × List Effect → Prop
  | field (alg : UInt8) (status : KexStatus) (text : Effect)
      (hf : helloFieldError (helloBegin P e s m).rx = some (alg, status, text)) :
      HelloCase P e s m (refuse P (helloSession P e s m alg none) ⟨[], some status, [text]⟩)
  | noPke (hf : helloFieldError (helloBegin P e s m).rx = none) (hp : e.mallocPke = none) :
      HelloCase P e s m (refuse P (helloSession P e s m (selectAead m.aeadOffer) none)
        ⟨[], some .internal, [nackText "HQC: malloc pke failed" 0]⟩)
  | noKey (init : Nat → UInt8) (r : Refusal)
      (hf : helloFieldError (helloBegin P e s m).rx = none) (hp : e.mallocPke = some init)
      (hk : loadPks P e m.sessionId = .error r) :
      HelloCase P e s m (refuse P (helloSession P e s m (selectAead m.aeadOffer)
        (some (.malloc m.pkLen.toNat init))) r)
  | encap (init : Nat → UInt8) (k : PdkKey) (fx : List Effect)
      (hf : helloFieldError (helloBegin P e s m).rx = none) (hp : e.mallocPke = some init)
      (hk : loadPks P e m.sessionId = .ok (k, fx)) :
      HelloCase P e s m (helloEncap P e (helloSession P e s m (selectAead m.aeadOffer)
        (some (.malloc m.pkLen.toNat init))) k (fx ++ [pdkText k]))

theorem handleHqcHello_cases (P : Platform ρ) (e : Env ρ) (s : HqcSession) (m : Hello) :
    HelloCase P e s m (handleHqcHello P e s m) := by
  unfold handleHqcHello
  dsimp only
  cases hf : helloFieldError (helloBegin P e s m).rx with
  | some err => exact .field err.1 err.2.1 err.2.2 hf
  | none =>
    cases hp : e.mallocPke with
    | none => exact .noPke hf hp
    | some init =>
      cases hk : loadPks P e (helloBegin P e s m).rx.sessionId with
      | error r => exact .noKey init r hf hp hk
      | ok q => exact .encap init q.1 q.2 hf hp hk

/-- A `HELLO` is refused, and then leaves nothing allocated; or it is accepted
after all its checks, with the encapsulation to the key read from the file. -/
inductive HelloOutcome (P : Platform ρ) (e : Env ρ) (s : HqcSession) (m : Hello) :
    HqcSession × List Effect → Prop
  | refused (th : Bytes 32) (alg : UInt8) (fx : List Effect)
      (hfx : ∀ o ∈ fx, HelloEffect P e s m o) :
      HelloOutcome P e s m ((helloSession P e s m alg none).setTh th, fx)
  | accepted (pke cts : Block) (k : PdkKey) (ss : Bytes apKemBytes) (fx fx' : List Effect)
      (hf : helloFieldError (helloBegin P e s m).rx = none)
      (hs : pke.size = m.pkLen.toNat) (hw : ∀ i, ¬ pke.Written i)
      (hk : loadPks P e m.sessionId = .ok (k, fx)) (hfx : ∀ o ∈ fx', HelloEffect P e s m o) :
      HelloOutcome P e s m
        ((helloAccept P (helloSession P e s m (selectAead m.aeadOffer) (some pke)) k cts ss).1,
          fx' ++
            (helloAccept P (helloSession P e s m (selectAead m.aeadOffer) (some pke)) k cts ss).2)

/-- The output rule of a `HELLO`: it sends what it does before its answer, and
fragments of the static ciphertext. -/
theorem HelloOutcome.forall_effect {Q : Effect → Prop} {r : HqcSession × List Effect}
    (h : HelloOutcome P e s m r) (hset : ∀ o, HelloEffect P e s m o → Q o)
    (hct : ∀ c : CtChunk, c.ctKind = 1 → Q (.ctChunk c)) : ∀ o ∈ r.2, Q o := by
  cases h with
  | refused th alg fx hfx => exact fun o ho ↦ hset o (hfx o ho)
  | accepted pke cts k ss fx fx' hf hs hw hk hfx =>
    refine List.forall_mem_append.mpr ⟨fun o ho ↦ hset o (hfx o ho), ?_⟩
    refine List.forall_mem_cons.mpr ⟨hset _ (.inl trivial), fun o ho ↦ ?_⟩
    obtain ⟨off, rfl⟩ := sendWindow_chunks _ _ _ _ _ _ _ o ho
    exact hct _ rfl

theorem helloFieldError_eq_none {rx : HqcRxBuf} (h : helloFieldError rx = none) :
    rx.version = 1 ∧ rx.suiteId = 1 ∧ 0 < rx.pkLen ∧ rx.pkLen ≤ 65536 ∧ rx.aeadOffer ≤ 2 := by
  unfold helloFieldError at h
  split_ifs at h with hv hs hl ha
  exact ⟨not_not.mp hv, not_not.mp hs, by omega, by omega, UInt8.not_lt.mp ha⟩

theorem selectAead_eq {offer : UInt8} (h : offer ≤ 2) : selectAead offer = offer := by
  have hn : offer.toNat ≤ 2 := h
  unfold selectAead
  split_ifs with h₀ h₁ h₂
  · exact h₀.symm
  · exact h₁.symm
  · exact h₂.symm
  · have h₀' : offer.toNat ≠ 0 := fun hz ↦ h₀ (UInt8.toNat_inj.mp hz)
    have h₁' : offer.toNat ≠ 1 := fun hz ↦ h₁ (UInt8.toNat_inj.mp hz)
    have h₂' : offer.toNat ≠ 2 := fun hz ↦ h₂ (UInt8.toNat_inj.mp hz)
    omega

theorem refuse_outcome (alg : UInt8) (pke : Option Block) (r : Refusal)
    (hr : ∀ o ∈ r.before ++ r.after, HelloEffect P e s m o) :
    HelloOutcome P e s m (refuse P (helloSession P e s m alg pke) r) := by
  obtain ⟨hb, ha⟩ := List.forall_mem_append.mp hr
  unfold refuse
  cases r.status with
  | none => exact .refused _ alg _ hr
  | some status =>
    refine .refused _ alg _ (List.forall_mem_append.mpr ⟨hb, ?_⟩)
    exact List.forall_mem_cons.mpr ⟨.inl trivial, ha⟩

theorem helloEncap_outcome {pke : Block} {k : PdkKey} {fx : List Effect}
    (hf : helloFieldError (helloBegin P e s m).rx = none)
    (hs : pke.size = m.pkLen.toNat) (hw : ∀ i, ¬ pke.Written i)
    (hk : loadPks P e m.sessionId = .ok (k, fx)) :
    HelloOutcome P e s m
      (helloEncap P e (helloSession P e s m (selectAead m.aeadOffer) (some pke)) k
        (fx ++ [pdkText k])) := by
  have hset : ∀ o ∈ fx ++ [pdkText k], HelloEffect P e s m o := by
    have h := loadPks_setup P e m.sessionId
    rw [hk] at h
    refine List.forall_mem_append.mpr ⟨fun o ho ↦ .inl (h o ho), ?_⟩
    exact List.forall_mem_singleton.mpr (.inl trivial)
  unfold helloEncap
  cases hc : e.mallocCts with
  | none =>
    refine refuse_outcome _ _ _ (List.forall_mem_append.mpr ⟨hset, ?_⟩)
    exact List.forall_mem_singleton.mpr (.inl trivial)
  | some initCts =>
    dsimp only
    generalize P.apKemEnc _ _ _ = out
    have henc : ∀ o ∈ fx ++ [pdkText k] ++ [.apKemEnc 1 k.pks out.ok], HelloEffect P e s m o := by
      refine List.forall_mem_append.mpr ⟨hset, List.forall_mem_singleton.mpr ?_⟩
      exact .inr ⟨k, fx, out.ok, hf, hk, rfl⟩
    split
    · refine refuse_outcome _ _ _ (List.forall_mem_append.mpr ⟨?_, ?_⟩)
      · refine List.forall_mem_append.mpr ⟨henc, ?_⟩
        simp [kemEncTexts, HelloEffect, Effect.IsSetup]
      · exact List.forall_mem_singleton.mpr (.inl trivial)
    · exact .accepted pke _ k _ fx _ hf hs hw hk henc

theorem handleHqcHello_spec (P : Platform ρ) (e : Env ρ) (s : HqcSession) (m : Hello) :
    HelloOutcome P e s m (handleHqcHello P e s m) := by
  have h := handleHqcHello_cases P e s m
  have hl := loadPks_setup P e m.sessionId
  generalize handleHqcHello P e s m = r at h ⊢
  cases h with
  | field alg status text hf =>
    refine refuse_outcome _ _ _ (List.forall_mem_singleton.mpr (.inl ?_))
    unfold helloFieldError at hf
    split_ifs at hf <;> cases hf <;> trivial
  | noPke hf hp => exact refuse_outcome _ _ _ (List.forall_mem_singleton.mpr (.inl trivial))
  | noKey init r hf hp hk =>
    rw [hk] at hl
    exact refuse_outcome _ _ _ fun o ho ↦ .inl (hl o ho)
  | encap init k fx hf hp hk =>
    exact helloEncap_outcome hf rfl (fun i ↦ Block.not_written_malloc _ _) hk

end KemtlsMavlink
