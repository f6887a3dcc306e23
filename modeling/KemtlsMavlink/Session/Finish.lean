import KemtlsMavlink.Session.State

namespace KemtlsMavlink

open Library

variable {ρ : Type} (P : Platform ρ)

def handshakePrk (ssE ssS : Bytes apKemBytes) (salt : Bytes 16) (sessionId : UInt64) : Bytes 32 :=
  hkdfExtract P (P.sha256 (salt.toList ++ le64 sessionId)) (ssE.toList ++ ssS.toList)

def finishTag (prk : Bytes 32) (th : Bytes 32) : Bytes 32 :=
  let finishedKey := hkdfExpandLabel P prk (ascii "finished") [] 32
  hmacSha256 P finishedKey.toList th.toList

def HqcSession.deriveKeys (s : HqcSession) (prk : Bytes 32) : HqcSession :=
  { s with
    ms := hkdfExpandLabel P prk (ascii "ms") [] 32
    kTx := hkdfExpandLabel P prk (ascii "key:tx") [] 16
    kRx := hkdfExpandLabel P prk (ascii "key:rx") [] 16
    ivTx := hkdfExpandLabel P prk (ascii "iv:tx") [] 12
    ivRx := hkdfExpandLabel P prk (ascii "iv:rx") [] 12
    kChachaTx := hkdfExpandLabel P prk (ascii "chacha:key:tx") [] 32
    kChachaRx := hkdfExpandLabel P prk (ascii "chacha:key:rx") [] 32 }

/-- `verify_finish_and_derive`: `none` when the tag differs. -/
def verifyFinishAndDerive (s : HqcSession) (peerTag th : Bytes 32) (ssE ssS : Bytes apKemBytes)
    (salt : Bytes 16) (sessionId : UInt64) : Option HqcSession :=
  let prk := handshakePrk P ssE ssS salt sessionId
  if finishTag P prk th ≠ peerTag then none else some (s.deriveKeys P prk)

def signKey (ssE ssS : Bytes apKemBytes) (salt : Bytes 16) (sessionId : UInt64) : Bytes 32 :=
  hkdfExpandLabel P (handshakePrk P ssE ssS salt sessionId) (ascii "sign") [] 32

/-- The checks of `handle_hqc_finish` before the tag, with the value and the
detail of the `HQC_STATUS` each of them sends. -/
def finishError (s : HqcSession) (m : Finish) : Option (Nat × KexStatus × UInt8) :=
  if m.sessionId ≠ s.rx.sessionId then some (0, .badSeq, 20)
  else if s.state ≠ .waitCf then some (0, .inProgress, 22)
  else if m.role ≠ 1 then some (m.role.toNat, .badSeq, 23)
  else if m.tagLen ≠ 32 then some (m.tagLen.toNat, .badLen, 24)
  else if !(s.rx.cte.done && s.rx.cts.done) then some (0, .inProgress, 21)
  else none

def HqcRxBuf.release (rx : HqcRxBuf) : HqcRxBuf :=
  { rx with
    pke := none, cte := { rx.cte with buf := none }, cts := { rx.cts with buf := none } }

def handleHqcFinish (e : Env ρ) (s : HqcSession) (m : Finish) : HqcSession × List Effect :=
  let s := s.noteRx (e.millis 0)
  let sid := s.rx.sessionId
  match finishError s m with
  | some (value, status, detail) => (s, [.hqcStatus sid value status detail])
  | none =>
    match verifyFinishAndDerive P s m.tag s.th s.rx.ssE s.rx.ssS s.rx.salt sid with
    | none =>
      let s := s.setTh (thAddAbort P s.th sid .rejected 31 0)
      (s.wipe, [.hqcStatus sid 0 .rejected 31])
    | some s =>
      let s := s.setTh (thAddFinish P s.th m)
      let key := signKey P s.rx.ssE s.rx.ssS s.rx.salt sid
      ((s.setRx s.rx.release).setState .active,
        [.enableSigningWithKey key, .hqcStatus sid 0 .ok 0])

/-- What `mavlink_get_crypt_config` answers: its result, and the values it has
written through its pointers (`none` and `[]` when it has not). -/
structure CryptAnswer where
  ok : Bool
  alg : Option UInt8 := none
  key : List UInt8 := []
  nonce : List UInt8 := []
  counter0 : Option UInt32 := none

def mavCryptAlgChacha20 : UInt8 := 1
def mavCryptAlgAesctr128 : UInt8 := 2

def seqCounterBe (seq : UInt8) : List UInt8 :=
  let n := seq.toUInt32
  [((n >>> 24) &&& 0xFF).toUInt8, ((n >>> 16) &&& 0xFF).toUInt8,
    ((n >>> 8) &&& 0xFF).toUInt8, (n &&& 0xFF).toUInt8]

def mavlinkGetCryptConfig (s : HqcSession) (isTx : Bool) (seq : UInt8) : CryptAnswer :=
  if s.state ≠ .active then { ok := false }
  else
    let sel := s.aeadAlg
    if sel = 0 then { ok := false, alg := some sel }
    else if sel = mavCryptAlgChacha20 then
      let k := if isTx then s.kChachaTx else s.kChachaRx
      let iv := if isTx then s.ivTx else s.ivRx
      ⟨true, some sel, k.toList, iv.toList, some seq.toUInt32⟩
    else if sel = mavCryptAlgAesctr128 then
      let k := if isTx then s.kTx else s.kRx
      let iv := if isTx then s.ivTx else s.ivRx
      ⟨true, some sel, k.toList, iv.toList ++ seqCounterBe seq, some 0⟩
    else { ok := false, alg := some sel }

def HqcSession.prk (s : HqcSession) : Bytes 32 :=
  handshakePrk P s.rx.ssE s.rx.ssS s.rx.salt s.rx.sessionId

structure FinishAccepted (s : HqcSession) (m : Finish) : Prop where
  session : m.sessionId = s.rx.sessionId
  state : s.state = .waitCf
  role : m.role = 1
  tagLen : m.tagLen = 32
  done : s.BothDone
  tag : m.tag = finishTag P (s.prk P) s.th

def HqcSession.activated (s : HqcSession) (m : Finish) : HqcSession :=
  (((s.deriveKeys P (s.prk P)).setTh (thAddFinish P s.th m)).setRx s.rx.release).setState .active

variable {P} {s : HqcSession} {m : Finish}

theorem activated_state : (s.activated P m).state = .active := rfl

theorem activated_aeadAlg : (s.activated P m).aeadAlg = s.aeadAlg := rfl

inductive FinishOutcome (P : Platform ρ) (e : Env ρ) (s : HqcSession) (m : Finish) :
    HqcSession × List Effect → Prop
  | refused (value : Nat) (status : KexStatus) (detail : UInt8) :
      FinishOutcome P e s m
        (s.noteRx (e.millis 0), [.hqcStatus s.rx.sessionId value status detail])
  | rejected (s₀ : HqcSession) (hs : s.state = .waitCf) :
      FinishOutcome P e s m (s₀.wipe, [.hqcStatus s.rx.sessionId 0 .rejected 31])
  | accepted (ha : FinishAccepted P s m) :
      FinishOutcome P e s m ((s.noteRx (e.millis 0)).activated P m,
        [.enableSigningWithKey (signKey P s.rx.ssE s.rx.ssS s.rx.salt s.rx.sessionId),
          .hqcStatus s.rx.sessionId 0 .ok 0])

theorem finishError_eq_none :
    finishError s m = none ↔ m.sessionId = s.rx.sessionId ∧ s.state = .waitCf ∧ m.role = 1 ∧
      m.tagLen = 32 ∧ s.BothDone := by
  unfold finishError HqcSession.BothDone
  constructor
  · intro h
    split_ifs at h with h₁ h₂ h₃ h₄ h₅
    exact ⟨not_not.mp h₁, not_not.mp h₂, not_not.mp h₃, not_not.mp h₄, by simpa using h₅⟩
  · intro ⟨h₁, h₂, h₃, h₄, h₅, h₆⟩
    simp [h₁, h₂, h₃, h₄, h₅, h₆]

theorem verifyFinishAndDerive_eq_some {peerTag th : Bytes 32} {ssE ssS : Bytes apKemBytes}
    {salt : Bytes 16} {sessionId : UInt64} {s' : HqcSession} :
    verifyFinishAndDerive P s peerTag th ssE ssS salt sessionId = some s' ↔
      finishTag P (handshakePrk P ssE ssS salt sessionId) th = peerTag ∧
        s.deriveKeys P (handshakePrk P ssE ssS salt sessionId) = s' := by
  unfold verifyFinishAndDerive
  dsimp only
  split_ifs with h
  · simp [h]
  · simp [not_not.mp h]

theorem handleHqcFinish_spec (P : Platform ρ) (e : Env ρ) (s : HqcSession) (m : Finish) :
    FinishOutcome P e s m (handleHqcFinish P e s m) := by
  unfold handleHqcFinish
  dsimp only
  cases he : finishError (s.noteRx (e.millis 0)) m with
  | some err => exact .refused ..
  | none =>
    obtain ⟨hid, hst, hrole, hlen, hdone⟩ := finishError_eq_none.mp he
    cases hv : verifyFinishAndDerive P (s.noteRx (e.millis 0)) m.tag (s.noteRx (e.millis 0)).th
      (s.noteRx (e.millis 0)).rx.ssE (s.noteRx (e.millis 0)).rx.ssS
      (s.noteRx (e.millis 0)).rx.salt (s.noteRx (e.millis 0)).rx.sessionId with
    | none => exact .rejected _ hst
    | some s' =>
      obtain ⟨ht, rfl⟩ := verifyFinishAndDerive_eq_some.mp hv
      exact .accepted ⟨hid, hst, hrole, hlen, hdone, ht.symm⟩

theorem handleHqcFinish_accepted (e : Env ρ) (h : FinishAccepted P s m) :
    handleHqcFinish P e s m = ((s.noteRx (e.millis 0)).activated P m,
      [.enableSigningWithKey (signKey P s.rx.ssE s.rx.ssS s.rx.salt s.rx.sessionId),
        .hqcStatus s.rx.sessionId 0 .ok 0]) := by
  have he : finishError (s.noteRx (e.millis 0)) m = none :=
    finishError_eq_none.mpr ⟨h.session, h.state, h.role, h.tagLen, h.done⟩
  have hv : verifyFinishAndDerive P (s.noteRx (e.millis 0)) m.tag s.th s.rx.ssE s.rx.ssS s.rx.salt
      s.rx.sessionId = some ((s.noteRx (e.millis 0)).deriveKeys P (s.prk P)) :=
    verifyFinishAndDerive_eq_some.mpr ⟨h.tag.symm, rfl⟩
  unfold handleHqcFinish
  simp only [he, HqcSession.noteRx_rx, HqcSession.noteRx_th, hv]
  rfl

theorem mavlinkGetCryptConfig_chacha20 (hs : s.state = .active)
    (ha : s.aeadAlg = mavCryptAlgChacha20) (isTx : Bool) (seq : UInt8) :
    mavlinkGetCryptConfig s isTx seq = ⟨true, some mavCryptAlgChacha20,
      (if isTx then s.kChachaTx else s.kChachaRx).toList,
      (if isTx then s.ivTx else s.ivRx).toList, some seq.toUInt32⟩ := by
  simp [mavlinkGetCryptConfig, hs, ha, mavCryptAlgChacha20]

theorem mavlinkGetCryptConfig_aesctr128 (hs : s.state = .active)
    (ha : s.aeadAlg = mavCryptAlgAesctr128) (isTx : Bool) (seq : UInt8) :
    mavlinkGetCryptConfig s isTx seq = ⟨true, some mavCryptAlgAesctr128,
      (if isTx then s.kTx else s.kRx).toList,
      (if isTx then s.ivTx else s.ivRx).toList ++ seqCounterBe seq, some 0⟩ := by
  simp [mavlinkGetCryptConfig, hs, ha, mavCryptAlgChacha20, mavCryptAlgAesctr128]

theorem mavlinkGetCryptConfig_ok {isTx : Bool} {seq : UInt8} :
    (mavlinkGetCryptConfig s isTx seq).ok = true ↔ s.state = .active ∧
      (s.aeadAlg = mavCryptAlgChacha20 ∨ s.aeadAlg = mavCryptAlgAesctr128) := by
  constructor
  · intro h
    unfold mavlinkGetCryptConfig at h
    dsimp only at h
    split at h
    · exact nomatch h
    · rename_i hs
      refine ⟨not_not.mp hs, ?_⟩
      split at h
      · exact nomatch h
      · split at h
        · exact .inl ‹_›
        · split at h
          · exact .inr ‹_›
          · exact nomatch h
  · rintro ⟨hs, ha | ha⟩
    · rw [mavlinkGetCryptConfig_chacha20 hs ha]
    · rw [mavlinkGetCryptConfig_aesctr128 hs ha]

end KemtlsMavlink
