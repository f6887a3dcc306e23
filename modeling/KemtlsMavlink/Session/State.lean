import KemtlsMavlink.Session.Transcript
import Mathlib.Logic.Function.Basic

namespace KemtlsMavlink

open Library

inductive HqcState
  | idle | helloRcvd | pkRx | encapReady | encapDone | ctTx | waitCf | active | fail
  deriving DecidableEq, Repr

/-- One outgoing ciphertext of `HqcRxBuf`: for `ct_e` the fields `cte`,
`cte_len`, `cte_acked` and `cte_sent`, for `ct_s` the `cts` ones. -/
structure CtStream where
  buf : Option Block := none
  len : Nat := 0
  acked : List Bool := []
  sent : Nat := 0

/-- The retry map is total here: a missing entry reads as 0 wherever the code
looks one up. -/
structure HqcRxBuf where
  sessionId : UInt64 := 0
  pkLen : Nat := 0
  version : UInt8 := 1
  suiteId : UInt8 := 1
  flags : UInt8 := 0
  salt : Bytes 16 := Bytes.zeros 16
  ssS : Bytes apKemBytes := Bytes.zeros apKemBytes
  ssE : Bytes apKemBytes := Bytes.zeros apKemBytes
  pke : Option Block := none
  pkeRcvd : Nat := 0
  pkeAcked : List Bool := []
  pks : Option Block := none
  mtu : Nat := 220
  window : Nat := 8
  retries : Nat → UInt8 := fun _ ↦ 0
  maxRetries : UInt8 := 3
  cte : CtStream := {}
  cts : CtStream := {}
  aeadOffer : UInt8 := 1
  rc : Bytes 32 := Bytes.zeros 32
  rs : Bytes 32 := Bytes.zeros 32

structure HqcSession where
  state : HqcState := .idle
  rx : HqcRxBuf := {}
  aeadAlg : UInt8 := 1
  negotiatedMtu : Nat := 220
  negotiatedWindow : Nat := 8
  th : Bytes 32 := Bytes.zeros 32
  ms : Bytes 32 := Bytes.zeros 32
  kTx : Bytes 16 := Bytes.zeros 16
  kRx : Bytes 16 := Bytes.zeros 16
  ivTx : Bytes 12 := Bytes.zeros 12
  ivRx : Bytes 12 := Bytes.zeros 12
  tStart : UInt32 := 0
  tLastRx : UInt32 := 0
  tLastTx : UInt32 := 0
  owner : Bool := false
  kChachaTx : Bytes 32
  kChachaRx : Bytes 32

/-- The session of a channel that has seen no handshake message: every field
has its default, the two ChaCha20 keys what the memory held. -/
def HqcSession.fresh (kChachaTx kChachaRx : Bytes 32) : HqcSession :=
  { kChachaTx := kChachaTx, kChachaRx := kChachaRx }

/-- What a read of the key file delivers at a file position for a number of
bytes asked for: at most `count`, and nothing (an error or the end of the file)
when `count` is 0. -/
structure PdkFs where
  statSize : Option Nat
  openOk : Bool
  content : List UInt8
  statSize2 : Option Nat
  count : Nat → Nat → Nat

def PdkFs.read (fs : PdkFs) (pos req : Nat) : List UInt8 :=
  (fs.content.drop pos).take (min req (fs.count pos req))

/-- What one handler call gets from outside: the successive readings of
`AP_HAL::millis()`, the results of the four allocations with what the memory
holds, the key file, and the randomness of `ap_kem_enc`. -/
structure Env (ρ : Type) where
  millis : Nat → UInt32
  mallocPke : Option (Nat → UInt8)
  callocPks : Option (Nat → UInt8)
  mallocCts : Option (Nat → UInt8)
  mallocCte : Option (Nat → UInt8)
  fs : PdkFs
  rand : ρ

namespace HqcRxBuf

def pkChunks (rx : HqcRxBuf) : Nat := (rx.pkLen + rx.mtu - 1) / rx.mtu

/-- `aead_offer`, `rc` and `rs` keep their values. -/
def reset (rx : HqcRxBuf) : HqcRxBuf := { aeadOffer := rx.aeadOffer, rc := rx.rc, rs := rx.rs }

/-- Kind 0 is the ephemeral ciphertext, every other kind the static one. -/
def stream (rx : HqcRxBuf) (kind : UInt8) : CtStream := if kind = 0 then rx.cte else rx.cts

def setStream (rx : HqcRxBuf) (kind : UInt8) (st : CtStream) : HqcRxBuf :=
  if kind = 0 then { rx with cte := st } else { rx with cts := st }

@[simp] theorem setStream_sessionId (rx : HqcRxBuf) (kind : UInt8) (st : CtStream) :
    (rx.setStream kind st).sessionId = rx.sessionId := by
  unfold setStream
  split <;> rfl

@[simp] theorem setStream_mtu (rx : HqcRxBuf) (kind : UInt8) (st : CtStream) :
    (rx.setStream kind st).mtu = rx.mtu := by
  unfold setStream
  split <;> rfl

@[simp] theorem setStream_window (rx : HqcRxBuf) (kind : UInt8) (st : CtStream) :
    (rx.setStream kind st).window = rx.window := by
  unfold setStream
  split <;> rfl

@[simp] theorem setStream_retries (rx : HqcRxBuf) (kind : UInt8) (st : CtStream) :
    (rx.setStream kind st).retries = rx.retries := by
  unfold setStream
  split <;> rfl

theorem forall_stream {Q : CtStream → Prop} {rx : HqcRxBuf} (h₀ : Q rx.cte) (h₁ : Q rx.cts)
    (kind : UInt8) : Q (rx.stream kind) := by
  unfold stream
  split
  · exact h₀
  · exact h₁

theorem stream_rel {R : CtStream → CtStream → Prop} {rx rx' : HqcRxBuf} (h₀ : R rx.cte rx'.cte)
    (h₁ : R rx.cts rx'.cts) (kind : UInt8) : R (rx.stream kind) (rx'.stream kind) := by
  unfold stream
  split
  · exact h₀
  · exact h₁

def clampKexParams (rx : HqcRxBuf) : HqcRxBuf :=
  let rx := if rx.mtu > 220 then { rx with mtu := 220 } else rx
  let rx := if rx.mtu < 32 then { rx with mtu := 32 } else rx
  let rx := if rx.window > 8 then { rx with window := 8 } else rx
  if rx.window < 1 then { rx with window := 1 } else rx

end HqcRxBuf

namespace CtStream

def chunks (st : CtStream) (mtu : Nat) : Nat := (st.len + mtu - 1) / mtu

def allAcked (v : List Bool) : Bool := !v.isEmpty && v.all id

def done (st : CtStream) : Bool := allAcked st.acked && st.len ≠ 0

def sizedAcks (st : CtStream) (mtu : Nat) : List Bool :=
  if st.acked.length ≠ st.chunks mtu then List.replicate (st.chunks mtu) false else st.acked

/-- The fragments below `sent_bytes` that are not acknowledged. -/
def inflight (acked : List Bool) (chunks mtu sent : Nat) : Nat :=
  (List.range chunks).countP fun i ↦ !acked.getD i false && i * mtu < sent

end CtStream

def HqcRxBuf.Sized (rx : HqcRxBuf) : Prop :=
  rx.cte.acked.length = rx.cte.chunks rx.mtu ∧ rx.cts.acked.length = rx.cts.chunks rx.mtu

/-- The `CT_CHUNK` at offset `off`: up to `mtu` bytes in a zeroed buffer of 220. -/
def ctChunkAt (ct : Block) (sessionId : UInt64) (kind : UInt8) (mtu len off : Nat) : CtChunk :=
  let n := min mtu (len - off)
  ⟨sessionId, kind, off, n, ct.read off n ++ List.replicate (220 - n) 0⟩

/-- `while (budget-- && off < len)`: the loop that sends new fragments, with the
number of window slots left; returns the offset it reaches. -/
def sendWindow (ct : Block) (sessionId : UInt64) (kind : UInt8) (mtu len : Nat) :
    Nat → Nat → List Effect × Nat
  | 0, off => ([], off)
  | budget + 1, off =>
    if off < len then
      let r := sendWindow ct sessionId kind mtu len budget (off + min mtu (len - off))
      (.ctChunk (ctChunkAt ct sessionId kind mtu len off) :: r.1, r.2)
    else ([], off)

theorem sendWindow_chunks (ct : Block) (sessionId : UInt64) (kind : UInt8) (mtu len : Nat)
    (budget off : Nat) : ∀ o ∈ (sendWindow ct sessionId kind mtu len budget off).1,
      ∃ off', o = .ctChunk (ctChunkAt ct sessionId kind mtu len off') := by
  induction budget generalizing off with
  | zero => simp [sendWindow]
  | succ budget ih =>
    unfold sendWindow
    split_ifs with h
    · rintro o (_ | ⟨_, ho⟩)
      · exact ⟨off, rfl⟩
      · exact ih _ o ho
    · simp

namespace HqcSession

def reset (s : HqcSession) : HqcSession :=
  { s with
    th := Bytes.zeros 32, ms := Bytes.zeros 32
    kTx := Bytes.zeros 16, kRx := Bytes.zeros 16
    ivTx := Bytes.zeros 12, ivRx := Bytes.zeros 12
    kChachaTx := Bytes.zeros 32, kChachaRx := Bytes.zeros 32
    rx := s.rx.reset
    state := .idle
    aeadAlg := 1
    negotiatedMtu := 220, negotiatedWindow := 8
    tLastRx := 0, tLastTx := 0 }

def onHelloStart (s : HqcSession) (now : UInt32) : HqcSession :=
  { s with owner := true, tStart := now, tLastRx := now, tLastTx := now }

def noteRx (s : HqcSession) (now : UInt32) : HqcSession := { s with tLastRx := now }

def noteTx (s : HqcSession) (now : UInt32) : HqcSession := { s with tLastTx := now }

def setRx (s : HqcSession) (rx : HqcRxBuf) : HqcSession := { s with rx := rx }

def setState (s : HqcSession) (state : HqcState) : HqcSession := { s with state := state }

def setTh (s : HqcSession) (th : Bytes 32) : HqcSession := { s with th := th }

def wipe (s : HqcSession) : HqcSession := s.reset.setState .fail

def BothDone (s : HqcSession) : Prop := s.rx.cte.done = true ∧ s.rx.cts.done = true

variable (s : HqcSession) (now : UInt32) (rx : HqcRxBuf) (state : HqcState) (th : Bytes 32)

@[simp] theorem noteRx_rx : (s.noteRx now).rx = s.rx := rfl
@[simp] theorem noteRx_state : (s.noteRx now).state = s.state := rfl
@[simp] theorem noteRx_aeadAlg : (s.noteRx now).aeadAlg = s.aeadAlg := rfl
@[simp] theorem noteRx_th : (s.noteRx now).th = s.th := rfl
@[simp] theorem noteTx_rx : (s.noteTx now).rx = s.rx := rfl
@[simp] theorem noteTx_state : (s.noteTx now).state = s.state := rfl
@[simp] theorem setRx_rx : (s.setRx rx).rx = rx := rfl
@[simp] theorem setRx_state : (s.setRx rx).state = s.state := rfl
@[simp] theorem setRx_th : (s.setRx rx).th = s.th := rfl
@[simp] theorem setState_rx : (s.setState state).rx = s.rx := rfl
@[simp] theorem setState_state : (s.setState state).state = state := rfl
@[simp] theorem setState_th : (s.setState state).th = s.th := rfl
@[simp] theorem setTh_rx : (s.setTh th).rx = s.rx := rfl
@[simp] theorem setTh_state : (s.setTh th).state = s.state := rfl
@[simp] theorem setTh_th : (s.setTh th).th = th := rfl

end HqcSession

end KemtlsMavlink
