import KemtlsMavlink.Session.Sha256
import KemtlsMavlink.Session.Step

namespace KemtlsMavlink

open Library

/-- The vendored hash with a stand-in for the KEM: randomness 0 is an entropy
failure, any other byte fills the ciphertext and the secret. -/
def samplePlatform : Platform UInt8 where
  sha256 := sha256
  apKemEnc := fun _ _ r ↦ ⟨decide (r ≠ 0), Vector.replicate _ r, Vector.replicate _ r⟩
  kexCode
    | .ok => 0 | .inProgress => 1 | .rejected => 2 | .badLen => 3 | .badSeq => 4
    | .internal => 5 | .encUnav => 6 | .timeout => 7 | .other code => code

def samplePdk : List UInt8 :=
  [0x4B, 0x45, 0x4D, 0x54, 1, 0, 1, 0, 0, 0, 0, 0, 0, 0, 0, 0, 1, 0, 0, 0,
    0x6e, 0x34, 0x0b, 0x9c, 0xff, 0xb3, 0x7a, 0x98, 0x9c, 0xa5, 0x44, 0xe6, 0xbb, 0x78, 0x0a, 0x2c,
    0x78, 0x90, 0x1d, 0x3f, 0xb3, 0x37, 0x38, 0x76, 0x85, 0x11, 0xa3, 0x06, 0x17, 0xaf, 0xa0, 0x1d,
    0, 0, 0, 0, 0]

def sampleFs : PdkFs := ⟨some 57, true, samplePdk, some 57, fun _ req ↦ req⟩

def sampleEnv (now : UInt32) (rand : UInt8) : Env UInt8 :=
  ⟨fun _ ↦ now, some fun _ ↦ 0, some fun _ ↦ 0, some fun _ ↦ 0, some fun _ ↦ 0, sampleFs, rand⟩

def sampleHello (pkLen : UInt32) : Hello := ⟨7, pkLen, 1, 1, 0, 1, Bytes.zeros 16, Bytes.zeros 32⟩

def sampleChunk (offset : UInt32) (count : UInt16) : PkChunk := ⟨7, offset, count, Bytes.zeros 220⟩

def sampleAck (kind : UInt8) : CtAck := ⟨7, kind, 4620, 0⟩

def sampleTick (now : UInt32) : Input UInt8 := ⟨.tick, sampleEnv now 0⟩

/-- The session of a channel after its first `HELLO`, with a key of `pkLen` bytes
announced. -/
def sampleSession (pkLen : UInt32) : HqcSession :=
  (handleHqcHello samplePlatform (sampleEnv 0 1) (.fresh (Bytes.zeros 32) (Bytes.zeros 32))
    (sampleHello pkLen)).1

/-- A handshake with a key of one byte, up to the acknowledgement of both
ciphertexts; `r` is the randomness of the static one. -/
def sampleHandshake (r : UInt8) : List (Input UInt8) :=
  [⟨.hello (sampleHello 1), sampleEnv 0 r⟩, ⟨.pkChunk (sampleChunk 0 1), sampleEnv 1 2⟩,
    ⟨.ctAck (sampleAck 0), sampleEnv 2 0⟩, ⟨.ctAck (sampleAck 1), sampleEnv 3 0⟩]

def sampleWaiting (r : UInt8) : HqcSession :=
  (session samplePlatform).final (.fresh (Bytes.zeros 32) (Bytes.zeros 32)) (sampleHandshake r)

def sampleFinish (r : UInt8) : Finish :=
  ⟨7, 1, 32, finishTag samplePlatform ((sampleWaiting r).prk samplePlatform) (sampleWaiting r).th⟩

theorem sampleWaiting_aeadAlg : (sampleWaiting 1).aeadAlg = 1 := by decide +kernel

theorem sampleFinish_accepted {r : UInt8} (hr : r ∈ [1, 3]) :
    FinishAccepted samplePlatform (sampleWaiting r) (sampleFinish r) where
  session := by revert r; decide +kernel
  state := by revert r; decide +kernel
  role := rfl
  tagLen := rfl
  done := by constructor <;> revert r <;> decide +kernel
  tag := rfl

def sampleActivation (r : UInt8) : List (Input UInt8) :=
  sampleHandshake r ++ [⟨.finish (sampleFinish r), sampleEnv 4 0⟩]

def sampleActive (r : UInt8) : HqcSession :=
  ((sampleWaiting r).noteRx ((sampleEnv 4 0).millis 0)).activated samplePlatform (sampleFinish r)

theorem sampleActive_eq {r : UInt8} (hr : r ∈ [1, 3]) :
    (session samplePlatform).final (.fresh (Bytes.zeros 32) (Bytes.zeros 32))
      (sampleActivation r) = sampleActive r := by
  rw [sampleActivation, Machine.final_snoc]
  exact congrArg Prod.fst (handleHqcFinish_accepted (sampleEnv 4 0) (sampleFinish_accepted hr))

theorem sampleActive_state (r : UInt8) : (sampleActive r).state = .active := by
  rw [sampleActive, activated_state]

theorem sampleActive_aeadAlg : (sampleActive 1).aeadAlg = 1 := by
  rw [sampleActive, activated_aeadAlg, HqcSession.noteRx_aeadAlg, sampleWaiting_aeadAlg]

end KemtlsMavlink
