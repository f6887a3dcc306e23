import KemtlsMavlink.Library.Memory
import KemtlsMavlink.Library.Modular
import Mathlib.Data.List.TakeWhile

namespace KemtlsMavlink

abbrev Bytes (n : Nat) := Vector UInt8 n

abbrev Bytes.zeros (n : Nat) : Bytes n := Vector.replicate n 0

def apKemPublicKeyBytes : Nat := 2249
def apKemCiphertextBytes : Nat := 4433
def apKemBytes : Nat := 64

/-- The status codes of the HQC dialect. Its generated header is not part of
the repository, so their byte values are left to `Platform.kexCode`. A status
that the code does not send is `other`. -/
inductive KexStatus
  | ok | inProgress | rejected | badLen | badSeq | internal | encUnav | timeout
  | other (code : UInt8)
  deriving DecidableEq, Repr

/-- What a call of `ap_kem_enc` leaves behind: its result, the ciphertext
buffer (which a failing call may have overwritten) and the shared secret. -/
structure KemOut where
  ok : Bool
  ct : Bytes apKemCiphertextBytes
  ss : Bytes apKemBytes

/-- The code that the session calls: `sha256`, `ap_kem_enc` as a function of the
public key, of the previous contents of the ciphertext buffer and of fresh
randomness `ρ`, and the byte values of the dialect's status codes. -/
structure Platform (ρ : Type) where
  sha256 : List UInt8 → Bytes 32
  apKemEnc : List UInt8 → List UInt8 → ρ → KemOut
  kexCode : KexStatus → UInt8

def le32 (v : UInt32) : List UInt8 :=
  [(v &&& 0xFF).toUInt8, ((v >>> 8) &&& 0xFF).toUInt8, ((v >>> 16) &&& 0xFF).toUInt8,
    ((v >>> 24) &&& 0xFF).toUInt8]

def le64 (v : UInt64) : List UInt8 :=
  (List.range 8).map fun i ↦ ((v >>> UInt64.ofNat (8 * i)) &&& 0xFF).toUInt8

theorem toNat_and_ff (n : Nat) : n &&& 255 = n % 256 := Nat.and_two_pow_sub_one_eq_mod n 8

theorem le32_inj {v w : UInt32} (h : le32 v = le32 w) : v = w := by
  have hv := v.toNat_lt
  have hw := w.toNat_lt
  simp only [le32, List.cons.injEq, and_true, ← UInt8.toNat_inj, UInt32.toNat_toUInt8,
    UInt32.toNat_and, UInt32.toNat_shiftRight, UInt32.reduceToNat, toNat_and_ff,
    Nat.shiftRight_eq_div_pow, Nat.reduceMod, Nat.reducePow, Nat.mod_mod] at h
  rw [← UInt32.toNat_inj]
  omega

theorem le64_inj {v w : UInt64} (h : le64 v = le64 w) : v = w := by
  rw [← UInt64.toNat_inj]
  apply Library.eq_of_digits (b := 256) (n := 8) v.toNat_lt w.toNat_lt
  intro i hi
  have hb := List.map_inj_left.mp h i (List.mem_range.mpr hi)
  have hs : (UInt64.ofNat (8 * i)).toNat % 64 = 8 * i := by
    rw [UInt64.toNat_ofNat']
    omega
  rw [← UInt8.toNat_inj, UInt64.toNat_toUInt8, UInt64.toNat_toUInt8, UInt64.toNat_and,
    UInt64.toNat_and, UInt64.toNat_shiftRight, UInt64.toNat_shiftRight, hs,
    Nat.shiftRight_eq_div_pow, Nat.shiftRight_eq_div_pow, Nat.pow_mul] at hb
  simpa [toNat_and_ff] using hb

theorem le32_append_inj {v w : UInt32} {xs ys : List UInt8} (h : le32 v ++ xs = le32 w ++ ys) :
    v = w ∧ xs = ys :=
  (List.append_inj h rfl).imp_left le32_inj

theorem le64_append_inj {v w : UInt64} {xs ys : List UInt8} (h : le64 v ++ xs = le64 w ++ ys) :
    v = w ∧ xs = ys :=
  (List.append_inj h rfl).imp_left le64_inj

theorem le16_inj {v w : UInt16} (h₀ : (v &&& 0xFF).toUInt8 = (w &&& 0xFF).toUInt8)
    (h₁ : ((v >>> 8) &&& 0xFF).toUInt8 = ((w >>> 8) &&& 0xFF).toUInt8) : v = w := by
  have hv := v.toNat_lt
  have hw := w.toNat_lt
  simp only [← UInt8.toNat_inj, UInt16.toNat_toUInt8,
    UInt16.toNat_and, UInt16.toNat_shiftRight, UInt16.reduceToNat, toNat_and_ff,
    Nat.shiftRight_eq_div_pow, Nat.reduceMod, Nat.reducePow, Nat.mod_mod] at h₀ h₁
  rw [← UInt16.toNat_inj]
  omega

def ascii (s : String) : List UInt8 := s.toList.map fun c ↦ UInt8.ofNat c.toNat

variable {ρ : Type} (P : Platform ρ)

def hmacSha256 (key msg : List UInt8) : Bytes 32 :=
  let k0 := if key.length > 64 then (P.sha256 key).toList ++ List.replicate 32 0
    else key ++ List.replicate (64 - key.length) 0
  let ipad := k0.map (· ^^^ 0x36)
  let opad := k0.map (· ^^^ 0x5c)
  let ihash := P.sha256 (ipad ++ msg)
  P.sha256 (opad ++ ihash.toList)

def hkdfExtract (salt : Bytes 32) (ikm : List UInt8) : Bytes 32 :=
  hmacSha256 P salt.toList ikm

def hkdfPrefix : List UInt8 := ascii "ardupilot-hqc-v1:"

/-- The label reaches the code as a C string, so it ends before its first NUL. -/
def hkdfInfo (label context : List UInt8) : List UInt8 :=
  hkdfPrefix ++ label.takeWhile (· ≠ 0) ++ context ++ [0x01]

def hkdfExpandLabel (prk : Bytes 32) (label context : List UInt8) (l : Nat) : Bytes (min l 32) :=
  (hmacSha256 P prk.toList (hkdfInfo label context)).take l

theorem takeWhile_ne_zero {label : List UInt8} (h : 0 ∉ label) :
    label.takeWhile (· ≠ 0) = label := by
  apply List.takeWhile_eq_self_iff.mpr
  intro b hb
  exact decide_eq_true fun hz ↦ h (hz ▸ hb)

/-- Nothing in the message of the MAC marks the end of the label: labels and contexts are
told apart by what they are together. -/
theorem hkdfInfo_eq_iff (label label' context context' : List UInt8) (h : 0 ∉ label)
    (h' : 0 ∉ label') :
    (hkdfInfo label context = hkdfInfo label' context' ↔ label ++ context = label' ++ context') ∧
      (hkdfInfo label context = hkdfInfo label' context' →
        label.length = label'.length ∨ context.length = context'.length →
        label = label' ∧ context = context') := by
  have hiff : hkdfInfo label context = hkdfInfo label' context' ↔
      label ++ context = label' ++ context' := by
    rw [hkdfInfo, hkdfInfo, takeWhile_ne_zero h, takeWhile_ne_zero h', List.append_left_inj,
      List.append_assoc, List.append_assoc, List.append_right_inj]
  refine ⟨hiff, fun he hl ↦ ?_⟩
  rcases hl with hl | hl
  · exact List.append_inj (hiff.mp he) hl
  · exact List.append_inj' (hiff.mp he) hl

theorem hkdfInfo_key_iv : hkdfInfo (ascii "key:tx") [] ≠ hkdfInfo (ascii "iv:tx") [] := by
  have hiff := (hkdfInfo_eq_iff (ascii "key:tx") (ascii "iv:tx") [] [] (by decide) (by decide)).1
  exact fun he ↦ absurd (hiff.mp he) (by decide)

theorem hkdfInfo_collision :
    (ascii "iv:tx", ([] : List UInt8)) ≠ (ascii "iv:", ascii "tx") ∧
      0 ∉ ascii "iv:tx" ∧ 0 ∉ ascii "iv:" ∧
      hkdfInfo (ascii "iv:tx") [] = hkdfInfo (ascii "iv:") (ascii "tx") := by
  decide

end KemtlsMavlink
