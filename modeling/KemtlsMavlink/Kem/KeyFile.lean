import KemtlsMavlink.Kem.ApKem
import KemtlsMavlink.Library.Crc
import KemtlsMavlink.Library.LittleEndian
import KemtlsMavlink.Session.Hello

namespace KemtlsMavlink

open Library

variable {ρ : Type} {n : Nat} (P : Platform ρ)

inductive Member
  | u8 (v : UInt8)
  | u16 (v : UInt16)
  | u32 (v : UInt32)
  | u64 (v : UInt64)
  | array (bs : List UInt8)

/-- Its bytes on a little-endian host. -/
def Member.bytes : Member → List UInt8
  | .u8 v => leBytes 1 v.toNat
  | .u16 v => leBytes 2 v.toNat
  | .u32 v => leBytes 4 v.toNat
  | .u64 v => leBytes 8 v.toNat
  | .array bs => bs

inductive FormatCode
  | B | H | I | Q
  | s (n : Nat)

inductive PyValue
  | int (v : Nat)
  | bytes (bs : List UInt8)

/-- An integer that does not fit is an error; a byte string is cut, or filled up
with zeros. -/
def structPackItem : FormatCode → PyValue → Option (List UInt8)
  | .B, .int v => if v < 2 ^ 8 then some (leBytes 1 v) else none
  | .H, .int v => if v < 2 ^ 16 then some (leBytes 2 v) else none
  | .I, .int v => if v < 2 ^ 32 then some (leBytes 4 v) else none
  | .Q, .int v => if v < 2 ^ 64 then some (leBytes 8 v) else none
  | .s n, .bytes bs => some (bs.take n ++ List.replicate (n - bs.length) 0)
  | _, _ => none

def structPack : List FormatCode → List PyValue → Option (List UInt8)
  | [], [] => some []
  | c :: cs, v :: vs => do
    let item ← structPackItem c v
    let rest ← structPack cs vs
    return item ++ rest
  | _, _ => none

/-- One of the eight rounds of `crc32_buf` on the low byte. -/
def crc32Round (x : UInt32) : UInt32 := (x >>> 1) ^^^ (if x &&& 1 ≠ 0 then 0xEDB88320 else 0)

def crc32Byte (crc : UInt32) (d : UInt8) : UInt32 :=
  let x := crc32Round^[8] ((crc ^^^ d.toUInt32) &&& 0xFF)
  (crc >>> 8) ^^^ x

/-- `crc32_buf`, the same in the tool and in `AP_KEM`. -/
def crc32Buf (data : List UInt8) : UInt32 := data.foldl crc32Byte 0xFFFFFFFF ^^^ 0xFFFFFFFF

/-- `zlib.crc32`, by the definition of CRC-32. -/
def zlibCrc32 (data : List UInt8) : Nat := (Crc.crc32 (data.map UInt8.toBitVec)).toNat

/-- `compute_sha256`, which refuses a null pointer. -/
def computeSha256 (data : Option (List UInt8)) : Option (Bytes 32) := data.map P.sha256

namespace KemtlsPackHqc128

structure KemtlsPkFileHdr where
  magic : UInt32
  version : UInt16
  suiteId : UInt8
  alg : UInt8
  createdUnix : UInt64
  pkLen : UInt32
  pkFingerprint : Bytes 32
  crc32 : UInt32

def KemtlsPkFileHdr.bytes (h : KemtlsPkFileHdr) : List UInt8 :=
  [Member.u32 h.magic, .u16 h.version, .u8 h.suiteId, .u8 h.alg, .u64 h.createdUnix, .u32 h.pkLen,
    .array h.pkFingerprint.toList, .u32 h.crc32].flatMap Member.bytes

def header (pk : Bytes 2249) (now : UInt64) : KemtlsPkFileHdr where
  magic := 0x544D454B
  version := 1
  suiteId := 1
  alg := 0
  createdUnix := now
  pkLen := UInt32.ofNat pk.toList.length
  pkFingerprint := P.sha256 pk.toList
  crc32 := crc32Buf pk.toList

structure FileIo where
  fopen : Bool
  writeHdr : Nat
  writePk : Nat

/-- `main`: the file that it writes, or its exit code. `keypair` is what the key
generation puts into `pk`, if it succeeds. -/
def main (keypair : Option (Bytes 2249)) (now : UInt64) (io : FileIo) :
    Except Nat (List UInt8) :=
  match keypair with
  | none => .error 1
  | some pk =>
    let hdr := header P pk now
    if !io.fopen then .error 2
    else if io.writeHdr ≠ hdr.bytes.length then .error 3
    else if io.writePk ≠ pk.toList.length then .error 4
    else .ok (hdr.bytes ++ pk.toList)

end KemtlsPackHqc128

/-- `make_pdk_from_so.py`, as far as the file with the public key. `none` is an
exit or an exception; `int(time.time())` has no bound. -/
def makePdkFromSo (keypair : Option (List UInt8)) (now : Nat) : Option (List UInt8) := do
  let pkBytes ← keypair
  let fp := P.sha256 pkBytes
  let crc := zlibCrc32 pkBytes &&& 0xFFFFFFFF
  let hdr ← structPack [.I, .H, .B, .B, .Q, .I, .s 32, .I]
    [.int 0x544D454B, .int 1, .int 1, .int 0, .int now, .int pkBytes.length, .bytes fp.toList,
      .int crc]
  return hdr ++ pkBytes

def kemtMagic : UInt32 := 0x544D454B

structure KemtlsPkFileHdr where
  magic : UInt32
  version : UInt16
  suiteId : UInt8
  alg : UInt8
  createdUnix : UInt64
  pkLen : UInt32
  pkFingerprint : Bytes 32
  crc32 : UInt32

def KemtlsPkFileHdr.bytes (h : KemtlsPkFileHdr) : List UInt8 :=
  [Member.u32 h.magic, .u16 h.version, .u8 h.suiteId, .u8 h.alg, .u64 h.createdUnix, .u32 h.pkLen,
    .array h.pkFingerprint.toList, .u32 h.crc32].flatMap Member.bytes

def kemtlsPkFileHdrSize : Nat := 56

def KemtlsPkFileHdr.ofBytes (b : List UInt8) : KemtlsPkFileHdr where
  magic := UInt32.ofNat (leNat (b.take 4))
  version := UInt16.ofNat (leNat ((b.drop 4).take 2))
  suiteId := UInt8.ofNat (leNat ((b.drop 6).take 1))
  alg := UInt8.ofNat (leNat ((b.drop 7).take 1))
  createdUnix := UInt64.ofNat (leNat ((b.drop 8).take 8))
  pkLen := UInt32.ofNat (leNat ((b.drop 16).take 4))
  pkFingerprint := Bytes.ofList 32 ((b.drop 20).take 32)
  crc32 := UInt32.ofNat (leNat ((b.drop 52).take 4))

/-- What the calls on the new file answer: errors of `open` and `rename` with their
texts, counts of the two calls of `write` and the result of `fsync`. -/
structure SaveIo where
  openErr : Option String
  writeHdr : Int
  writePk : Int
  fsync : Int
  renameErr : Option String

/-- The header that `save_kemtls_pk_atomic` writes. A null `pk` comes with the
length 0. -/
def savedHdr (pk : Option (List UInt8)) (suiteId alg : UInt8) (createdUnix : UInt64)
    (fingerprint32 : Option (Bytes 32)) : KemtlsPkFileHdr :=
  let data := pk.getD []
  let fp := match fingerprint32 with
    | some fp => fp
    | none =>
      if data.length ≠ 0 then (computeSha256 P pk).getD (Bytes.zeros 32) else Bytes.zeros 32
  { magic := kemtMagic
    version := 1
    suiteId := suiteId
    alg := alg
    createdUnix := createdUnix
    pkLen := UInt32.ofNat data.length
    pkFingerprint := fp
    crc32 := if data.length ≠ 0 then crc32Buf data else 0 }

/-- `save_kemtls_pk_atomic`: what the file at the path holds then, or the text of
the error. -/
def saveKemtlsPkAtomic (io : SaveIo) (pk : Option (List UInt8)) (suiteId alg : UInt8)
    (createdUnix : UInt64) (fingerprint32 : Option (Bytes 32)) : Except String (List UInt8) :=
  match io.openErr with
  | some err => .error err
  | none =>
    let data := pk.getD []
    let hdr := savedHdr P pk suiteId alg createdUnix fingerprint32
    if io.writeHdr ≠ kemtlsPkFileHdrSize then .error "write hdr failed"
    else if data.length ≠ 0 ∧ io.writePk ≠ data.length then .error "write pk failed"
    else if io.fsync ≠ 0 then .error "fsync file failed"
    else
      match io.renameErr with
      | some err => .error err
      | none => .ok (hdr.bytes ++ data)

structure KemtlsPk where
  pk : List UInt8
  suiteId : UInt8
  alg : UInt8
  createdUnix : UInt64
  fingerprint32 : Bytes 32

def maxPkLen : UInt32 := 32 * 1024

/-- `load_kemtls_pk` on what `fread` delivers of a file, or on the error of `fopen`.
An empty vector has a null `data()` unless it keeps storage from before. -/
def loadKemtlsPk (storage : Bool) (file : Except String (List UInt8)) : Except String KemtlsPk :=
  match file with
  | .error err => .error err
  | .ok bytes =>
    let hdr := KemtlsPkFileHdr.ofBytes (bytes.take kemtlsPkFileHdrSize)
    let outPk := (bytes.drop kemtlsPkFileHdrSize).take hdr.pkLen.toNat
    if bytes.length < kemtlsPkFileHdrSize then .error "read hdr failed"
    else if hdr.magic ≠ kemtMagic then .error "bad magic"
    else if hdr.version ≠ 1 then .error "unsupported version"
    else if hdr.pkLen > maxPkLen then .error "pk_len too large"
    else if hdr.pkLen ≠ 0 ∧ outPk.length ≠ hdr.pkLen.toNat then .error "read pk failed"
    else if crc32Buf outPk ≠ hdr.crc32 then .error "crc mismatch"
    else
      let data := if outPk.isEmpty && !storage then none else some outPk
      let localFp := (computeSha256 P data).getD (Bytes.zeros 32)
      let fileFpZero := hdr.pkFingerprint.toList.all (· = 0)
      if !fileFpZero ∧ localFp ≠ hdr.pkFingerprint then .error "fingerprint mismatch"
      else .ok ⟨outPk, hdr.suiteId, hdr.alg, hdr.createdUnix, hdr.pkFingerprint⟩

theorem toBitVec_crc32Round (x : UInt32) :
    (crc32Round x).toBitVec = Crc.shift 0xEDB88320#32 x.toBitVec := by
  have hbit : x &&& 1 ≠ 0 ↔ x.toBitVec.getLsbD 0 = true := by
    rw [Ne, ← UInt32.toBitVec_inj]
    change ¬ x.toBitVec &&& 1#32 = 0#32 ↔ _
    rw [BitVec.and_one_eq_setWidth_ofBool_getLsbD]
    cases x.toBitVec.getLsbD 0 <;> simp
  unfold crc32Round Crc.shift
  by_cases h : x &&& 1 ≠ 0
  · rw [if_pos h, if_pos (hbit.mp h)]
    simp
  · rw [if_neg h, if_neg fun hb ↦ h (hbit.mpr hb)]
    simp

theorem toBitVec_iterate_crc32Round (n : Nat) (x : UInt32) :
    (crc32Round^[n] x).toBitVec = (Crc.shift 0xEDB88320#32)^[n] x.toBitVec := by
  induction n generalizing x with
  | zero => rfl
  | succ n ih => simp only [Function.iterate_succ_apply, ih, toBitVec_crc32Round]

theorem and_ff_eq_setWidth (x : BitVec 32) : x &&& 255#32 = (x.setWidth 8).setWidth 32 := by
  apply BitVec.eq_of_toNat_eq
  rw [BitVec.toNat_and, BitVec.toNat_setWidth, BitVec.toNat_setWidth, BitVec.toNat_ofNat,
    Nat.mod_eq_of_lt (show 255 < 2 ^ 32 by decide), toNat_and_ff]
  omega

theorem toBitVec_crc32Byte (crc : UInt32) (d : UInt8) :
    (crc32Byte crc d).toBitVec = Crc.takeWord 0xEDB88320#32 crc.toBitVec d.toBitVec := by
  rw [crc32Byte, UInt32.toBitVec_xor, toBitVec_iterate_crc32Round, Crc.takeWord,
    ← and_ff_eq_setWidth]
  rfl

/-- The byte-wise loop computes the CRC-32 of the message as a string of bits. -/
theorem toBitVec_crc32Buf (data : List UInt8) :
    (crc32Buf data).toBitVec = Crc.crc32 (data.map UInt8.toBitVec) := by
  have hfold : ∀ crc : UInt32, (data.foldl crc32Byte crc).toBitVec =
      (data.map UInt8.toBitVec).foldl (Crc.takeWord 0xEDB88320#32) crc.toBitVec := by
    induction data with
    | nil => exact fun _ ↦ rfl
    | cons d data ih =>
      intro crc
      simp [ih, toBitVec_crc32Byte]
  rw [Crc.crc32, Crc.register_eq_foldl (by decide), crc32Buf, UInt32.toBitVec_xor, hfold,
    ← BitVec.xor_allOnes]
  rfl

theorem zlibCrc32_eq (data : List UInt8) : zlibCrc32 data = (crc32Buf data).toNat := by
  rw [zlibCrc32, ← toBitVec_crc32Buf]
  rfl

theorem toList_ofList (v : Bytes n) : Bytes.ofList n v.toList = v := by
  apply Vector.ext
  intro i hi
  simp [Bytes.ofList]

theorem rd16_eq {p : List UInt8} {i : Nat} (h : i + 2 ≤ p.length) :
    rd16 p i = UInt16.ofNat (leNat ((p.drop i).take 2)) := by
  have h₀ := (p.getD i 0).toNat_lt
  have h₁ := (p.getD (i + 1) 0).toNat_lt
  rw [← UInt16.toNat_inj, rd16, leNat_take_drop (by omega), leNat_take_drop (by omega)]
  generalize p.getD i 0 = b₀ at h₀ ⊢
  generalize p.getD (i + 1) 0 = b₁ at h₁ ⊢
  have hb : b₁.toNat <<< 8 < 2 ^ 16 := by
    rw [Nat.shiftLeft_eq]
    omega
  simp only [UInt16.toNat_or, UInt16.toNat_shiftLeft, UInt8.toNat_toUInt16, UInt16.reduceToNat,
    Nat.reduceMod, Nat.mod_eq_of_lt hb, or_shiftLeft h₀, List.take_zero, leNat,
    UInt16.toNat_ofNat']
  omega

theorem rd32_eq {p : List UInt8} {i : Nat} (h : i + 4 ≤ p.length) :
    rd32 p i = UInt32.ofNat (leNat ((p.drop i).take 4)) := by
  have h₀ := (p.getD i 0).toNat_lt
  have h₁ := (p.getD (i + 1) 0).toNat_lt
  have h₂ := (p.getD (i + 2) 0).toNat_lt
  have h₃ := (p.getD (i + 3) 0).toNat_lt
  rw [← UInt32.toNat_inj, rd32, leNat_take_drop (by omega), leNat_take_drop (by omega),
    leNat_take_drop (by omega), leNat_take_drop (by omega)]
  generalize p.getD i 0 = b₀ at h₀ ⊢
  generalize p.getD (i + 1) 0 = b₁ at h₁ ⊢
  generalize p.getD (i + 1 + 1) 0 = b₂ at h₂ ⊢
  generalize p.getD (i + 1 + 1 + 1) 0 = b₃ at h₃ ⊢
  have hb : ∀ b : UInt8, ∀ n ≤ 24, b.toNat <<< n < 2 ^ 32 := fun b n hn ↦
    calc b.toNat <<< n = b.toNat * 2 ^ n := Nat.shiftLeft_eq ..
      _ < 2 ^ 8 * 2 ^ n := Nat.mul_lt_mul_of_pos_right b.toNat_lt (Nat.two_pow_pos n)
      _ = 2 ^ (8 + n) := (Nat.pow_add ..).symm
      _ ≤ 2 ^ 32 := Nat.pow_le_pow_right (by decide) (by omega)
  simp only [UInt32.toNat_or, UInt32.toNat_shiftLeft, UInt8.toNat_toUInt32, UInt32.reduceToNat,
    Nat.reduceMod, Nat.mod_eq_of_lt (hb _ 8 (by decide)), Nat.mod_eq_of_lt (hb _ 16 (by decide)),
    Nat.mod_eq_of_lt (hb _ 24 (by decide)), List.take_zero, leNat, UInt32.toNat_ofNat']
  rw [or_shiftLeft h₀, or_shiftLeft (n := 16) (by omega), or_shiftLeft (n := 24) (by omega)]
  omega

theorem pdkHeader_eq {b : List UInt8} (hb : b.length = kemtlsPkFileHdrSize) :
    pdkHeader b =
      let h := KemtlsPkFileHdr.ofBytes b
      ⟨h.magic, h.version, h.suiteId, h.alg, h.pkLen.toNat, h.pkFingerprint.toList⟩ := by
  have hl : b.length = 56 := hb
  have hbyte : ∀ i < 56, UInt8.ofNat (leNat ((b.drop i).take 1)) = b.getD i 0 := fun i hi ↦ by
    rw [leNat_take_drop (hl ▸ hi), List.take_zero, leNat, Nat.mul_zero, Nat.add_zero,
      UInt8.ofNat_toNat]
  have hfp : (Bytes.ofList 32 ((b.drop 20).take 32)).toList = (b.drop 20).take 32 := by
    apply List.ext_getElem
    · simp [hl]
    · intro i hi hi'
      have hlt : 20 + i < b.length := by
        simp [hl] at hi'
        omega
      simp [Bytes.ofList, hlt]
  rw [pdkHeader, rd32_eq (by omega), rd16_eq (by omega), rd32_eq (by omega),
    KemtlsPkFileHdr.ofBytes]
  simp only [hbyte, hfp, List.drop_zero, Nat.reduceLT]

variable (h : KemtlsPkFileHdr)

@[simp] theorem KemtlsPkFileHdr.length_bytes : h.bytes.length = kemtlsPkFileHdrSize := by
  simp [bytes, Member.bytes, kemtlsPkFileHdrSize]

theorem KemtlsPkFileHdr.ofBytes_bytes : ofBytes h.bytes = h := by
  have htail : h.bytes.drop 20 = h.pkFingerprint.toList ++ leBytes 4 h.crc32.toNat := by
    change _ ++ (_ ++ []) = _
    rw [List.append_nil]
    rfl
  have hcrc : (h.bytes.drop 52).take 4 = leBytes 4 h.crc32.toNat :=
    calc (h.bytes.drop 52).take 4 = ((h.bytes.drop 20).drop 32).take 4 := by rw [List.drop_drop]
      _ = (leBytes 4 h.crc32.toNat).take 4 := by rw [htail, List.drop_left' (by simp)]
      _ = leBytes 4 h.crc32.toNat := List.take_of_length_le (by simp)
  have hmagic : h.bytes.take 4 = leBytes 4 h.magic.toNat := rfl
  have hversion : (h.bytes.drop 4).take 2 = leBytes 2 h.version.toNat := rfl
  have hsuite : (h.bytes.drop 6).take 1 = leBytes 1 h.suiteId.toNat := rfl
  have halg : (h.bytes.drop 7).take 1 = leBytes 1 h.alg.toNat := rfl
  have hcreated : (h.bytes.drop 8).take 8 = leBytes 8 h.createdUnix.toNat := rfl
  have hlen : (h.bytes.drop 16).take 4 = leBytes 4 h.pkLen.toNat := rfl
  have hfp : (h.bytes.drop 20).take 32 = h.pkFingerprint.toList := by
    rw [htail, List.take_left' (by simp)]
  have h8 : ∀ v : UInt8, leNat (leBytes 1 v.toNat) = v.toNat := fun v ↦ leNat_leBytes v.toNat_lt
  have h32 : ∀ v : UInt32, leNat (leBytes 4 v.toNat) = v.toNat := fun v ↦ leNat_leBytes v.toNat_lt
  have h16 : leNat (leBytes 2 h.version.toNat) = h.version.toNat := leNat_leBytes h.version.toNat_lt
  have h64 : leNat (leBytes 8 h.createdUnix.toNat) = h.createdUnix.toNat :=
    leNat_leBytes h.createdUnix.toNat_lt
  simp only [ofBytes, hmagic, hversion, hsuite, halg, hcreated, hlen, hfp, hcrc, toList_ofList,
    h8, h16, h32, h64, UInt8.ofNat_toNat, UInt16.ofNat_toNat, UInt32.ofNat_toNat,
    UInt64.ofNat_toNat]

end KemtlsMavlink
