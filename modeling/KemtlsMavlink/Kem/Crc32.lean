import KemtlsMavlink.Kem.KeyFile
import KemtlsMavlink.Library.CrcRemainder

namespace KemtlsMavlink

open Library Polynomial

theorem generator_crc32 : Crc.generator 0xEDB88320#32 =
    X ^ 32 + X ^ 26 + X ^ 23 + X ^ 22 + X ^ 16 + X ^ 12 + X ^ 11 + X ^ 10 + X ^ 8 + X ^ 7 +
      X ^ 5 + X ^ 4 + X ^ 2 + X + 1 := by
  simp [Crc.generator, Crc.poly, Crc.bit, Finset.sum_range_succ]
  ring

theorem poly_allOnes (w : Nat) : Crc.poly (BitVec.allOnes w) = ∑ i ∈ Finset.range w, X ^ i := by
  rw [Crc.poly, ← Finset.sum_range_reflect]
  apply Finset.sum_congr rfl
  intro i hi
  have hi := Finset.mem_range.mp hi
  have hlt : w - 1 - i < w := by omega
  have he : w - 1 - (w - 1 - i) = i := by omega
  simp [Crc.bit, hlt, he]

/-- The bits in front of the check: the message, least significant bit first, with ones added
to its first 32 bits, and 32 places to its right. -/
noncomputable def crc32Dividend (data : List UInt8) : (ZMod 2)[X] :=
  X ^ (8 * data.length) * (∑ i ∈ Finset.range 32, X ^ i) +
    X ^ 32 * Crc.message ((data.map UInt8.toBitVec).flatMap Crc.bits)

theorem poly_crc32Buf (data : List UInt8) :
    Crc.poly (~~~(crc32Buf data).toBitVec) = crc32Dividend data %ₘ Crc.generator 0xEDB88320#32 := by
  rw [toBitVec_crc32Buf, Crc.crc32, BitVec.not_not, Crc.poly_register _ _ (by decide),
    poly_allOnes, List.length_map, crc32Dividend]

def crc32Continue (crc : UInt32) (data : List UInt8) : UInt32 :=
  data.foldl crc32Byte (crc ^^^ 0xFFFFFFFF) ^^^ 0xFFFFFFFF

theorem crc32Buf_append (a b : List UInt8) :
    crc32Buf (a ++ b) = crc32Continue (crc32Buf a) b := by
  rw [crc32Buf, List.foldl_append, crc32Continue, crc32Buf, UInt32.xor_assoc, UInt32.xor_self,
    UInt32.xor_zero]

/-- `crc32_buf` is CRC-32: the checksum that the register computes bit by bit, the complement
of a remainder, and what `zlib.crc32` gives to the packer in Python; and what it makes of a
buffer takes of its front no more than the checksum. -/
theorem crc32Buf_standard (data : List UInt8) :
    (crc32Buf data).toBitVec = Crc.crc32 (data.map UInt8.toBitVec) ∧
      Crc.poly (~~~(crc32Buf data).toBitVec) = crc32Dividend data %ₘ
        (X ^ 32 + X ^ 26 + X ^ 23 + X ^ 22 + X ^ 16 + X ^ 12 + X ^ 11 + X ^ 10 + X ^ 8 + X ^ 7 +
          X ^ 5 + X ^ 4 + X ^ 2 + X + 1) ∧
      zlibCrc32 data = (crc32Buf data).toNat ∧
      ∃ f : UInt32 → List UInt8 → UInt32, ∀ a b, crc32Buf (a ++ b) = f (crc32Buf a) b := by
  refine ⟨toBitVec_crc32Buf data, ?_, zlibCrc32_eq data, crc32Continue, crc32Buf_append⟩
  rw [← generator_crc32]
  exact poly_crc32Buf data

end KemtlsMavlink
