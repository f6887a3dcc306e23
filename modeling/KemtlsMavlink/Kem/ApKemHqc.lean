import KemtlsMavlink.Hqc.KemCorrect
import KemtlsMavlink.Kem.ApKem

namespace KemtlsMavlink

open Hqc

section

variable (permute : List UInt64 → List UInt64)

end

theorem Bytes.toList_ofList {n : Nat} {bs : List UInt8} (h : bs.length = n) :
    (Bytes.ofList n bs).toList = bs := by
  refine List.ext_getElem (by rw [Vector.length_toList, h]) fun i h₁ h₂ ↦ ?_
  rw [Vector.getElem_toList]
  exact (Vector.getElem_ofFn _).trans (List.getD_eq_getElem _ _ h₂)

section

variable {permute : List UInt64 → List UInt64} {failed : Bool} {ios : Nat → EntropyIo}

end

end KemtlsMavlink
