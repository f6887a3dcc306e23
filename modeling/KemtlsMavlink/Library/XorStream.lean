import Mathlib.Data.List.Basic

namespace KemtlsMavlink.Library

def xorStream (ks : Nat → UInt8) (msg : List UInt8) : List UInt8 :=
  msg.mapIdx fun o b ↦ b ^^^ ks o

variable {ks ks' : Nat → UInt8} {msg : List UInt8}

@[simp] theorem length_xorStream : (xorStream ks msg).length = msg.length := by simp [xorStream]

@[simp] theorem xorStream_nil : xorStream ks [] = [] := rfl

theorem getElem?_xorStream (o : Nat) : (xorStream ks msg)[o]? = msg[o]?.map (· ^^^ ks o) := by
  simp [xorStream]

theorem xorStream_congr (h : ∀ o, ks o = ks' o) : xorStream ks msg = xorStream ks' msg := by
  rw [funext h]

theorem xorStream_xorStream : xorStream ks (xorStream ks msg) = msg := by
  apply List.ext_getElem?
  intro o
  rw [getElem?_xorStream, getElem?_xorStream]
  cases msg[o]? with
  | none => rfl
  | some b =>
    rw [Option.map_some, Option.map_some, UInt8.xor_assoc, UInt8.xor_self, UInt8.xor_zero]

theorem xorStream_append (as bs : List UInt8) :
    xorStream ks (as ++ bs) = xorStream ks as ++ xorStream (fun o ↦ ks (as.length + o)) bs := by
  simp only [xorStream, List.mapIdx_append, Nat.add_comm as.length]

end KemtlsMavlink.Library
