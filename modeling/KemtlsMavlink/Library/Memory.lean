import Mathlib.Data.List.Basic
import Mathlib.Logic.Basic

namespace KemtlsMavlink.Library

/-- A heap block. `init` is what the addresses from its start on hold when it is
allocated, past its end included; `stored` is what has been written since. -/
structure Block where
  size : Nat
  init : Nat → UInt8
  stored : Nat → Option UInt8

namespace Block

def malloc (size : Nat) (init : Nat → UInt8) : Block := ⟨size, init, fun _ ↦ none⟩

def calloc (size : Nat) (init : Nat → UInt8) : Block :=
  malloc size fun i ↦ if i < size then 0 else init i

variable (b : Block)

def get (i : Nat) : UInt8 := (b.stored i).getD (b.init i)

def read (off n : Nat) : List UInt8 := (List.range n).map fun i ↦ b.get (off + i)

def write (off : Nat) (data : List UInt8) : Block :=
  { b with stored := fun i ↦
      if off ≤ i ∧ i < off + data.length then data[i - off]? else b.stored i }

/-- Some store since the allocation has hit byte `i`. -/
def Written (i : Nat) : Prop := (b.stored i).isSome

instance (i : Nat) : Decidable (b.Written i) := inferInstanceAs (Decidable (_ = _))

def withInit (init : Nat → UInt8) : Block := { b with init := init }

def Same (b' : Block) : Prop := b'.size = b.size ∧ ∀ i < b.size, b'.get i = b.get i

variable {b} {off i : Nat} {data : List UInt8}

@[simp] theorem malloc_size (n : Nat) (init : Nat → UInt8) : (malloc n init).size = n := rfl

@[simp] theorem calloc_size (n : Nat) (init : Nat → UInt8) : (calloc n init).size = n := rfl

@[simp] theorem write_size : (b.write off data).size = b.size := rfl

@[simp] theorem length_read (n : Nat) : (b.read off n).length = n := by simp [read]

@[simp] theorem read_zero (off : Nat) : b.read off 0 = [] := rfl

theorem not_written_malloc (n : Nat) (init : Nat → UInt8) : ¬ (malloc n init).Written i := by
  simp [Written, malloc]

theorem stored_write_of_mem (h : off ≤ i ∧ i < off + data.length) :
    (b.write off data).stored i = data[i - off]? := if_pos h

theorem stored_write_of_not_mem (h : ¬ (off ≤ i ∧ i < off + data.length)) :
    (b.write off data).stored i = b.stored i := if_neg h

theorem written_write :
    (b.write off data).Written i ↔ (off ≤ i ∧ i < off + data.length) ∨ b.Written i := by
  by_cases h : off ≤ i ∧ i < off + data.length
  · have hs : data[i - off]?.isSome := by
      rw [List.getElem?_eq_getElem (by omega), Option.isSome_some]
    simp only [Written, stored_write_of_mem h, hs, true_iff]
    exact .inl h
  · simp only [Written, stored_write_of_not_mem h, h, false_or]

theorem get_write : (b.write off data).get i =
    if off ≤ i ∧ i < off + data.length then data.getD (i - off) 0 else b.get i := by
  unfold get
  split_ifs with h
  · have hlt : i - off < data.length := by omega
    rw [stored_write_of_mem h]
    simp [List.getD_eq_getElem?_getD, hlt]
  · rw [stored_write_of_not_mem h]
    rfl

theorem Written.write (h : b.Written i) : (b.write off data).Written i :=
  written_write.mpr (.inr h)

theorem write_withInit (init : Nat → UInt8) :
    (b.withInit init).write off data = (b.write off data).withInit init := rfl

theorem read_withInit_of_written {init : Nat → UInt8} {n : Nat}
    (h : ∀ i < n, b.Written (off + i)) : (b.withInit init).read off n = b.read off n := by
  refine List.map_congr_left fun i hi ↦ ?_
  obtain ⟨v, hv⟩ := Option.isSome_iff_exists.mp (h i (List.mem_range.mp hi))
  simp [get, withInit, hv]

theorem same_withInit {init : Nat → UInt8}
    (h : ∀ i < b.size, ¬ b.Written i → init i = b.init i) : b.Same (b.withInit init) := by
  refine ⟨rfl, fun i hi ↦ ?_⟩
  change (b.stored i).getD (init i) = (b.stored i).getD (b.init i)
  cases hs : b.stored i with
  | some v => rfl
  | none => exact h i hi (by simp [Written, hs])

theorem Same.read {b' : Block} {n : Nat} (h : b.Same b') (hn : off + n ≤ b.size) :
    b'.read off n = b.read off n :=
  List.map_congr_left fun i hi ↦ h.2 _ (by have := List.mem_range.mp hi; omega)

theorem getElem_read {n : Nat} (h : i < (b.read off n).length) :
    (b.read off n)[i] = b.get (off + i) := by simp [read]

theorem read_eq (h : ∀ j < data.length, b.get (off + j) = data.getD j 0) :
    b.read off data.length = data := by
  refine List.ext_getElem (length_read _) fun j hj hj' ↦ ?_
  rw [getElem_read, h j hj', List.getD_eq_getElem?_getD, List.getElem?_eq_getElem hj',
    Option.getD_some]

end Block

end KemtlsMavlink.Library
