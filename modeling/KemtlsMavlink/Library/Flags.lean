import Mathlib.Data.List.Basic
import Mathlib.Tactic.Tauto

namespace KemtlsMavlink.Library

theorem getD_replicate_false (n k : Nat) : (List.replicate n false).getD k false = false := by
  rw [List.getD_eq_getElem?_getD, List.getElem?_replicate]
  split_ifs <;> rfl

theorem getD_set_true (a : List Bool) (j k : Nat) :
    (a.set j true).getD k false = true ↔ a.getD k false = true ∨ k < a.length ∧ j = k := by
  by_cases hjk : j = k
  · subst hjk
    by_cases hj : j < a.length
    · simp [List.getD_eq_getElem?_getD, hj]
    · simp [List.getD_eq_getElem?_getD, hj]
  · rw [List.getD_eq_getElem?_getD, List.getElem?_set_ne hjk, ← List.getD_eq_getElem?_getD]
    simp [hjk]

theorem length_foldl_mark (p : Nat → Bool) (f : Nat → Nat) (l : List Nat) (a : List Bool) :
    (l.foldl (fun a i ↦ if p i then a.set (f i) true else a) a).length = a.length := by
  induction l generalizing a with
  | nil => rfl
  | cons j l ih =>
    rw [List.foldl_cons, ih]
    split <;> simp

theorem getD_foldl_mark (p : Nat → Bool) (f : Nat → Nat) (l : List Nat) (a : List Bool) (k : Nat) :
    (l.foldl (fun a i ↦ if p i then a.set (f i) true else a) a).getD k false = true ↔
      a.getD k false = true ∨ k < a.length ∧ ∃ j ∈ l, p j = true ∧ f j = k := by
  induction l generalizing a with
  | nil => simp
  | cons j l ih =>
    rw [List.foldl_cons, ih]
    by_cases hp : p j = true
    · simp only [hp, if_true, getD_set_true, List.length_set, List.mem_cons, exists_eq_or_imp,
        true_and]
      tauto
    · simp only [hp, Bool.false_eq_true, if_false, List.mem_cons, exists_eq_or_imp, false_and,
        false_or]

end KemtlsMavlink.Library
