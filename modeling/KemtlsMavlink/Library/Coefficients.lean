import Mathlib.Algebra.Polynomial.Degree.Lemmas
import Mathlib.Data.List.GetD
import Mathlib.Tactic.Ring

namespace KemtlsMavlink.Library.Coefficients

open Polynomial

variable {R : Type*} [CommSemiring R]

noncomputable def ofList : List R → R[X]
  | [] => 0
  | a :: l => C a + X * ofList l

@[simp] theorem ofList_nil : ofList ([] : List R) = 0 := rfl

@[simp] theorem ofList_cons (a : R) (l : List R) : ofList (a :: l) = C a + X * ofList l := rfl

theorem coeff_ofList (l : List R) (k : Nat) : (ofList l).coeff k = l.getD k 0 := by
  induction l generalizing k with
  | nil => simp
  | cons a l ih =>
    cases k with
    | zero => simp
    | succ k =>
      rw [ofList_cons, coeff_add, coeff_C_succ, zero_add, coeff_X_mul, ih, List.getD_cons_succ]

theorem natDegree_ofList_le {l : List R} {n : Nat} (h : l.length ≤ n + 1) :
    (ofList l).natDegree ≤ n := by
  refine natDegree_le_iff_coeff_eq_zero.mpr fun k hk ↦ ?_
  rw [coeff_ofList]
  exact List.getD_eq_default _ _ (by omega)

theorem ofList_append (l m : List R) : ofList (l ++ m) = ofList l + X ^ l.length * ofList m := by
  induction l with
  | nil => simp
  | cons a l ih =>
    rw [List.cons_append, ofList_cons, ih, ofList_cons, List.length_cons]
    ring

theorem eval_ofList_append (l m : List R) (x : R) :
    (ofList (l ++ m)).eval x = (ofList l).eval x + x ^ l.length * (ofList m).eval x := by
  rw [ofList_append, eval_add, eval_mul, eval_pow, eval_X]

theorem ofList_zipWith_add : ∀ {l m : List R}, l.length = m.length →
    ofList (List.zipWith (· + ·) l m) = ofList l + ofList m
  | [], [], _ => by simp
  | a :: l, b :: m, h => by
    rw [List.zipWith_cons_cons, ofList_cons, ofList_zipWith_add (Nat.succ.inj h), ofList_cons,
      ofList_cons, C_add]
    ring

theorem mul_sum_shift (c : Nat → R) (n : Nat) (x : R) :
    x * ∑ i ∈ Finset.range (n + 1), c i * x ^ i =
      ∑ k ∈ Finset.range (n + 1), (if k = 0 then 0 else c (k - 1)) * x ^ k +
        c n * x ^ (n + 1) := by
  rw [Finset.sum_range_succ, Finset.sum_range_succ', if_pos rfl, zero_mul, add_zero, mul_add,
    Finset.mul_sum]
  congr 1
  · refine Finset.sum_congr rfl fun k _ ↦ ?_
    rw [if_neg (Nat.succ_ne_zero k), Nat.add_sub_cancel]
    ring
  · ring

end KemtlsMavlink.Library.Coefficients
