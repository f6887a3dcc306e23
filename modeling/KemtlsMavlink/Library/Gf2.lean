import Mathlib.Algebra.Field.ZMod
import Mathlib.Algebra.Polynomial.Div
import Mathlib.Data.Nat.Bitwise
import Mathlib.Tactic.Ring

namespace KemtlsMavlink.Library.Gf2

open Polynomial

/-! Numbers as polynomials over the field with two elements, a bit for a coefficient. -/

noncomputable def poly (n : Nat) : (ZMod 2)[X] :=
  ∑ i ∈ Finset.range n, if n.testBit i then X ^ i else 0

variable {m n k : Nat}

theorem coeff_poly (n k : Nat) : (poly n).coeff k = if n.testBit k then 1 else 0 := by
  have hterm : ∀ i, (if n.testBit i then (X : (ZMod 2)[X]) ^ i else 0).coeff k =
      if k = i then if n.testBit k then 1 else 0 else 0 := by
    intro i
    by_cases hk : k = i
    · subst hk
      cases n.testBit k <;> simp
    · cases n.testBit i <;> simp [coeff_X_pow, hk]
  rw [poly, finsetSum_coeff]
  simp only [hterm, Finset.sum_ite_eq, Finset.mem_range]
  by_cases hk : k < n
  · rw [if_pos hk]
  · have hlt : n < 2 ^ k := Nat.lt_of_le_of_lt (Nat.le_of_not_lt hk) Nat.lt_two_pow_self
    rw [if_neg hk, Nat.testBit_lt_two_pow hlt]
    rfl

@[simp] theorem poly_zero : poly 0 = 0 := rfl

@[simp] theorem poly_one : poly 1 = 1 := by
  simp [poly]

theorem poly_injective : Function.Injective poly := by
  intro m n h
  apply Nat.eq_of_testBit_eq
  intro i
  have hi := congrArg (fun p ↦ p.coeff i) h
  simp only [coeff_poly] at hi
  cases hm : m.testBit i <;> cases hn : n.testBit i <;> simp [hm, hn] at hi ⊢

theorem poly_xor (m n : Nat) : poly (m ^^^ n) = poly m + poly n := by
  ext i
  rw [coeff_add, coeff_poly, coeff_poly, coeff_poly, Nat.testBit_xor]
  cases m.testBit i <;> cases n.testBit i <;> simp [CharTwo.add_self_eq_zero]

theorem poly_shiftLeft (n k : Nat) : poly (n <<< k) = X ^ k * poly n := by
  ext i
  rw [coeff_X_pow_mul', coeff_poly, coeff_poly, Nat.testBit_shiftLeft]
  by_cases hk : k ≤ i <;> simp [hk]

theorem poly_two_pow (k : Nat) : poly (2 ^ k) = X ^ k := by
  rw [← Nat.one_shiftLeft, poly_shiftLeft, poly_one, mul_one]

theorem degree_poly_lt (h : n < 2 ^ k) : (poly n).degree < k := by
  rw [degree_lt_iff_coeff_zero]
  intro i hi
  rw [coeff_poly, Nat.testBit_lt_two_pow (h.trans_le (Nat.pow_le_pow_right (by decide) hi))]
  rfl

theorem poly_split (n k : Nat) : poly n = poly (n % 2 ^ k) + X ^ k * poly (n >>> k) := by
  ext i
  rw [coeff_add, coeff_X_pow_mul', coeff_poly, coeff_poly, coeff_poly, Nat.testBit_mod_two_pow,
    Nat.testBit_shiftRight]
  by_cases hk : k ≤ i
  · have hi : ¬ i < k := Nat.not_lt.mpr hk
    simp [hk, hi]
  · have hi : i < k := Nat.lt_of_not_le hk
    simp [hk, hi]

theorem poly_mod_two_pow_succ (n k : Nat) :
    poly (n % 2 ^ (k + 1)) = poly (n % 2 ^ k) + if n.testBit k then X ^ k else 0 := by
  ext i
  rw [coeff_add, coeff_poly, coeff_poly, Nat.testBit_mod_two_pow, Nat.testBit_mod_two_pow]
  rcases Nat.lt_trichotomy i k with hlt | rfl | hlt
  · have h : i < k + 1 := by omega
    cases n.testBit k <;> simp [coeff_X_pow, h, hlt, hlt.ne]
  · cases n.testBit i <;> simp
  · have h : ¬ i < k + 1 := by omega
    have h' : ¬ i < k := by omega
    cases n.testBit k <;> simp [coeff_X_pow, h, h', hlt.ne']

end KemtlsMavlink.Library.Gf2
