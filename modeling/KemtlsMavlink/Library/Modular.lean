import Mathlib.Algebra.Group.Nat.Defs
import Mathlib.Data.Nat.Basic

namespace KemtlsMavlink.Library

theorem eq_or_eq_add_of_eq_mod {m x w : Nat} (hw : w < 2 * m) (h : x = w % m) :
    w = x ∨ w = x + m := by
  by_cases hlt : w < m
  · rw [Nat.mod_eq_of_lt hlt] at h
    exact .inl h.symm
  · rw [Nat.mod_eq_sub_mod (Nat.le_of_not_lt hlt), Nat.mod_eq_of_lt (by omega)] at h
    omega

/-- Two stretches of a cycle of length `m`, of lengths `x` and `y` from `a` and
`b`, are disjoint when each ends before the other begins. -/
theorem stretches_disjoint_iff {m a b x y : Nat} (ha : a < m) (hb : b < m) (hx : 0 < x)
    (hy : 0 < y) : (∀ i < x, ∀ j < y, (a + i) % m ≠ (b + j) % m) ↔
      x ≤ (m - a + b) % m ∧ y ≤ (m - b + a) % m := by
  constructor
  · intro h
    have hab : (a + (m - a + b) % m) % m = (b + 0) % m := by
      rw [Nat.add_mod_mod, show a + (m - a + b) = m + b by omega, Nat.add_mod_left, Nat.add_zero]
    have hba : (a + 0) % m = (b + (m - b + a) % m) % m := by
      rw [Nat.add_mod_mod, show b + (m - b + a) = m + a by omega, Nat.add_mod_left, Nat.add_zero]
    constructor
    · by_contra hlt
      exact h _ (not_le.mp hlt) 0 hy hab
    · by_contra hlt
      exact h 0 hx _ (not_le.mp hlt) hba
  · intro ⟨hxd, hyd⟩ i hi j hj he
    -- unless `a = b`, one gap is a difference and the other goes round
    rcases lt_trichotomy a b with hlt | rfl | hlt
    · rw [show m - a + b = m + (b - a) by omega, Nat.add_mod_left,
        Nat.mod_eq_of_lt (by omega)] at hxd
      rw [Nat.mod_eq_of_lt (show m - b + a < m by omega)] at hyd
      rw [Nat.mod_eq_of_lt (show a + i < m by omega)] at he
      rcases eq_or_eq_add_of_eq_mod (show b + j < 2 * m by omega) he with hw | hw <;> omega
    · rw [Nat.sub_add_cancel (by omega), Nat.mod_self] at hxd
      omega
    · rw [show m - b + a = m + (a - b) by omega, Nat.add_mod_left,
        Nat.mod_eq_of_lt (by omega)] at hyd
      rw [Nat.mod_eq_of_lt (show m - a + b < m by omega)] at hxd
      rw [Nat.mod_eq_of_lt (show b + j < m by omega)] at he
      rcases eq_or_eq_add_of_eq_mod (show a + i < 2 * m by omega) he.symm with hw | hw <;> omega

theorem eq_of_digits {b n x y : Nat} (hx : x < b ^ n) (hy : y < b ^ n)
    (h : ∀ i < n, x / b ^ i % b = y / b ^ i % b) : x = y := by
  induction n generalizing x y with
  | zero =>
    rw [Nat.pow_zero] at hx hy
    omega
  | succ n ih =>
    have hlow : x % b = y % b := by simpa using h 0 n.succ_pos
    have hhigh : x / b = y / b := by
      apply ih
      · exact Nat.div_lt_of_lt_mul (by rwa [← Nat.pow_succ'])
      · exact Nat.div_lt_of_lt_mul (by rwa [← Nat.pow_succ'])
      · intro i hi
        rw [Nat.div_div_eq_div_mul, Nat.div_div_eq_div_mul, ← Nat.pow_succ']
        exact h (i + 1) (Nat.succ_lt_succ hi)
    rw [← Nat.div_add_mod x b, ← Nat.div_add_mod y b, hlow, hhigh]

end KemtlsMavlink.Library
