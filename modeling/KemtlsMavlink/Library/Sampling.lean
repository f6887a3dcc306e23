import Mathlib.Algebra.Order.Ring.Nat
import Mathlib.Data.Nat.Bitwise
import Mathlib.Logic.Function.Basic
import Mathlib.Tactic.Ring

namespace KemtlsMavlink.Library.Sampling

theorem quotient_near {a n k : Nat} (hn : 0 < n) (ha : a < 2 ^ k) :
    a * (2 ^ k / n) / 2 ^ k * n ≤ a ∧ a < (a * (2 ^ k / n) / 2 ^ k + 2) * n := by
  have hpos : 0 < 2 ^ k := Nat.two_pow_pos k
  have hm : 2 ^ k / n * n ≤ 2 ^ k := Nat.div_mul_le_self _ _
  have hm' : 2 ^ k < (2 ^ k / n + 1) * n := by
    have h := Nat.lt_div_mul_add (a := 2 ^ k) hn
    rwa [Nat.succ_mul]
  have hq : a * (2 ^ k / n) / 2 ^ k * 2 ^ k ≤ a * (2 ^ k / n) := Nat.div_mul_le_self _ _
  have hq' : a * (2 ^ k / n) < (a * (2 ^ k / n) / 2 ^ k + 1) * 2 ^ k := by
    have h := Nat.lt_div_mul_add (a := a * (2 ^ k / n)) hpos
    rwa [Nat.succ_mul]
  generalize a * (2 ^ k / n) / 2 ^ k = q at *
  generalize 2 ^ k / n = m at *
  constructor
  · refine Nat.le_of_mul_le_mul_right ?_ hpos
    calc q * n * 2 ^ k = q * 2 ^ k * n := by ring
      _ ≤ a * m * n := Nat.mul_le_mul_right n hq
      _ = a * (m * n) := by ring
      _ ≤ a * 2 ^ k := Nat.mul_le_mul_left a hm
  · refine Nat.lt_of_mul_lt_mul_right (a := 2 ^ k) ?_
    calc a * 2 ^ k ≤ a * ((m + 1) * n) := Nat.mul_le_mul_left a hm'.le
      _ = a * m * n + a * n := by ring
      _ < (q + 1) * 2 ^ k * n + 2 ^ k * n := by
        refine Nat.add_lt_add_of_lt_of_le ((Nat.mul_lt_mul_right hn).mpr hq') ?_
        exact Nat.mul_le_mul_right n ha.le
      _ = (q + 2) * n * 2 ^ k := by ring

def replace (w : Nat) (f : Nat → Nat) (i : Nat) : Nat → Nat :=
  Function.update f i (if ∃ j < w, i < j ∧ f j = f i then i else f i)

/-- The values from a place on are apart, and none is below its place. -/
structure Apart (w k : Nat) (f : Nat → Nat) : Prop where
  le : ∀ j < w, j ≤ f j
  inj : ∀ i j, k ≤ i → i < j → j < w → f i ≠ f j

theorem Apart.replace {w i : Nat} {f : Nat → Nat} (h : Apart w (i + 1) f) :
    Apart w i (replace w f i) := by
  have hother : ∀ j, j ≠ i → Sampling.replace w f i j = f j := fun j hj ↦
    Function.update_of_ne hj _ _
  have hself : Sampling.replace w f i i = if ∃ j < w, i < j ∧ f j = f i then i else f i :=
    Function.update_self _ _ _
  constructor
  · intro j hj
    by_cases hij : j = i
    · rw [hij, hself]
      split_ifs
      · exact le_rfl
      · exact hij ▸ h.le j hj
    · rw [hother j hij]
      exact h.le j hj
  · intro a b ha hab hb
    rw [hother b (by omega)]
    rcases Nat.eq_or_lt_of_le ha with rfl | ha
    · rw [hself]
      split_ifs with hrep
      · have hle := h.le b hb
        omega
      · exact fun heq ↦ hrep ⟨b, hb, hab, heq.symm⟩
    · rw [hother a (by omega)]
      exact h.inj a b ha hab hb

def replaceAll (w : Nat) : Nat → (Nat → Nat) → Nat → Nat
  | 0, f => f
  | n + 1, f => replaceAll w n (replace w f n)

theorem Apart.replaceAll {w n : Nat} {f : Nat → Nat} (h : Apart w n f) :
    Apart w 0 (replaceAll w n f) := by
  induction n generalizing f with
  | zero => exact h
  | succ n ih => exact ih h.replace

theorem replaceAll_lt {w n b : Nat} {f : Nat → Nat} (hn : n ≤ b) (h : ∀ j < w, f j < b) :
    ∀ j < w, replaceAll w n f j < b := by
  induction n generalizing f with
  | zero => exact h
  | succ n ih =>
    refine ih (by omega) fun j hj ↦ ?_
    rw [replace, Function.update_apply]
    split_ifs
    · exact hn
    · rename_i hjn _
      exact hjn ▸ h j hj
    · exact h j hj

end KemtlsMavlink.Library.Sampling
