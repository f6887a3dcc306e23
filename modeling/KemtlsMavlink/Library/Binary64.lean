import Mathlib.Algebra.Order.Field.Power
import Mathlib.Data.Int.Log
import Mathlib.Data.Rat.Floor
import Mathlib.Tactic.FieldSimp
import Mathlib.Tactic.Linarith
import Mathlib.Tactic.Positivity
import Mathlib.Tactic.Ring

namespace KemtlsMavlink.Library

/-! Double precision numbers, as the rationals they stand for. The exponent is not bounded
above: nothing here comes near the largest double. -/

def IsDouble (x : ℚ) : Prop :=
  ∃ m e : ℤ, |m| < 2 ^ 53 ∧ -1074 ≤ e ∧ x = m * 2 ^ e

def ulpExponent (x : ℚ) : ℤ := max (Int.log 2 |x| - 52) (-1074)

def ulp (x : ℚ) : ℚ := 2 ^ ulpExponent x

def roundEven (x : ℚ) : ℤ :=
  if Int.fract x < 1 / 2 ∨ Int.fract x = 1 / 2 ∧ Even ⌊x⌋ then ⌊x⌋ else ⌊x⌋ + 1

def toDouble (x : ℚ) : ℚ := roundEven (x / ulp x) * ulp x

/-- Division of an integer by an integer in double precision: each of the two is rounded, and
so is the quotient. -/
def doubleDiv (a b : ℕ) : ℚ := toDouble (toDouble a / toDouble b)

variable {x y : ℚ}

theorem ulp_pos : 0 < ulp x := zpow_pos two_pos _

theorem roundEven_error (x : ℚ) : |roundEven x - x| ≤ 1 / 2 := by
  have hx := Int.floor_add_fract x
  have hlt := Int.fract_lt_one x
  have hnonneg := Int.fract_nonneg x
  rw [roundEven]
  split_ifs with h
  · have hle : Int.fract x ≤ 1 / 2 := h.elim le_of_lt fun h ↦ h.1.le
    rw [abs_le]
    constructor <;> linarith
  · have hle : 1 / 2 ≤ Int.fract x := not_lt.mp fun hlt ↦ h (Or.inl hlt)
    push_cast
    rw [abs_le]
    constructor <;> linarith

theorem roundEven_nearest (x : ℚ) (j : ℤ) : |roundEven x - x| ≤ |j - x| := by
  by_cases hj : j = roundEven x
  · rw [hj]
  have hne : (1 : ℚ) ≤ |(j : ℚ) - roundEven x| := by
    exact_mod_cast Int.one_le_abs (sub_ne_zero.mpr hj)
  have htri := abs_sub_le (j : ℚ) x (roundEven x)
  rw [abs_sub_comm x] at htri
  have herr := roundEven_error x
  linarith

theorem toDouble_sub (x : ℚ) : |toDouble x - x| = |roundEven (x / ulp x) - x / ulp x| * ulp x := by
  rw [toDouble, ← abs_of_pos (ulp_pos (x := x)), ← abs_mul, abs_of_pos ulp_pos, sub_mul,
    div_mul_cancel₀ x ulp_pos.ne']

theorem toDouble_error (x : ℚ) : |toDouble x - x| ≤ ulp x / 2 := by
  calc |toDouble x - x| = |roundEven (x / ulp x) - x / ulp x| * ulp x := toDouble_sub x
    _ ≤ 1 / 2 * ulp x := mul_le_mul_of_nonneg_right (roundEven_error _) ulp_pos.le
    _ = ulp x / 2 := one_div_mul_eq_div _ _

theorem toDouble_le_of_mul_ulp (x : ℚ) (j : ℤ) : |toDouble x - x| ≤ |j * ulp x - x| := by
  have hj : |j * ulp x - x| = |j - x / ulp x| * ulp x := by
    rw [← abs_of_pos (ulp_pos (x := x)), ← abs_mul, abs_of_pos ulp_pos, sub_mul,
      div_mul_cancel₀ x ulp_pos.ne']
  rw [toDouble_sub, hj]
  exact mul_le_mul_of_nonneg_right (roundEven_nearest _ j) ulp_pos.le

theorem pow_log_eq (hx : Int.log 2 |x| - 52 = ulpExponent x) :
    (2 : ℚ) ^ Int.log 2 |x| = 2 ^ 52 * ulp x := by
  rw [ulp, ← hx, ← zpow_natCast, ← zpow_add₀ two_ne_zero]
  congr 1
  push_cast
  ring

theorem exists_mul_ulp (h : 2 ^ 52 * ulp x ≤ |x|) :
    ∃ j : ℤ, |j * ulp x - x| = |x| - 2 ^ 52 * ulp x := by
  rcases le_total 0 x with hx | hx
  · rw [abs_of_nonneg hx] at h ⊢
    refine ⟨2 ^ 52, ?_⟩
    push_cast
    rw [abs_of_nonpos (by linarith)]
    ring
  · rw [abs_of_nonpos hx] at h ⊢
    refine ⟨-2 ^ 52, ?_⟩
    push_cast
    rw [abs_of_nonneg (by linarith)]
    ring

theorem abs_mul_zpow_le {m e k : ℤ} (hm : |m| < 2 ^ 53) (he : e < k) :
    |(m : ℚ) * 2 ^ e| ≤ 2 ^ 52 * 2 ^ k := by
  have hm' : |(m : ℚ)| ≤ 2 ^ 53 := by exact_mod_cast hm.le
  have hp : (2 : ℚ) ^ (e + 1) ≤ 2 ^ k := zpow_le_zpow_right₀ one_le_two he
  have hpos : (0 : ℚ) < 2 ^ e := zpow_pos two_pos e
  calc |(m : ℚ) * 2 ^ e| = |(m : ℚ)| * 2 ^ e := by rw [abs_mul, abs_of_pos hpos]
    _ ≤ 2 ^ 53 * 2 ^ e := mul_le_mul_of_nonneg_right hm' hpos.le
    _ = 2 ^ 52 * 2 ^ (e + 1) := by rw [zpow_add_one₀ two_ne_zero]; ring
    _ ≤ 2 ^ 52 * 2 ^ k := mul_le_mul_of_nonneg_left hp (by positivity)

theorem toDouble_nearest (x : ℚ) (hy : IsDouble y) : |toDouble x - x| ≤ |y - x| := by
  obtain ⟨m, e, hm, he, rfl⟩ := hy
  by_cases hke : ulpExponent x ≤ e
  · -- a multiple of the unit
    obtain ⟨n, hn⟩ := Int.le.dest hke
    have hmul : (m : ℚ) * 2 ^ e = (m * 2 ^ n : ℤ) * ulp x := by
      rw [← hn, zpow_add₀ two_ne_zero, zpow_natCast, ulp]
      push_cast
      ring
    rw [hmul]
    exact toDouble_le_of_mul_ulp x _
  · -- the power of two next to `x` lies between
    have hk : Int.log 2 |x| - 52 = ulpExponent x := by
      rw [ulpExponent] at hke ⊢
      omega
    rcases eq_or_ne x 0 with rfl | hx
    · calc |toDouble 0 - 0| ≤ |(0 : ℤ) * ulp 0 - 0| := toDouble_le_of_mul_ulp 0 0
        _ = 0 := by simp
        _ ≤ |(m : ℚ) * 2 ^ e - 0| := abs_nonneg _
    have hle : 2 ^ 52 * ulp x ≤ |x| := by
      rw [← pow_log_eq hk]
      exact Int.zpow_log_le_self one_lt_two (abs_pos.mpr hx)
    obtain ⟨j, hj⟩ := exists_mul_ulp hle
    have hy : |(m : ℚ) * 2 ^ e| ≤ 2 ^ 52 * ulp x := abs_mul_zpow_le hm (not_le.mp hke)
    calc |toDouble x - x| ≤ |j * ulp x - x| := toDouble_le_of_mul_ulp x j
      _ = |x| - 2 ^ 52 * ulp x := hj
      _ ≤ |x| - |(m : ℚ) * 2 ^ e| := sub_le_sub_left hy _
      _ ≤ |x - m * 2 ^ e| := abs_sub_abs_le_abs_sub _ _
      _ = |m * 2 ^ e - x| := abs_sub_comm _ _

theorem toDouble_of_isDouble (hx : IsDouble x) : toDouble x = x := by
  have h := toDouble_nearest x hx
  rw [sub_self, abs_zero] at h
  exact sub_eq_zero.mp (abs_nonpos_iff.mp h)

theorem toDouble_relative (hx : 2 ^ (-1022 : ℤ) ≤ |x|) : |toDouble x - x| ≤ |x| / 2 ^ 53 := by
  have hpos : 0 < |x| := lt_of_lt_of_le (by positivity) hx
  have hlog : -1022 ≤ Int.log 2 |x| := (Int.zpow_le_iff_le_log one_lt_two hpos).mp hx
  have hk : Int.log 2 |x| - 52 = ulpExponent x := by
    rw [ulpExponent]
    omega
  have hle : 2 ^ 52 * ulp x ≤ |x| := by
    rw [← pow_log_eq hk]
    exact Int.zpow_log_le_self one_lt_two hpos
  have herr := toDouble_error x
  linarith

theorem isDouble_zero : IsDouble 0 := ⟨0, 0, by norm_num, by norm_num, by norm_num⟩

theorem toDouble_natCast_error (n : ℕ) : |toDouble n - n| ≤ n / 2 ^ 53 := by
  cases n with
  | zero =>
    rw [Nat.cast_zero, toDouble_of_isDouble isDouble_zero]
    norm_num
  | succ n =>
    have hone : (1 : ℚ) ≤ ((n + 1 : ℕ) : ℚ) := by exact_mod_cast Nat.succ_pos n
    have h : (2 : ℚ) ^ (-1022 : ℤ) ≤ |((n + 1 : ℕ) : ℚ)| := by
      rw [Nat.abs_cast]
      exact (zpow_le_one_of_nonpos₀ one_le_two (by norm_num)).trans hone
    have herr := toDouble_relative h
    rwa [Nat.abs_cast] at herr

section

variable {a b c d : ℚ}

theorem div_le_of_near (ha : 0 ≤ a) (hb : 0 < b) (hc : |c - a| ≤ a / 2 ^ 53)
    (hd : |d - b| ≤ b / 2 ^ 53) :
    (2 ^ 53 - 1) * (c / d) ≤ (2 ^ 53 + 1) * (a / b) ∧
      (2 ^ 53 - 1) * (a / b) ≤ (2 ^ 53 + 1) * (c / d) := by
  rw [abs_le] at hc hd
  have hd₀ : 0 < d := by linarith
  rw [← mul_div_assoc, ← mul_div_assoc, ← mul_div_assoc, ← mul_div_assoc,
    div_le_div_iff₀ hd₀ hb, div_le_div_iff₀ hb hd₀]
  constructor
  · calc (2 ^ 53 - 1) * c * b ≤ (2 ^ 53 - 1) * (a * (2 ^ 53 + 1) / 2 ^ 53) * b := by
          gcongr
          linarith
      _ = (2 ^ 53 + 1) * a * (b * (2 ^ 53 - 1) / 2 ^ 53) := by ring
      _ ≤ (2 ^ 53 + 1) * a * d := by
          gcongr
          linarith
  · calc (2 ^ 53 - 1) * a * d ≤ (2 ^ 53 - 1) * a * (b * (2 ^ 53 + 1) / 2 ^ 53) := by
          gcongr
          linarith
      _ = (2 ^ 53 + 1) * (a * (2 ^ 53 - 1) / 2 ^ 53) * b := by ring
      _ ≤ (2 ^ 53 + 1) * c * b := by
          gcongr
          linarith

end

theorem doubleDiv_error {a b k : ℕ} (hb : 0 < b) (hbk : b ≤ 2 ^ k) (hk : k ≤ 1020) :
    |doubleDiv a b - a / b| ≤ a / b / 2 ^ 51 := by
  have hbq : (0 : ℚ) < b := Nat.cast_pos.mpr hb
  obtain ⟨hle, hge⟩ := div_le_of_near (Nat.cast_nonneg a) hbq (toDouble_natCast_error a)
    (toDouble_natCast_error b)
  rcases Nat.eq_zero_or_pos a with rfl | ha
  · rw [doubleDiv, Nat.cast_zero, toDouble_of_isDouble isDouble_zero, zero_div,
      toDouble_of_isDouble isDouble_zero]
    norm_num
  have hnormal : (2 : ℚ) ^ (-1022 : ℤ) ≤ toDouble a / toDouble b := by
    have hone : (1 : ℚ) ≤ a := by exact_mod_cast ha
    have hpow : (b : ℚ) ≤ 2 ^ (1020 : ℤ) := by
      calc (b : ℚ) ≤ 2 ^ (k : ℤ) := by exact_mod_cast hbk
        _ ≤ 2 ^ (1020 : ℤ) := zpow_le_zpow_right₀ one_le_two (by exact_mod_cast hk)
    have hab : (2 : ℚ) ^ (-1020 : ℤ) ≤ a / b := by
      rw [zpow_neg, ← one_div]
      exact div_le_div₀ (zero_le_one.trans hone) hone hbq hpow
    have hlt : (2 : ℚ) ^ (-1022 : ℤ) ≤ 2 ^ (-1021 : ℤ) :=
      zpow_le_zpow_right₀ one_le_two (by norm_num)
    have hhalf : (2 : ℚ) ^ (-1020 : ℤ) = 2 ^ (-1021 : ℤ) * 2 := by
      rw [← zpow_add_one₀ two_ne_zero]
      norm_num
    have hpos : (0 : ℚ) < 2 ^ (-1021 : ℤ) := zpow_pos two_pos _
    linarith
  have herr := toDouble_relative (hnormal.trans (le_abs_self _))
  rw [abs_of_pos (lt_of_lt_of_le (zpow_pos two_pos _) hnormal)] at herr
  rw [doubleDiv, abs_le]
  rw [abs_le] at herr
  constructor <;> linarith

theorem doubleDiv_exact {a b : ℕ} (ha : IsDouble a) (hb : IsDouble b)
    (hq : IsDouble (a / b : ℚ)) : doubleDiv a b = a / b := by
  rw [doubleDiv, toDouble_of_isDouble ha, toDouble_of_isDouble hb, toDouble_of_isDouble hq]

/-- `t` is the quotient in double precision, which is near the quotient and is it where doubles
allow. -/
structure IsDoubleQuotient (a b : ℕ) (t : ℚ) : Prop where
  eq : t = doubleDiv a b
  near : |t - a / b| ≤ a / b / 2 ^ 51
  exact : IsDouble a → IsDouble b → IsDouble (a / b : ℚ) → t = a / b

theorem isDoubleQuotient_doubleDiv (a : ℕ) {b k : ℕ} (hb : 0 < b) (hbk : b ≤ 2 ^ k)
    (hk : k ≤ 1020) : IsDoubleQuotient a b (doubleDiv a b) :=
  ⟨rfl, doubleDiv_error hb hbk hk, doubleDiv_exact⟩

end KemtlsMavlink.Library
