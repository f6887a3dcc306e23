import Mathlib.Algebra.BigOperators.Intervals
import Mathlib.Algebra.BigOperators.Ring.Finset
import Mathlib.Algebra.Ring.Int.Defs
import Mathlib.Data.Nat.Bitwise
import Mathlib.Tactic.Ring

namespace KemtlsMavlink.Library.WalshHadamard

variable {R : Type*} [CommRing R]

def sign : Nat → Nat → Nat → ℤ
  | 0, _, _ => 1
  | n + 1, k, j => sign n k j * if k.testBit n && j.testBit n then -1 else 1

def parity : Nat → Nat → Nat → Bool
  | 0, _, _ => false
  | n + 1, k, j => parity n k j ^^ (k.testBit n && j.testBit n)

theorem sign_eq (n k j : Nat) : sign n k j = if parity n k j then -1 else 1 := by
  induction n with
  | zero => rfl
  | succ n ih =>
    rw [sign, parity, ih]
    cases parity n k j <;> cases k.testBit n && j.testBit n <;> rfl

theorem parity_congr {n k k' j j' : Nat} (hk : ∀ i < n, k.testBit i = k'.testBit i)
    (hj : ∀ i < n, j.testBit i = j'.testBit i) : parity n k j = parity n k' j' := by
  induction n with
  | zero => rfl
  | succ n ih =>
    rw [parity, parity, ih (fun i hi ↦ hk i (by omega)) (fun i hi ↦ hj i (by omega)),
      hk n (Nat.lt_succ_self n), hj n (Nat.lt_succ_self n)]

theorem parity_xor (n k k' j : Nat) :
    parity n (k ^^^ k') j = (parity n k j ^^ parity n k' j) := by
  induction n with
  | zero => rfl
  | succ n ih =>
    rw [parity, parity, parity, ih, Nat.testBit_xor]
    cases parity n k j <;> cases parity n k' j <;> cases k.testBit n <;> cases k'.testBit n <;>
      cases j.testBit n <;> rfl

theorem sign_congr {n k k' j j' : Nat} (hk : ∀ i < n, k.testBit i = k'.testBit i)
    (hj : ∀ i < n, j.testBit i = j'.testBit i) : sign n k j = sign n k' j' := by
  rw [sign_eq, sign_eq, parity_congr hk hj]

theorem sign_add {n k j : Nat} (hk : k < 2 ^ n) (hj : j < 2 ^ n) (a b : Nat) :
    sign (n + 1) (2 ^ n * a + k) (2 ^ n * b + j) =
      sign n k j * if a.testBit 0 && b.testBit 0 then -1 else 1 := by
  rw [sign]
  congr 1
  · refine sign_congr (fun i hi ↦ ?_) fun i hi ↦ ?_
    · rw [Nat.testBit_two_pow_mul_add a hk, if_pos hi]
    · rw [Nat.testBit_two_pow_mul_add b hj, if_pos hi]
  · rw [Nat.testBit_two_pow_mul_add a hk, Nat.testBit_two_pow_mul_add b hj,
      if_neg (Nat.lt_irrefl n), if_neg (Nat.lt_irrefl n), Nat.sub_self]

def pass (h : Nat) (f : Nat → R) (i : Nat) : R :=
  if i < h then f (2 * i) + f (2 * i + 1) else f (2 * (i - h)) - f (2 * (i - h) + 1)

def transform (n : Nat) (f : Nat → ℤ) (k : Nat) : ℤ := ∑ j ∈ Finset.range (2 ^ n), sign n k j * f j

theorem iterate_pass (f : Nat → ℤ) {n : Nat} : ∀ {p : Nat}, p ≤ n → ∀ {a b : Nat},
    a < 2 ^ (n - p) → b < 2 ^ p → (pass (2 ^ (n - 1)))^[p] f (2 ^ (n - p) * b + a) =
      ∑ c ∈ Finset.range (2 ^ p), sign p b c * f (2 ^ p * a + c)
  | 0, _, a, b, _, hb => by
    obtain rfl : b = 0 := Nat.lt_one_iff.mp hb
    rw [Function.iterate_zero_apply, Nat.mul_zero, Nat.zero_add, pow_zero, Finset.sum_range_one,
      sign, one_mul, one_mul, Nat.add_zero]
  | p + 1, hp, a, b, ha, hb => by
    have hn : 2 ^ (n - p) = 2 * 2 ^ (n - (p + 1)) := by
      rw [← pow_succ', show n - (p + 1) + 1 = n - p by omega]
    have htop : 2 ^ (n - 1) = 2 ^ (n - (p + 1)) * 2 ^ p := by
      rw [← pow_add, show n - (p + 1) + p = n - 1 by omega]
    have h2 : 2 ^ (p + 1) = 2 ^ p + 2 ^ p := by ring
    -- the neighbours of the low half of the places
    have hlow : ∀ b₀ < 2 ^ p, ∀ γ < 2, (pass (2 ^ (n - 1)))^[p] f
        (2 * (2 ^ (n - (p + 1)) * b₀ + a) + γ) =
          ∑ c ∈ Finset.range (2 ^ p), sign p b₀ c * f (2 ^ (p + 1) * a + (2 ^ p * γ + c)) := by
      intro b₀ hb₀ γ hγ
      have hplace : 2 * (2 ^ (n - (p + 1)) * b₀ + a) + γ = 2 ^ (n - p) * b₀ + (2 * a + γ) := by
        rw [hn]
        ring
      rw [hplace, iterate_pass f (by omega) (by omega) hb₀]
      refine Finset.sum_congr rfl fun c _ ↦ ?_
      rw [show 2 ^ p * (2 * a + γ) + c = 2 ^ (p + 1) * a + (2 ^ p * γ + c) by ring]
    have hsplit : ∀ b₀ < 2 ^ p, ∀ β < 2,
        ∑ c ∈ Finset.range (2 ^ (p + 1)), sign (p + 1) (2 ^ p * β + b₀) c *
            f (2 ^ (p + 1) * a + c) =
          ∑ c ∈ Finset.range (2 ^ p), sign p b₀ c * f (2 ^ (p + 1) * a + (2 ^ p * 0 + c)) +
            (if β = 1 then -1 else 1) *
              ∑ c ∈ Finset.range (2 ^ p), sign p b₀ c * f (2 ^ (p + 1) * a + (2 ^ p * 1 + c)) := by
      intro b₀ hb₀ β hβ
      have hr : Finset.range (2 ^ (p + 1)) = Finset.range (2 ^ p + 2 ^ p) := by rw [h2]
      rw [hr, Finset.sum_range_add, Finset.mul_sum]
      congr 1
      · refine Finset.sum_congr rfl fun c hc ↦ ?_
        have hs := sign_add hb₀ (Finset.mem_range.mp hc) β 0
        rw [Nat.mul_zero, Nat.zero_add] at hs ⊢
        rw [hs, Nat.zero_testBit, Bool.and_false]
        simp
      · refine Finset.sum_congr rfl fun c hc ↦ ?_
        have hs := sign_add hb₀ (Finset.mem_range.mp hc) β 1
        rw [Nat.mul_one] at hs ⊢
        rw [hs]
        obtain rfl | rfl : β = 0 ∨ β = 1 := by omega
        · simp
        · simp
    have hb₀ : b % 2 ^ p < 2 ^ p := Nat.mod_lt _ (Nat.two_pow_pos p)
    have hβ : b / 2 ^ p < 2 := Nat.div_lt_of_lt_mul (by rwa [Nat.mul_comm, ← pow_succ'])
    have hbsplit : b = 2 ^ p * (b / 2 ^ p) + b % 2 ^ p := (Nat.div_add_mod b _).symm
    generalize b / 2 ^ p = β at hβ hbsplit
    generalize b % 2 ^ p = b₀ at hb₀ hbsplit
    subst hbsplit
    rw [Function.iterate_succ_apply', hsplit b₀ hb₀ β hβ, pass]
    have hpos : 2 ^ (n - (p + 1)) * b₀ + a < 2 ^ (n - (p + 1)) * 2 ^ p := by
      have hle : 2 ^ (n - (p + 1)) * (b₀ + 1) ≤ 2 ^ (n - (p + 1)) * 2 ^ p :=
        Nat.mul_le_mul_left _ hb₀
      rw [Nat.mul_succ] at hle
      omega
    have hβ' : β = 0 ∨ β = 1 := by omega
    rcases hβ' with rfl | rfl
    · rw [Nat.mul_zero, Nat.zero_add, htop, if_pos hpos, ← htop]
      have h0 := hlow b₀ hb₀ 0 (by decide)
      rw [Nat.add_zero] at h0
      rw [h0, hlow b₀ hb₀ 1 (by decide)]
      simp
    · have hplace : 2 ^ (n - (p + 1)) * (2 ^ p * 1 + b₀) + a =
          2 ^ (n - 1) + (2 ^ (n - (p + 1)) * b₀ + a) := by
        rw [htop]
        ring
      rw [hplace, if_neg (by omega), Nat.add_sub_cancel_left]
      have h0 := hlow b₀ hb₀ 0 (by decide)
      rw [Nat.add_zero] at h0
      rw [h0, hlow b₀ hb₀ 1 (by decide)]
      simp [sub_eq_add_neg]

/-- All passes give the transform. -/
theorem iterate_pass_eq_transform (f : Nat → ℤ) (n : Nat) {k : Nat} (hk : k < 2 ^ n) :
    (pass (2 ^ (n - 1)))^[n] f k = transform n f k := by
  have h := iterate_pass f (le_refl n) (a := 0) (b := k) (by simp) hk
  rw [Nat.sub_self, pow_zero, Nat.one_mul, Nat.add_zero, Nat.mul_zero] at h
  rw [h]
  exact Finset.sum_congr rfl fun c _ ↦ by rw [Nat.zero_add]

theorem sign_zero (n j : Nat) : sign n 0 j = 1 := by
  induction n with
  | zero => rfl
  | succ n ih =>
    rw [sign, ih, Nat.zero_testBit]
    simp

theorem sum_sign : ∀ {n k : Nat}, k < 2 ^ n → k ≠ 0 → ∑ j ∈ Finset.range (2 ^ n), sign n k j = 0
  | 0, k, hk, h0 => absurd (Nat.lt_one_iff.mp hk) h0
  | n + 1, k, hk, h0 => by
    have h2 : 2 ^ (n + 1) = 2 ^ n + 2 ^ n := by ring
    have hbelow : ∀ j < 2 ^ n, j.testBit n = false := fun j hj ↦ Nat.testBit_lt_two_pow hj
    have habove : ∀ j < 2 ^ n, (2 ^ n + j).testBit n = true := fun j hj ↦ by
      have h := Nat.testBit_two_pow_mul_add 1 hj n
      rwa [Nat.mul_one, if_neg (Nat.lt_irrefl n), Nat.sub_self] at h
    have hsame : ∀ j < 2 ^ n, sign n k (2 ^ n + j) = sign n k j := fun j hj ↦ by
      refine sign_congr (fun _ _ ↦ rfl) fun i hi ↦ ?_
      have h := Nat.testBit_two_pow_mul_add 1 hj i
      rwa [Nat.mul_one, if_pos hi] at h
    rw [h2, Finset.sum_range_add, ← Finset.sum_add_distrib]
    have hterm : ∀ j ∈ Finset.range (2 ^ n), sign (n + 1) k j + sign (n + 1) k (2 ^ n + j) =
        sign n k j * (1 + if k.testBit n then -1 else 1) := by
      intro j hj
      have hj := Finset.mem_range.mp hj
      rw [sign, sign, hbelow j hj, habove j hj, hsame j hj, Bool.and_false, Bool.and_true]
      simp [mul_add]
    rw [Finset.sum_congr rfl hterm, ← Finset.sum_mul]
    cases htop : k.testBit n with
    | true => simp
    | false =>
      have hlt : k < 2 ^ n := by
        refine Nat.lt_pow_two_of_testBit k fun i hi ↦ ?_
        rcases Nat.eq_or_lt_of_le hi with rfl | hi
        · exact htop
        · exact Nat.testBit_lt_two_pow (hk.trans_le (Nat.pow_le_pow_right (by decide) hi))
      rw [sum_sign hlt h0, zero_mul]

end KemtlsMavlink.Library.WalshHadamard
