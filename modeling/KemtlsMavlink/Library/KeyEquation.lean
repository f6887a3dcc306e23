import KemtlsMavlink.Library.BerlekampMassey
import Mathlib.Algebra.BigOperators.Field
import Mathlib.Algebra.Ring.GeomSum
import Mathlib.Algebra.Polynomial.BigOperators
import Mathlib.LinearAlgebra.Lagrange

namespace KemtlsMavlink.Library.KeyEquation

open Polynomial BerlekampMassey

variable {F ι : Type*} [Field F]

/-- The polynomial whose roots are the inverses of the locations of the errors. -/
noncomputable def locator (E : Finset ι) (x : ι → F) : F[X] := ∏ i ∈ E, (1 - C (x i) * X)

theorem coeff_locator_zero (E : Finset ι) (x : ι → F) : (locator E x).coeff 0 = 1 := by
  rw [coeff_zero_eq_eval_zero, locator, eval_prod]
  exact Finset.prod_eq_one fun i _ ↦ by simp

theorem natDegree_locator_le (E : Finset ι) (x : ι → F) : (locator E x).natDegree ≤ E.card := by
  refine (natDegree_prod_le _ _).trans ((Finset.sum_le_card_nsmul _ _ 1 fun i _ ↦ ?_).trans_eq
    (by rw [smul_eq_mul, mul_one]))
  refine (natDegree_sub_le _ _).trans (max_le (natDegree_one.trans_le (Nat.zero_le 1)) ?_)
  exact (natDegree_C_mul_le _ _).trans natDegree_X_le

theorem natDegree_locator {E : Finset ι} {x : ι → F} (hx : ∀ i ∈ E, x i ≠ 0) :
    (locator E x).natDegree = E.card := by
  have hlin : ∀ i ∈ E, (1 - C (x i) * X).natDegree = 1 := by
    intro i hi
    have h : 1 - C (x i) * X = C (-x i) * X + C 1 := by
      rw [C_neg, C_1]
      ring
    rw [h, natDegree_linear (neg_ne_zero.mpr (hx i hi))]
  have hne : ∀ i ∈ E, 1 - C (x i) * X ≠ 0 := by
    intro i hi h
    have h1 := hlin i hi
    rw [h, natDegree_zero] at h1
    exact Nat.zero_ne_one h1
  rw [locator, natDegree_prod _ _ hne, Finset.sum_congr rfl hlin, Finset.sum_const, smul_eq_mul,
    mul_one]

theorem eval_locator (E : Finset ι) (x : ι → F) (y : F) :
    (locator E x).eval y = ∏ i ∈ E, (1 - x i * y) := by
  rw [locator, eval_prod]
  exact Finset.prod_congr rfl fun i _ ↦ by simp

theorem eval_locator_inv {E : Finset ι} {x : ι → F} {i : ι} (hi : i ∈ E) (hx : x i ≠ 0) :
    (locator E x).eval (x i)⁻¹ = 0 := by
  rw [eval_locator]
  exact Finset.prod_eq_zero hi (by rw [mul_inv_cancel₀ hx, sub_self])

variable [DecidableEq ι]

noncomputable def evaluator (E : Finset ι) (x e : ι → F) : F[X] :=
  ∑ i ∈ E, C (e i * x i) * locator (E.erase i) x

def Syndromes (E : Finset ι) (x e : ι → F) (s : F[X]) (N : Nat) : Prop :=
  ∀ k < N, s.coeff k = ∑ i ∈ E, e i * x i ^ (k + 1)

variable {E : Finset ι} {x e : ι → F} {s : F[X]} {N : Nat}

theorem eval_evaluator {i : ι} (hi : i ∈ E) (hx : x i ≠ 0) :
    (evaluator E x e).eval (x i)⁻¹ = e i * x i * ∏ j ∈ E.erase i, (1 - x j * (x i)⁻¹) := by
  rw [evaluator, eval_finsetSum, Finset.sum_eq_single i]
  · rw [eval_mul, eval_C, eval_locator]
  · intro j _ hj
    rw [eval_mul, eval_locator_inv (Finset.mem_erase.mpr ⟨hj.symm, hi⟩) hx, mul_zero]
  · exact fun h ↦ absurd hi h

theorem coeff_evaluator {k : Nat} (hk : E.card ≤ k) : (evaluator E x e).coeff k = 0 := by
  rw [evaluator, finsetSum_coeff]
  refine Finset.sum_eq_zero fun i hi ↦ ?_
  rw [coeff_C_mul, coeff_eq_zero_of_natDegree_lt, mul_zero]
  have h := natDegree_locator_le (E.erase i) x
  have hpos := Finset.card_pos.mpr ⟨i, hi⟩
  rw [Finset.card_erase_of_mem hi] at h
  omega

theorem key_equation (hs : Syndromes E x e s N) : X ^ N ∣ locator E x * s - evaluator E x e := by
  let t : F[X] := ∑ i ∈ E, C (e i * x i) * ∑ k ∈ Finset.range N, (C (x i) * X) ^ k
  have hst : X ^ N ∣ s - t := by
    rw [X_pow_dvd_iff]
    intro k hk
    rw [coeff_sub, hs k hk, finsetSum_coeff, sub_eq_zero]
    refine Finset.sum_congr rfl fun i _ ↦ ?_
    rw [coeff_C_mul, finsetSum_coeff, Finset.sum_eq_single k]
    · rw [mul_pow, ← C_pow, coeff_C_mul, coeff_X_pow_self, mul_one, pow_succ]
      ring
    · intro j _ hj
      rw [mul_pow, ← C_pow, coeff_C_mul, coeff_X_pow, if_neg hj.symm, mul_zero]
    · exact fun h ↦ absurd (Finset.mem_range.mpr hk) h
  have ht : locator E x * t - evaluator E x e =
      X ^ N * -∑ i ∈ E, C (e i * x i) * locator (E.erase i) x * C (x i ^ N) := by
    rw [Finset.mul_sum, evaluator, ← Finset.sum_sub_distrib, mul_neg, Finset.mul_sum,
      ← Finset.sum_neg_distrib]
    refine Finset.sum_congr rfl fun i hi ↦ ?_
    have hg : (1 - C (x i) * X) * ∑ k ∈ Finset.range N, (C (x i) * X) ^ k =
        1 - (C (x i) * X) ^ N := mul_neg_geom_sum _ _
    have hl : locator E x = (1 - C (x i) * X) * locator (E.erase i) x :=
      (Finset.mul_prod_erase E _ hi).symm
    rw [hl, C_pow]
    rw [mul_pow] at hg
    linear_combination C (e i * x i) * locator (E.erase i) x * hg
  have hsum : locator E x * s - evaluator E x e =
      locator E x * (s - t) + (locator E x * t - evaluator E x e) := by ring
  rw [hsum, ht]
  exact dvd_add (hst.mul_left _) (dvd_mul_right _ _)

theorem generates_locator (hs : Syndromes E x e s N) :
    Generates s (locator E x) E.card N := by
  intro k hk hkN
  have h := X_pow_dvd_iff.mp (key_equation hs) k hkN
  rwa [coeff_sub, coeff_evaluator hk, sub_zero] at h

theorem coeff_mul_eq_zero {p q : F[X]} {a b k : Nat} (hp : p.natDegree ≤ a)
    (hq : ∀ j, b ≤ j → q.coeff j = 0) (hk : a + b ≤ k) : (p * q).coeff k = 0 := by
  rw [coeff_mul]
  refine Finset.sum_eq_zero ?_
  rintro ⟨i, j⟩ hij
  have hij := Finset.HasAntidiagonal.mem_antidiagonal.mp hij
  dsimp only at hij ⊢
  by_cases hi : i ≤ a
  · rw [hq j (by omega), mul_zero]
  · rw [coeff_eq_zero_of_natDegree_lt (by omega), zero_mul]

theorem eq_locator {c : F[X]} (hs : Syndromes E x e s N) (hinj : Set.InjOn x E)
    (hx : ∀ i ∈ E, x i ≠ 0) (he : ∀ i ∈ E, e i ≠ 0) (hN : 2 * E.card ≤ N)
    (hc : c.natDegree ≤ E.card) (hc0 : c.coeff 0 = 1) (hgen : Generates s c E.card N) :
    c = locator E x := by
  let r := (c * s) %ₘ X ^ N
  have hr : X ^ N ∣ c * s - r :=
    ⟨c * s /ₘ X ^ N, by linear_combination -modByMonic_add_div (c * s) (X ^ N)⟩
  have hrc : ∀ j, E.card ≤ j → r.coeff j = 0 := by
    intro j hj
    by_cases hjN : j < N
    · have h := X_pow_dvd_iff.mp hr j hjN
      rw [coeff_sub, hgen j hj hjN, zero_sub, neg_eq_zero] at h
      exact h
    · refine coeff_eq_zero_of_degree_lt ((degree_modByMonic_lt _ (monic_X_pow N)).trans_le ?_)
      rw [degree_X_pow]
      exact_mod_cast Nat.le_of_not_lt hjN
  have hprod : c * evaluator E x e = locator E x * r := by
    have hd : X ^ N ∣ c * evaluator E x e - locator E x * r := by
      have h : c * evaluator E x e - locator E x * r = locator E x * (c * s - r) -
          c * (locator E x * s - evaluator E x e) := by ring
      rw [h]
      exact dvd_sub (hr.mul_left _) ((key_equation hs).mul_left _)
    ext k
    by_cases hk : k < N
    · have h := X_pow_dvd_iff.mp hd k hk
      rwa [coeff_sub, sub_eq_zero] at h
    · rw [coeff_mul_eq_zero hc (fun _ h ↦ coeff_evaluator h) (by omega),
        coeff_mul_eq_zero (natDegree_locator_le E x) hrc (by omega)]
  have hroot : ∀ i ∈ E, c.eval (x i)⁻¹ = 0 := by
    intro i hi
    have h := congrArg (eval (x i)⁻¹) hprod
    rw [eval_mul, eval_mul, eval_locator_inv hi (hx i hi), zero_mul, eval_evaluator hi (hx i hi)]
      at h
    refine (mul_eq_zero.mp h).resolve_right ?_
    refine mul_ne_zero (mul_ne_zero (he i hi) (hx i hi)) (Finset.prod_ne_zero_iff.mpr ?_)
    intro j hj h0
    have hj := Finset.mem_erase.mp hj
    refine hj.1 (hinj hj.2 hi ?_)
    rw [sub_eq_zero] at h0
    exact eq_of_mul_inv_eq_one h0.symm
  classical
  let pts := insert 0 (E.image fun i ↦ (x i)⁻¹)
  have hcard : pts.card = E.card + 1 := by
    rw [Finset.card_insert_of_notMem, Finset.card_image_of_injOn]
    · exact fun i hi j hj h ↦ hinj hi hj (inv_injective h)
    · intro h0
      obtain ⟨i, hi, h⟩ := Finset.mem_image.mp h0
      exact inv_ne_zero (hx i hi) h
  refine eq_of_degree_sub_lt_of_eval_finset_eq pts ?_ ?_
  · rw [hcard]
    refine lt_of_le_of_lt (degree_le_of_natDegree_le
      ((natDegree_sub_le _ _).trans (max_le hc (natDegree_locator_le E x)))) ?_
    exact_mod_cast Nat.lt_succ_self _
  · intro y hy
    rcases Finset.mem_insert.mp hy with rfl | hy
    · rw [← coeff_zero_eq_eval_zero, ← coeff_zero_eq_eval_zero, hc0, coeff_locator_zero]
    · obtain ⟨i, hi, rfl⟩ := Finset.mem_image.mp hy
      rw [hroot i hi, eval_locator_inv hi (hx i hi)]

/-- The algorithm finds the locator of as many errors as half the syndromes. -/
theorem run_eq_locator (hs : Syndromes E x e s N) (hinj : Set.InjOn x E) (hx : ∀ i ∈ E, x i ≠ 0)
    (he : ∀ i ∈ E, e i ≠ 0) (hN : 2 * E.card ≤ N) :
    (∀ n ≤ N, (State.run s n).len ≤ E.card) ∧ (State.run s N).c = locator E x ∧
      (State.run s N).len = E.card := by
  have hlen := State.run_len_le (natDegree_locator_le E x)
    ((coeff_locator_zero E x).trans_ne one_ne_zero) (generates_locator hs)
  have hi := State.inv_run s N
  have hc : (State.run s N).c = locator E x :=
    eq_locator hs hinj hx he hN (hi.degree_c.trans (hlen N le_rfl)) hi.coeff_c
      fun k hk hkN ↦ hi.gen k ((hlen N le_rfl).trans hk) hkN
  refine ⟨hlen, hc, Nat.le_antisymm (hlen N le_rfl) ?_⟩
  rw [← natDegree_locator hx, ← hc]
  exact hi.degree_c

end KemtlsMavlink.Library.KeyEquation
