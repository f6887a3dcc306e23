import KemtlsMavlink.Hqc.ErrorValues
import Mathlib.LinearAlgebra.Lagrange

namespace KemtlsMavlink.Hqc

open Library Library.Coefficients Library.BerlekampMassey Library.KeyEquation Polynomial

/-- The places where two words differ. -/
def errorSet (a b : List UInt8) : Finset Nat :=
  (Finset.range a.length).filter (fun i ↦ a.getD i 0 ≠ b.getD i 0)

def errorAt (a b : List UInt8) (i : Nat) : Gf := Gf.of (a.getD i 0 ^^^ b.getD i 0).toUInt16

section

variable {msg cdw : List UInt8}

theorem length_reedSolomonEncode (hm : msg.length = 16) : (reedSolomonEncode msg).length = 46 := by
  have h : ∀ l : List UInt8, (l.foldr (fun m cdw ↦ encodeStep cdw m)
      (List.replicate 30 0)).length = 30 := by
    intro l
    cases l with
    | nil => rfl
    | cons m l => exact length_encodeStep _ _
  have hreg : (msg.reverse.foldl encodeStep (List.replicate (paramN1 - paramK) 0)).length = 30 := by
    rw [List.foldl_reverse]
    exact h msg
  rw [reedSolomonEncode, List.length_append, hreg, hm]

theorem errorAt_ne_zero {a b : List UInt8} {i : Nat} (hi : i ∈ errorSet a b) :
    errorAt a b i ≠ 0 := by
  intro h
  have h0 := (byte_toUInt16 _).eq_zero_iff.mp h
  refine (Finset.mem_filter.mp hi).2 (UInt8.xor_eq_zero_iff.mp (UInt8.toNat_inj.mp ?_))
  exact congrArg UInt16.toNat h0

theorem alpha_pow_injOn_errorSet {a b : List UInt8} (ha : a.length = 46) :
    Set.InjOn (fun i ↦ alpha ^ i) (errorSet a b) := by
  intro i hi j hj h
  have hi := Finset.mem_range.mp (Finset.mem_filter.mp hi).1
  have hj := Finset.mem_range.mp (Finset.mem_filter.mp hj).1
  exact alpha_pow_injOn (by omega) (by omega) h

theorem syndromes_of_errors (hm : msg.length = 16) (hl : cdw.length = 46) :
    Syndromes (errorSet cdw (reedSolomonEncode msg)) (fun i ↦ alpha ^ i)
      (errorAt cdw (reedSolomonEncode msg)) (toPoly (computeSyndromes cdw)) 30 := by
  intro k hk
  let enc := reedSolomonEncode msg
  have henc : valueAt (words enc) (alpha ^ (k + 1)) = 0 :=
    valueAt_reedSolomonEncode msg (valueAt_rsPolyCoefs (by omega) (Nat.succ_ne_zero k))
  have hwords : ∀ l : List UInt8, l.length = 46 → (words l).length ≤ 46 := fun l h ↦ by
    rw [words, List.length_map, h]
  rw [coeff_toPoly, getD_computeSyndromes hl hk, ← add_zero (valueAt _ _), ← henc,
    valueAt_eq_sum (hwords cdw hl), valueAt_eq_sum (hwords enc (length_reedSolomonEncode hm)),
    ← Finset.sum_add_distrib, errorSet, hl, Finset.sum_filter]
  refine Finset.sum_congr rfl fun i _ ↦ ?_
  rw [getD_words, getD_words, ← add_mul, ← of_toUInt16_xor, ← pow_mul, ← pow_mul,
    Nat.mul_comm (k + 1) i]
  split_ifs with h
  · rfl
  · rw [not_ne_iff.mp h, UInt8.xor_self]
    exact zero_mul _

theorem computeElp_locator (hm : msg.length = 16) (hl : cdw.length = 46)
    (herr : (errorSet cdw (reedSolomonEncode msg)).card ≤ 15) :
    (computeElp (computeSyndromes cdw)).1.length = 16 ∧
      Bytes (computeElp (computeSyndromes cdw)).1 ∧
      toPoly (computeElp (computeSyndromes cdw)).1 =
        locator (errorSet cdw (reedSolomonEncode msg)) (fun i ↦ alpha ^ i) ∧
      (computeElp (computeSyndromes cdw)).2.toNat =
        (errorSet cdw (reedSolomonEncode msg)).card := by
  obtain ⟨hlen, hc, hcard⟩ := run_eq_locator (syndromes_of_errors hm hl)
    (alpha_pow_injOn_errorSet hl) (fun i _ ↦ pow_ne_zero i alpha_ne_zero)
    (fun i hi ↦ errorAt_ne_zero hi) (by omega)
  obtain ⟨h1, h2, h3, h4⟩ := computeElp_eq (bytes_computeSyndromes cdw)
    fun n hn ↦ (hlen n hn).trans herr
  exact ⟨h1, h2, h3.trans hc, h4.trans hcard⟩

end

section

variable {E : Finset Nat} {e : Nat → Gf} {syndromes sigma : List UInt16} {deg : UInt16}

theorem of_computeZPoly (hs : Syndromes E (fun i ↦ alpha ^ i) e (toPoly syndromes) 30)
    (hsigma : toPoly sigma = locator E (fun i ↦ alpha ^ i)) (hdeg : deg.toNat = E.card)
    (hE : E.card ≤ 15) {k : Nat} (hk : k < 16) :
    Gf.of ((computeZPoly sigma deg syndromes).getD k 0) =
      (locator E (fun i ↦ alpha ^ i) + X * evaluator E (fun i ↦ alpha ^ i) e).coeff k := by
  have hcoeff : ∀ j, Gf.of (sigma.getD j 0) = (locator E (fun i ↦ alpha ^ i)).coeff j := fun j ↦ by
    rw [← hsigma, coeff_toPoly]
  cases k with
  | zero =>
    rw [coeff_add, coeff_locator_zero, coeff_X_mul_zero, add_zero]
    exact Gf.of_one
  | succ k =>
    have hkey := X_pow_dvd_iff.mp (key_equation hs) k (by omega)
    rw [coeff_sub, sub_eq_zero] at hkey
    rw [getD_computeZPoly (show k + 1 ≠ 0 by omega) hk (by omega), hdeg, coeff_add, coeff_X_mul,
      hcoeff]
    split_ifs with h1 h2
    · rw [← hkey, coeff_mul, Finset.Nat.sum_antidiagonal_eq_sum_range_succ
        (fun i j ↦ (locator E fun i ↦ alpha ^ i).coeff i * (toPoly syndromes).coeff j),
        Finset.sum_range_succ', coeff_locator_zero, one_mul, Nat.sub_zero, Nat.add_sub_cancel,
        coeff_toPoly, add_comm (Gf.of _) (∑ _ ∈ _, _)]
      refine congrArg (_ + ·) (congrArg (· + _) (Finset.sum_congr rfl fun j hj ↦ ?_))
      have hj := Finset.mem_range.mp hj
      have hidx : k + 1 - (j + 1) - 1 = k - (j + 1) := by omega
      rw [hcoeff, coeff_toPoly, hidx]
    · have h0 : E.card = 0 := by omega
      have hsyn := hs 0 (by decide)
      rw [coeff_toPoly, Finset.card_eq_zero.mp h0, Finset.sum_empty] at hsyn
      rw [hsyn, coeff_eq_zero_of_natDegree_lt ((natDegree_locator_le E _).trans_lt (by omega)),
        coeff_evaluator (by omega), add_zero]
    · rw [coeff_eq_zero_of_natDegree_lt ((natDegree_locator_le E _).trans_lt (by omega)),
        coeff_evaluator (by omega), add_zero]

/-- At the inverse of a location the polynomial is the value of the error, up to a product. -/
theorem eval_computeZPoly (hs : Syndromes E (fun i ↦ alpha ^ i) e (toPoly syndromes) 30)
    (hsigma : toPoly sigma = locator E (fun i ↦ alpha ^ i)) (hdeg : deg.toNat = E.card)
    (hE : E.card ≤ 15) {i : Nat} (hi : i ∈ E) :
    1 + ∑ j ∈ Finset.range 15, (alpha ^ i)⁻¹ ^ (j + 1) *
        Gf.of ((computeZPoly sigma deg syndromes).getD (j + 1) 0) =
      e i * ∏ j ∈ E.erase i, (1 - alpha ^ j * (alpha ^ i)⁻¹) := by
  let q := locator E (fun i ↦ alpha ^ i) + X * evaluator E (fun i ↦ alpha ^ i) e
  have hq : q.natDegree < 15 + 1 := by
    refine Nat.lt_succ_of_le (natDegree_le_iff_coeff_eq_zero.mpr fun k hk ↦ ?_)
    obtain ⟨k, rfl⟩ : ∃ m, k = m + 1 := ⟨k - 1, by omega⟩
    rw [coeff_add, coeff_X_mul, coeff_evaluator (by omega), add_zero]
    exact coeff_eq_zero_of_natDegree_lt ((natDegree_locator_le E _).trans_lt (by omega))
  have hsum : q.eval (alpha ^ i)⁻¹ = 1 + ∑ j ∈ Finset.range 15, (alpha ^ i)⁻¹ ^ (j + 1) *
      Gf.of ((computeZPoly sigma deg syndromes).getD (j + 1) 0) := by
    have h0 : q.coeff 0 = 1 := by
      rw [coeff_add, coeff_X_mul_zero, add_zero]
      exact coeff_locator_zero E _
    rw [eval_eq_sum_range' hq, Finset.sum_range_succ', h0, pow_zero, one_mul, add_comm]
    congr 1
    refine Finset.sum_congr rfl fun j hj ↦ ?_
    have hj := Finset.mem_range.mp hj
    rw [of_computeZPoly hs hsigma hdeg hE (by omega), mul_comm]
  have hne : alpha ^ i ≠ 0 := pow_ne_zero i alpha_ne_zero
  rw [← hsum, eval_add, eval_locator_inv hi hne, zero_add, eval_mul, eval_X, eval_evaluator hi hne]
  field_simp

theorem prod_rotate (f : Nat → Gf) {l : Nat} (hl : l < 15) :
    ∏ k ∈ Finset.range 14, f ((l + (k + 1)) % 15) = ∏ m ∈ (Finset.range 15).erase l, f m := by
  refine Finset.prod_nbij (fun k ↦ (l + (k + 1)) % 15) ?_ ?_ ?_ fun _ _ ↦ rfl
  · intro k hk
    have hk := Finset.mem_range.mp hk
    exact Finset.mem_erase.mpr ⟨by omega, Finset.mem_range.mpr (by omega)⟩
  · intro k hk k' hk' h
    have hk := Finset.mem_range.mp hk
    have hk' := Finset.mem_range.mp hk'
    dsimp only at h
    omega
  · intro m hm
    obtain ⟨hne, hm⟩ := Finset.mem_erase.mp hm
    have hm := Finset.mem_range.mp hm
    exact ⟨(m + 14 - l) % 15, Finset.mem_coe.mpr (Finset.mem_range.mpr (by omega)), by
      dsimp only
      omega⟩

end

section

variable {error : List UInt8} {E : Finset Nat}

theorem mem_errorPlaces {n i : Nat} : i ∈ errorPlaces error n ↔ i < n ∧ error.getD i 0 ≠ 0 := by
  rw [errorPlaces, List.mem_filter, List.mem_range, decide_eq_true_iff]

theorem nodup_errorPlaces (error : List UInt8) (n : Nat) : (errorPlaces error n).Nodup :=
  List.nodup_range.filter _

theorem getD_errorPlaces {n i : Nat} (hi : i < n) (he : error.getD i 0 ≠ 0) :
    (errorPlaces error i).length < (errorPlaces error n).length ∧
      (errorPlaces error n).getD (errorPlaces error i).length 0 = i := by
  induction n, hi using Nat.le_induction with
  | base => exact getD_errorPlaces_self he
  | succ n _ ih =>
    refine ⟨ih.1.trans_le (length_errorPlaces_mono error (Nat.le_add_right n 1)), ?_⟩
    rw [getD_errorPlaces_succ error ih.1, ih.2]

def Marks (error : List UInt8) (E : Finset Nat) : Prop :=
  (∀ i ∈ E, i < 46) ∧ ∀ i < 46, error.getD i 0 = if i ∈ E then 1 else 0

theorem Marks.ne_zero (h : Marks error E) {i : Nat} (hi : i < 46) :
    error.getD i 0 ≠ 0 ↔ i ∈ E := by
  rw [h.2 i hi]
  split_ifs with hE
  · exact iff_of_true (by decide) hE
  · exact iff_of_false (by decide) hE

theorem Marks.bit (h : Marks error E) (i : Nat) (hi : i < 46) :
    error.getD i 0 = 0 ∨ error.getD i 0 = 1 := by
  rw [h.2 i hi]
  split_ifs
  · exact .inr rfl
  · exact .inl rfl

theorem Marks.mem (h : Marks error E) {i : Nat} : i ∈ errorPlaces error 46 ↔ i ∈ E := by
  rw [mem_errorPlaces]
  exact ⟨fun hi ↦ (h.ne_zero hi.1).mp hi.2, fun hi ↦ ⟨h.1 i hi, (h.ne_zero (h.1 i hi)).mpr hi⟩⟩

theorem Marks.length (h : Marks error E) : (errorPlaces error 46).length = E.card := by
  have hE : (errorPlaces error 46).toFinset = E := by
    ext i
    rw [List.mem_toFinset, h.mem]
  rw [← hE, List.toFinset_card_of_nodup (nodup_errorPlaces error 46)]

theorem of_computeBetas (h : Marks error E) (hE : E.card ≤ 15) (m : Nat) :
    Gf.of ((computeBetas error).2.getD m 0) =
      if m < E.card then alpha ^ (errorPlaces error 46).getD m 0 else 0 := by
  rw [computeBetas_eq h.bit (by rw [h.length]; exact hE), getD_padded, h.length]
  split_ifs with hm
  · have hlt : (errorPlaces error 46).getD m 0 < 46 := by
      rw [List.getD_eq_getElem _ _ (by rwa [h.length])]
      exact h.1 _ (h.mem.mp (List.getElem_mem _))
    exact of_gfExp (by omega)
  · exact Gf.of_zero

theorem prod_betas (h : Marks error E) (hE : E.card ≤ 15) {i : Nat} (hi : i ∈ E) (y : Gf) :
    ∏ k ∈ Finset.range 14, (1 + y *
        Gf.of ((computeBetas error).2.getD (((errorPlaces error i).length + (k + 1)) % 15) 0)) =
      ∏ j ∈ E.erase i, (1 - alpha ^ j * y) := by
  let places := errorPlaces error 46
  obtain ⟨hlt, hplace⟩ := getD_errorPlaces (h.1 i hi) ((h.ne_zero (h.1 i hi)).mpr hi)
  rw [h.length] at hlt
  rw [prod_rotate (fun m ↦ 1 + y * Gf.of ((computeBetas error).2.getD m 0)) (by omega)]
  have hsub : (Finset.range E.card).erase (errorPlaces error i).length ⊆
      (Finset.range 15).erase (errorPlaces error i).length :=
    Finset.erase_subset_erase _ (Finset.range_subset_range.mpr hE)
  have hinj : ∀ m < E.card, ∀ m' < E.card, places.getD m 0 = places.getD m' 0 → m = m' := by
    intro m hm m' hm' heq
    have hlen : places.length = E.card := h.length
    rw [List.getD_eq_getElem _ _ (by omega), List.getD_eq_getElem _ _ (by omega)] at heq
    exact (nodup_errorPlaces error 46).getElem_inj_iff.mp heq
  rw [← Finset.prod_subset hsub]
  · refine Finset.prod_nbij (fun m ↦ places.getD m 0) ?_ ?_ ?_ ?_
    · intro m hm
      obtain ⟨hne, hm⟩ := Finset.mem_erase.mp hm
      have hm := Finset.mem_range.mp hm
      refine Finset.mem_erase.mpr ⟨fun heq ↦ hne (hinj m hm _ hlt (heq.trans hplace.symm)), ?_⟩
      rw [List.getD_eq_getElem _ _ (hm.trans_eq h.length.symm)]
      exact h.mem.mp (List.getElem_mem _)
    · intro m hm m' hm' heq
      exact hinj m (Finset.mem_range.mp (Finset.mem_erase.mp hm).2) m'
        (Finset.mem_range.mp (Finset.mem_erase.mp hm').2) heq
    · intro j hj
      obtain ⟨hne, hj⟩ := Finset.mem_erase.mp hj
      obtain ⟨hltj, hplacej⟩ := getD_errorPlaces (h.1 j hj) ((h.ne_zero (h.1 j hj)).mpr hj)
      rw [h.length] at hltj
      refine ⟨(errorPlaces error j).length, ?_, hplacej⟩
      refine Finset.mem_coe.mpr (Finset.mem_erase.mpr ⟨fun heq ↦ hne ?_, Finset.mem_range.mpr hltj⟩)
      rw [← hplacej, heq, hplace]
    · intro m hm
      obtain ⟨-, hm⟩ := Finset.mem_erase.mp hm
      have hm := Finset.mem_range.mp hm
      rw [of_computeBetas h hE, if_pos hm, CharTwo.sub_eq_add, mul_comm]
  · intro m hm hm'
    have hge : ¬m < E.card := fun hlt' ↦
      hm' (Finset.mem_erase.mpr ⟨(Finset.mem_erase.mp hm).1, Finset.mem_range.mpr hlt'⟩)
    rw [of_computeBetas h hE, if_neg hge, mul_zero, add_zero]

theorem bytes_computeEj (z betaJ : List UInt16) (m : UInt16) : Bytes (computeEj z betaJ m) := by
  intro a ha
  obtain ⟨i, -, rfl⟩ := List.mem_map.mp ha
  rw [Byte, UInt16.toNat_and]
  exact Nat.and_le_right.trans_lt (byte_gfMul _ _)

theorem getD_computeErrorValues (h : Marks error E) (hE : E.card ≤ 15) (z : List UInt16) {i : Nat}
    (hi : i < 46) : (computeErrorValues z error).getD i 0 = if error.getD i 0 ≠ 0 then
      (computeEj z (computeBetas error).2 (UInt16.ofNat E.card)).getD
        (errorPlaces error i).length 0 else 0 := by
  have hlen : (errorPlaces error 46).length ≤ 15 := h.length.trans_le hE
  have hcount : (computeBetas error).1 = UInt16.ofNat E.card := by
    rw [computeBetas_eq h.bit hlen, h.length]
  rw [computeErrorValues, hcount]
  exact getD_placeErrors h.bit hlen _ hi

theorem bytes_computeErrorValues (h : Marks error E) (hE : E.card ≤ 15) (z : List UInt16)
    {i : Nat} (hi : i < 46) : Byte ((computeErrorValues z error).getD i 0) := by
  rw [getD_computeErrorValues h hE z hi]
  split_ifs
  · exact (bytes_computeEj _ _ _).getD _
  · exact byte_zero

/-- `compute_error_values` finds the errors. -/
theorem of_computeErrorValues {e : Nat → Gf} {syndromes sigma : List UInt16} {deg : UInt16}
    (hs : Syndromes E (fun i ↦ alpha ^ i) e (toPoly syndromes) 30)
    (hsigma : toPoly sigma = locator E (fun i ↦ alpha ^ i)) (hdeg : deg.toNat = E.card)
    (h : Marks error E) (hE : E.card ≤ 15) {i : Nat} (hi : i < 46) :
    Gf.of ((computeErrorValues (computeZPoly sigma deg syndromes) error).getD i 0) =
      if i ∈ E then e i else 0 := by
  rw [getD_computeErrorValues h hE _ hi]
  by_cases hiE : i ∈ E
  · obtain ⟨hlt, hget⟩ := getD_errorPlaces hi ((h.ne_zero hi).mpr hiE)
    rw [h.length] at hlt
    have hbeta : Gf.of ((computeBetas error).2.getD (errorPlaces error i).length 0) =
        alpha ^ i := by
      rw [of_computeBetas h hE, if_pos hlt, hget]
    have hprod : ∏ j ∈ E.erase i, (1 - alpha ^ j * (alpha ^ i)⁻¹) ≠ 0 := by
      refine Finset.prod_ne_zero_iff.mpr fun j hj h0 ↦ (Finset.mem_erase.mp hj).1 ?_
      have hj' := h.1 j (Finset.mem_erase.mp hj).2
      exact alpha_pow_injOn (by omega) (by omega) (eq_of_mul_inv_eq_one (sub_eq_zero.mp h0).symm)
    rw [if_pos ((h.ne_zero hi).mpr hiE), if_pos hiE, getD_computeEj (by omega) (by omega),
      if_pos hlt, hbeta, eval_computeZPoly hs hsigma hdeg hE hiE, prod_betas h hE hiE,
      mul_inv_cancel_right₀ hprod]
  · rw [if_neg fun he ↦ hiE ((h.ne_zero hi).mp he), if_neg hiE]
    exact Gf.of_zero

end

section

variable {msg cdw : List UInt8}

theorem marks_computeRoots (hm : msg.length = 16) (hl : cdw.length = 46)
    (herr : (errorSet cdw (reedSolomonEncode msg)).card ≤ 15) :
    Marks (computeRoots (computeElp (computeSyndromes cdw)).1)
      (errorSet cdw (reedSolomonEncode msg)) := by
  obtain ⟨h1, h2, h3, -⟩ := computeElp_locator hm hl herr
  have hval : ∀ y, valueAt (computeElp (computeSyndromes cdw)).1 y =
      ∏ i ∈ errorSet cdw (reedSolomonEncode msg), (1 - alpha ^ i * y) := fun y ↦ by
    rw [← eval_locator, ← h3]
    rfl
  refine ⟨fun i hi ↦ ?_, fun i hi ↦ ?_⟩
  · exact (Finset.mem_range.mp (Finset.mem_filter.mp hi).1).trans_eq hl
  · have h0 : valueAt (computeElp (computeSyndromes cdw)).1 0 ≠ 0 := by
      rw [hval, Finset.prod_eq_one fun j _ ↦ by rw [mul_zero, sub_zero]]
      exact one_ne_zero
    have hroot := getD_fftRetrieveErrorPoly h1 h2 h0 (show i < 255 by omega)
    refine hroot.trans (if_congr ?_ rfl rfl)
    rw [hval, Finset.prod_eq_zero_iff]
    refine ⟨fun ⟨j, hj, h⟩ ↦ ?_, fun hi' ↦ ⟨i, hi', ?_⟩⟩
    · have hj' := Finset.mem_range.mp (Finset.mem_filter.mp hj).1
      have heq := eq_of_mul_inv_eq_one (sub_eq_zero.mp h).symm
      rwa [← alpha_pow_injOn (show j < 255 by omega) (show i < 255 by omega) heq]
    · rw [mul_inv_cancel₀ (pow_ne_zero i alpha_ne_zero), sub_self]

theorem errorValue_eq (hm : msg.length = 16) (hl : cdw.length = 46)
    (herr : (errorSet cdw (reedSolomonEncode msg)).card ≤ 15) {i : Nat} (hi : i < 46) :
    (computeErrorValues (computeZPoly (computeElp (computeSyndromes cdw)).1
      (computeElp (computeSyndromes cdw)).2 (computeSyndromes cdw))
        (computeRoots (computeElp (computeSyndromes cdw)).1)).getD i 0 =
      (cdw.getD i 0 ^^^ (reedSolomonEncode msg).getD i 0).toUInt16 := by
  obtain ⟨-, -, hsigma, hdeg⟩ := computeElp_locator hm hl herr
  have h := marks_computeRoots hm hl herr
  refine (bytes_computeErrorValues h herr _ hi).of_inj (byte_toUInt16 _) ?_
  rw [of_computeErrorValues (syndromes_of_errors hm hl) hsigma hdeg h herr hi]
  split_ifs with hE
  · rfl
  · have hsame : cdw.getD i 0 = (reedSolomonEncode msg).getD i 0 := by
      by_contra hne
      exact hE (Finset.mem_filter.mpr ⟨Finset.mem_range.mpr (hi.trans_eq hl.symm), hne⟩)
    rw [hsame, UInt8.xor_self]
    exact Gf.of_zero.symm

theorem getD_correctErrors (cdw : List UInt8) (values : List UInt16) {i : Nat}
    (hi : i < cdw.length) : (correctErrors cdw values).getD i 0 =
      cdw.getD i 0 ^^^ (values.getD i 0).toUInt8 := by
  rw [correctErrors, getD_mapIdx hi]

/-- At most 15 wrong bytes are put right. -/
theorem correctCodeword_eq (hm : msg.length = 16) (hl : cdw.length = 46)
    (herr : (errorSet cdw (reedSolomonEncode msg)).card ≤ 15) :
    correctCodeword cdw = reedSolomonEncode msg := by
  have henc := length_reedSolomonEncode hm
  rw [correctCodeword]
  refine List.ext_getElem (by rw [correctErrors, List.length_mapIdx, hl, henc]) fun i h₁ h₂ ↦ ?_
  have hi : i < 46 := h₂.trans_eq henc
  rw [← List.getD_eq_getElem _ 0 h₁, ← List.getD_eq_getElem _ 0 h₂,
    getD_correctErrors cdw _ (hi.trans_eq hl.symm), errorValue_eq hm hl herr hi,
    UInt8.toUInt8_toUInt16, ← UInt8.xor_assoc, UInt8.xor_self, UInt8.zero_xor]

theorem reedSolomonDecode_eq (hm : msg.length = 16) (hl : cdw.length = 46)
    (herr : (errorSet cdw (reedSolomonEncode msg)).card ≤ 15) : reedSolomonDecode cdw = msg := by
  have hreg : (msg.reverse.foldl encodeStep (List.replicate (paramN1 - paramK) 0)).length =
      paramG - 1 := by
    have h := length_reedSolomonEncode hm
    rw [reedSolomonEncode, List.length_append] at h
    change _ = 30
    omega
  rw [reedSolomonDecode, correctCodeword_eq hm hl herr, reedSolomonEncode, List.drop_left' hreg]
  exact List.take_of_length_le hm.le

end

theorem drop_reedSolomonEncode {msg : List UInt8} (hm : msg.length = 16) :
    (reedSolomonEncode msg).drop 30 = msg := by
  have h := length_reedSolomonEncode hm
  rw [reedSolomonEncode, List.length_append, hm] at h
  exact List.drop_left' (Nat.add_right_cancel h)

/-- The words with zero syndromes are the codewords of their last bytes. -/
theorem syndromes_eq_zero_iff_codeword (cdw : List UInt8) (hl : cdw.length = 46) :
    (∀ k < 30, (computeSyndromes cdw).getD k 0 = 0) ↔ reedSolomonEncode (cdw.drop 30) = cdw := by
  let msg := cdw.drop 30
  have hm : msg.length = 16 := by rw [List.length_drop, hl]
  have henc := length_reedSolomonEncode hm
  have hroot : ∀ k < 30, valueAt (words (reedSolomonEncode msg)) (alpha ^ (k + 1)) = 0 :=
    fun k hk ↦ valueAt_reedSolomonEncode msg
      (valueAt_rsPolyCoefs (by omega) (show k + 1 ≠ 0 by omega))
  constructor
  · intro hsyn
    let p := toPoly (words cdw) + toPoly (words (reedSolomonEncode msg))
    have hcoeff : ∀ i, p.coeff i = Gf.of (cdw.getD i 0).toUInt16 +
        Gf.of ((reedSolomonEncode msg).getD i 0).toUInt16 := fun i ↦ by
      rw [coeff_add, coeff_toPoly, coeff_toPoly, getD_words, getD_words]
    -- the last bytes agree, and 30 roots leave nothing of the others
    have hdeg : p.degree < (Finset.range 30).card := by
      rw [Finset.card_range, degree_lt_iff_coeff_zero]
      intro i hi
      obtain ⟨j, rfl⟩ := Nat.exists_eq_add_of_le hi
      have hsame : (reedSolomonEncode msg).getD (30 + j) 0 = cdw.getD (30 + j) 0 := by
        rw [List.getD_eq_getElem?_getD, ← List.getElem?_drop, drop_reedSolomonEncode hm,
          List.getElem?_drop, ← List.getD_eq_getElem?_getD]
      rw [hcoeff, hsame, CharTwo.add_self_eq_zero]
    have hzero : p = 0 := by
      refine eq_zero_of_degree_lt_of_eval_index_eq_zero (Finset.range 30)
        (v := fun k ↦ alpha ^ (k + 1)) (fun i hi j hj h ↦ ?_) hdeg fun k hk ↦ ?_
      · have hi := Finset.mem_range.mp hi
        have hj := Finset.mem_range.mp hj
        exact Nat.succ_injective (alpha_pow_injOn (by omega) (by omega) h)
      · have hk := Finset.mem_range.mp hk
        have hcdw := getD_computeSyndromes hl hk
        rw [hsyn k hk, Gf.of_zero] at hcdw
        rw [eval_add]
        change valueAt _ _ + valueAt _ _ = 0
        rw [← hcdw, hroot k hk, add_zero]
    refine List.ext_getElem (henc.trans hl.symm) fun i h₁ h₂ ↦ ?_
    rw [← List.getD_eq_getElem _ 0 h₁, ← List.getD_eq_getElem _ 0 h₂]
    have hi := hcoeff i
    rw [hzero, coeff_zero] at hi
    refine (UInt8.toNat_inj.mp ?_).symm
    exact congrArg UInt16.toNat ((byte_toUInt16 _).of_inj (byte_toUInt16 _)
      (CharTwo.add_eq_zero.mp hi.symm))
  · intro hcdw k hk
    refine (bytes_computeSyndromes cdw).getD k |>.eq_zero_iff.mp ?_
    rw [getD_computeSyndromes hl hk, ← hcdw, hroot k hk]

theorem syndromes_eq_zero_encoded :
    (∀ k < 30, (computeSyndromes (reedSolomonEncode (List.replicate 16 7))).getD k 0 = 0) ∧
      (reedSolomonEncode (List.replicate 16 7)).drop 30 = List.replicate 16 7 := by
  have hm : (List.replicate 16 (7 : UInt8)).length = 16 := List.length_replicate
  have hdrop := drop_reedSolomonEncode hm
  refine ⟨(syndromes_eq_zero_iff_codeword _ (length_reedSolomonEncode hm)).mpr ?_, hdrop⟩
  rw [hdrop]

/-- At most 15 wrong bytes: the codeword is restored, and its message read. -/
theorem reedSolomonDecode_corrects (msg cdw : List UInt8) (hm : msg.length = 16)
    (hl : cdw.length = 46) (herr : (errorSet cdw (reedSolomonEncode msg)).card ≤ 15) :
    correctCodeword cdw = reedSolomonEncode msg ∧ reedSolomonDecode cdw = msg :=
  ⟨correctCodeword_eq hm hl herr, reedSolomonDecode_eq hm hl herr⟩

/-- The first 15 bytes of a codeword, all bits flipped. -/
theorem reedSolomonDecode_corrects_flipped : reedSolomonDecode
    ((reedSolomonEncode (List.replicate 16 7)).mapIdx (fun i c ↦ if i < 15 then ~~~c else c)) =
      List.replicate 16 7 := by
  have hlen := length_reedSolomonEncode (List.length_replicate (n := 16) (a := (7 : UInt8)))
  refine (reedSolomonDecode_corrects _ _ List.length_replicate
    (List.length_mapIdx.trans hlen) ?_).2
  refine (Finset.card_le_card fun i hi ↦ ?_).trans_eq (Finset.card_range 15)
  obtain ⟨hi, hne⟩ := Finset.mem_filter.mp hi
  rw [List.length_mapIdx, Finset.mem_range] at hi
  rw [getD_mapIdx hi] at hne
  by_contra hge
  exact hne (if_neg (fun h ↦ hge (Finset.mem_range.mpr h)))

end KemtlsMavlink.Hqc
