import KemtlsMavlink.Hqc.Locator

namespace KemtlsMavlink.Hqc

open Library Library.Coefficients Polynomial

theorem xtime_lt {n : Nat} (hn : n < 256) : xtime n < 256 :=
  (by decide +kernel : ∀ n < 256, xtime n < 256) n hn

theorem iterate_xtime_lt {n : Nat} (hn : n < 256) (m : Nat) : xtime^[m] n < 256 := by
  induction m with
  | zero => exact hn
  | succ m ih =>
    rw [Function.iterate_succ_apply']
    exact xtime_lt ih

def ofByte (n : Nat) : Gf := Gf.of (UInt16.ofNat n)

theorem ofByte_toNat (a : UInt16) : ofByte a.toNat = Gf.of a := by
  rw [ofByte, UInt16.ofNat_toNat]

theorem ofByte_iterate_xtime {n : Nat} (hn : n < 256) (m : Nat) :
    ofByte (xtime^[m] n) = alpha ^ m * ofByte n := by
  induction m with
  | zero => rw [pow_zero, one_mul]; rfl
  | succ m ih =>
    have hlt := iterate_xtime_lt hn m
    have hlt' := xtime_lt hlt
    have h : ∀ k, k < 256 → (UInt16.ofNat k).toNat = k := fun k hk ↦ by
      rw [UInt16.toNat_ofNat', Nat.mod_eq_of_lt (by omega)]
    rw [Function.iterate_succ_apply', pow_succ', mul_assoc, ← ih]
    apply Gf.toRoot_injective
    rw [Gf.toRoot_mul, ofByte, ofByte, alpha, Gf.toRoot_of, Gf.toRoot_of, Gf.toRoot_of]
    exact gfClass_exp_succ (by rwa [h _ hlt]) (by rw [h _ hlt, h _ hlt'])

theorem ofByte_xor (m n : Nat) : ofByte (m ^^^ n) = ofByte m + ofByte n := by
  rw [ofByte, UInt16.ofNat_xor, Gf.of_xor, ofByte, ofByte]

theorem valueAt_eq_sum {f : List UInt16} {n : Nat} (hf : f.length ≤ n) (x : Gf) :
    valueAt f x = ∑ i ∈ Finset.range n, Gf.of (f.getD i 0) * x ^ i := by
  cases n with
  | zero =>
    rw [List.length_eq_zero_iff.mp (Nat.le_zero.mp hf), valueAt_nil, Finset.sum_range_zero]
  | succ n =>
    have hdeg : (toPoly f).natDegree < n + 1 :=
      Nat.lt_succ_of_le (natDegree_ofList_le (by rwa [List.length_map]))
    change (toPoly f).eval x = _
    rw [eval_eq_sum_range' hdeg]
    exact Finset.sum_congr rfl fun i _ ↦ by rw [coeff_toPoly]

def words (l : List UInt8) : List UInt16 := l.map UInt8.toUInt16

theorem byte_toUInt16 (a : UInt8) : Byte a.toUInt16 := a.toNat_lt

theorem getD_words (l : List UInt8) (i : Nat) : (words l).getD i 0 = (l.getD i 0).toUInt16 :=
  List.getD_map l 0 UInt8.toUInt16

theorem valueAt_rsPolyCoefs {m : Nat} (hm : m < 31) (h0 : m ≠ 0) :
    valueAt rsPolyCoefs (alpha ^ m) = 0 := by
  have horner : ∀ l : List UInt16, Bytes l → ∀ m,
      l.foldr (fun g acc ↦ g.toNat ^^^ xtime^[m] acc) 0 < 256 ∧
        ofByte (l.foldr (fun g acc ↦ g.toNat ^^^ xtime^[m] acc) 0) = valueAt l (alpha ^ m) := by
    intro l hl m
    induction l with
    | nil => exact ⟨(by decide : 0 < 256), Gf.of_zero.trans (valueAt_nil _).symm⟩
    | cons g l ih =>
      obtain ⟨hg, hl⟩ := List.forall_mem_cons.mp hl
      obtain ⟨hlt, ih⟩ := ih hl
      rw [List.foldr_cons, ofByte_xor, ofByte_iterate_xtime hlt, ih, ofByte_toNat, valueAt_cons]
      exact ⟨Nat.xor_lt_two_pow (n := 8) hg (iterate_xtime_lt hlt m), rfl⟩
  have hb : ∀ a ∈ rsPolyCoefs, a.toNat < 256 := forall_of_all (by decide)
  have hroots : ∀ m < 31, m ≠ 0 →
      rsPolyCoefs.foldr (fun g acc ↦ g.toNat ^^^ xtime^[m] acc) 0 = 0 := by
    decide +kernel
  have h := (horner rsPolyCoefs hb m).2
  rw [hroots m hm h0] at h
  exact h.symm

theorem getD_rsPolyCoefs_last : rsPolyCoefs.getD 30 0 = 1 := rfl

theorem length_encodeStep (cdw : List UInt8) (m : UInt8) : (encodeStep cdw m).length = 30 := by
  rw [encodeStep, List.length_map, List.length_range]
  rfl

theorem of_toUInt8 {a : UInt16} (ha : Byte a) : Gf.of a.toUInt8.toUInt16 = Gf.of a := by
  have h : a.toUInt8.toUInt16.toNat = a.toNat := Nat.mod_eq_of_lt ha
  rw [UInt16.toNat_inj.mp h]

theorem of_toUInt16_xor (a b : UInt8) :
    Gf.of (a ^^^ b).toUInt16 = Gf.of a.toUInt16 + Gf.of b.toUInt16 := by
  rw [UInt8.toUInt16_xor, Gf.of_xor]

theorem valueAt_encodeStep {cdw : List UInt8} (hl : cdw.length = 30) (m : UInt8) {x : Gf}
    (hx : valueAt rsPolyCoefs x = 0) : valueAt (words (encodeStep cdw m)) x =
      x * valueAt (words cdw) x + x ^ 30 * Gf.of m.toUInt16 := by
  let gate := m ^^^ cdw.getD 29 0
  have hget : ∀ k < 30, Gf.of ((words (encodeStep cdw m)).getD k 0) =
      (if k = 0 then 0 else Gf.of ((words cdw).getD (k - 1) 0)) +
        Gf.of gate.toUInt16 * Gf.of (rsPolyCoefs.getD k 0) := by
    intro k hk
    have htmp : (rsPolyCoefs.map (gfMul gate.toUInt16 ·)).getD k 0 =
        gfMul gate.toUInt16 (rsPolyCoefs.getD k 0) := by
      have hlen : k < rsPolyCoefs.length := by
        change k < 31
        omega
      rw [List.getD_eq_getElem?_getD, List.getElem?_map, List.getElem?_eq_getElem hlen,
        List.getD_eq_getElem _ _ hlen]
      rfl
    have hstep : (encodeStep cdw m).getD k 0 = if k = 0 then
        ((rsPolyCoefs.map (gfMul gate.toUInt16 ·)).getD 0 0).toUInt8
        else ((cdw.getD (k - 1) 0).toUInt16 ^^^
          (rsPolyCoefs.map (gfMul gate.toUInt16 ·)).getD k 0).toUInt8 := by
      have hk' : k < paramN1 - paramK := hk
      rw [encodeStep, List.getD_eq_getElem?_getD, List.getElem?_map, List.getElem?_range hk']
      rfl
    rw [getD_words, hstep]
    split_ifs with h0
    · subst h0
      rw [htmp, of_toUInt8 (byte_gfMul _ _), Gf.of_gfMul, zero_add]
    · rw [htmp, of_toUInt8 ((byte_toUInt16 _).xor (byte_gfMul _ _)), Gf.of_xor,
        Gf.of_gfMul, getD_words]
  have hpoly : valueAt rsPolyCoefs x =
      ∑ k ∈ Finset.range 30, Gf.of (rsPolyCoefs.getD k 0) * x ^ k + x ^ 30 := by
    rw [valueAt_eq_sum (n := 31) (by decide), Finset.sum_range_succ, getD_rsPolyCoefs_last,
      Gf.of_one,
      one_mul]
  have hcdw : x * valueAt (words cdw) x =
      ∑ k ∈ Finset.range 30, (if k = 0 then 0 else Gf.of ((words cdw).getD (k - 1) 0)) * x ^ k +
        Gf.of (cdw.getD 29 0).toUInt16 * x ^ 30 := by
    rw [valueAt_eq_sum (n := 30) (by rw [words, List.length_map, hl]), mul_sum_shift _ 29,
      getD_words cdw 29]
  have hsum : valueAt (words (encodeStep cdw m)) x =
      ∑ k ∈ Finset.range 30, (if k = 0 then 0 else Gf.of ((words cdw).getD (k - 1) 0)) * x ^ k +
        Gf.of gate.toUInt16 * ∑ k ∈ Finset.range 30, Gf.of (rsPolyCoefs.getD k 0) * x ^ k := by
    rw [valueAt_eq_sum (n := 30) (by rw [words, List.length_map, length_encodeStep]),
      Finset.mul_sum, ← Finset.sum_add_distrib]
    refine Finset.sum_congr rfl fun k hk ↦ ?_
    rw [hget k (Finset.mem_range.mp hk)]
    ring
  rw [hpoly] at hx
  rw [hsum, hcdw, of_toUInt16_xor]
  linear_combination (Gf.of m.toUInt16 + Gf.of (cdw.getD 29 0).toUInt16) * hx -
    (Gf.of (cdw.getD 29 0).toUInt16 + Gf.of m.toUInt16) * x ^ 30 * CharTwo.two_eq_zero (R := Gf)

/-- Every codeword vanishes at the roots of the generator polynomial. -/
theorem valueAt_reedSolomonEncode (msg : List UInt8) {x : Gf} (hx : valueAt rsPolyCoefs x = 0) :
    valueAt (words (reedSolomonEncode msg)) x = 0 := by
  have hreg : ∀ l : List UInt8, (l.foldr (fun m cdw ↦ encodeStep cdw m)
      (List.replicate 30 0)).length = 30 ∧
      valueAt (words (l.foldr (fun m cdw ↦ encodeStep cdw m) (List.replicate 30 0))) x =
        x ^ 30 * valueAt (words l) x := by
    intro l
    induction l with
    | nil =>
      refine ⟨List.length_replicate, ?_⟩
      rw [valueAt_eq_sum (n := 30) (by rw [words, List.length_map, List.foldr_nil,
        List.length_replicate])]
      change _ = x ^ 30 * valueAt [] x
      rw [valueAt_nil, mul_zero]
      refine Finset.sum_eq_zero fun i hi ↦ ?_
      rw [getD_words, List.foldr_nil, List.getD_replicate _ (Finset.mem_range.mp hi)]
      exact zero_mul _
    | cons m l ih =>
      rw [List.foldr_cons]
      refine ⟨length_encodeStep _ _, ?_⟩
      rw [valueAt_encodeStep ih.1 m hx, ih.2]
      change _ = x ^ 30 * valueAt (m.toUInt16 :: words l) x
      rw [valueAt_cons]
      ring
  obtain ⟨hlen, hval⟩ := hreg msg
  have henc : words (reedSolomonEncode msg) =
      words (msg.foldr (fun m cdw ↦ encodeStep cdw m) (List.replicate 30 0)) ++ words msg := by
    rw [reedSolomonEncode, words, List.map_append, List.foldl_reverse]
    rfl
  have hwords : (words (msg.foldr (fun m cdw ↦ encodeStep cdw m) (List.replicate 30 0))).length =
      30 := List.length_map _ |>.trans hlen
  rw [henc, valueAt_append, hval, hwords]
  exact CharTwo.add_self_eq_zero _

theorem alphaIjPow_rows : ∀ i < 30, (alphaIjPow.getD i []).map UInt16.toNat =
    List.iterate xtime^[i + 1] (xtime^[i + 1] 1) 45 := by
  decide +kernel

theorem of_alphaIjPow {i j : Nat} (hi : i < 30) (hj : j < 45) :
    Gf.of ((alphaIjPow.getD i []).getD j 0) = (alpha ^ (i + 1)) ^ (j + 1) := by
  have hrow := congrArg (fun l ↦ l[j]?) (alphaIjPow_rows i hi)
  have hlen : j < (alphaIjPow.getD i []).length := by
    have h := congrArg List.length (alphaIjPow_rows i hi)
    rw [List.length_map, List.length_iterate] at h
    omega
  have hpow : ∀ m, (xtime^[i + 1])^[m] (xtime^[i + 1] 1) < 256 ∧
      ofByte ((xtime^[i + 1])^[m] (xtime^[i + 1] 1)) = (alpha ^ (i + 1)) ^ (m + 1) := by
    intro m
    induction m with
    | zero =>
      refine ⟨iterate_xtime_lt (by decide) _, ?_⟩
      rw [Function.iterate_zero_apply, ofByte_iterate_xtime (by decide), pow_one]
      exact mul_one _
    | succ m ih =>
      rw [Function.iterate_succ_apply']
      refine ⟨iterate_xtime_lt ih.1 _, ?_⟩
      rw [ofByte_iterate_xtime ih.1, ih.2, pow_succ' _ (m + 1)]
  have hn : ((alphaIjPow.getD i []).getD j 0).toNat = (xtime^[i + 1])^[j] (xtime^[i + 1] 1) := by
    rw [List.getElem?_map, List.getElem?_eq_getElem hlen, List.getElem?_iterate _ _ _ _ hj] at hrow
    rw [List.getD_eq_getElem _ _ hlen]
    exact Option.some.inj hrow
  rw [← ofByte_toNat, hn, (hpow j).2]

/-- The syndromes are the values at the roots of the generator polynomial. -/
theorem getD_computeSyndromes {cdw : List UInt8} (hl : cdw.length = 46) {k : Nat} (hk : k < 30) :
    Gf.of ((computeSyndromes cdw).getD k 0) = valueAt (words cdw) (alpha ^ (k + 1)) := by
  have hget : (computeSyndromes cdw).getD k 0 = (List.range' 1 45).foldl (fun s j ↦
      s ^^^ gfMul (cdw.getD j 0).toUInt16 ((alphaIjPow.getD k []).getD (j - 1) 0)) 0 ^^^
        (cdw.getD 0 0).toUInt16 := by
    have hk' : k < 2 * paramDelta := hk
    rw [computeSyndromes, List.getD_eq_getElem?_getD, List.getElem?_map, List.getElem?_range hk']
    rfl
  have hwl : (words cdw).length ≤ 45 + 1 := by rw [words, List.length_map, hl]
  have hval := valueAt_eq_sum hwl (alpha ^ (k + 1))
  rw [Finset.sum_range_succ', pow_zero, mul_one, getD_words] at hval
  rw [hget, Gf.of_xor, of_foldl_xor, hval, Gf.of_zero, zero_add]
  congr 1
  refine Finset.sum_congr rfl fun j hj ↦ ?_
  rw [Gf.of_gfMul, Nat.add_sub_cancel, of_alphaIjPow hk (Finset.mem_range.mp hj), getD_words]

theorem bytes_computeSyndromes (cdw : List UInt8) : Bytes (computeSyndromes cdw) := by
  intro a ha
  obtain ⟨k, -, rfl⟩ := List.mem_map.mp ha
  exact (byte_foldl_xor (fun _ ↦ byte_gfMul _ _) byte_zero _).xor (byte_toUInt16 _)

end KemtlsMavlink.Hqc
