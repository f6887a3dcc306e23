import KemtlsMavlink.Hqc.Codeword

namespace KemtlsMavlink.Hqc

open Library Library.Coefficients Polynomial

section

variable {sigma syndromes : List UInt16} {deg : UInt16}

theorem getD_computeZPoly {i : Nat} (h0 : i ≠ 0) (hi : i < 16) (hdeg : deg.toNat ≤ 15) :
    Gf.of ((computeZPoly sigma deg syndromes).getD i 0) =
      if i ≤ deg.toNat then Gf.of (sigma.getD i 0) + (Gf.of (syndromes.getD (i - 1) 0) +
        ∑ j ∈ Finset.range (i - 1),
          Gf.of (sigma.getD (j + 1) 0) * Gf.of (syndromes.getD (i - (j + 1) - 1) 0))
      else if i = 1 then Gf.of (syndromes.getD 0 0) else 0 := by
  obtain ⟨k, rfl⟩ : ∃ k, i = k + 1 := ⟨i - 1, by omega⟩
  have hmask : (0 : UInt16) - ((UInt16.ofNat (1 + k) - deg - (1 : UInt16)) >>> 15) =
      maskOf (k + 1 ≤ deg.toNat) := by
    have hsub : UInt16.ofNat (1 + k) - deg - (1 : UInt16) =
        UInt16.ofNat (1 + k) - (deg + (1 : UInt16)) := by grind
    have h₁ : (UInt16.ofNat (1 + k)).toNat = k + 1 := by
      rw [UInt16.toNat_ofNat', Nat.mod_eq_of_lt (by omega), Nat.add_comm]
    have h₂ : (deg + (1 : UInt16)).toNat = deg.toNat + 1 := by
      rw [UInt16.toNat_add, UInt16.toNat_one, Nat.mod_eq_of_lt (by omega)]
    rw [hsub, mask_of_lt (by omega) (by omega), h₁, h₂]
    simp only [Nat.lt_succ_iff]
  have hget : (computeZPoly sigma deg syndromes).getD (k + 1) 0 =
      if 1 + k = 1 then (maskOf (k + 1 ≤ deg.toNat) &&& sigma.getD 1 0) ^^^ syndromes.getD 0 0
      else (List.range' 1 (1 + k - 1)).foldl (fun z j ↦ z ^^^ (maskOf (k + 1 ≤ deg.toNat) &&&
        gfMul (sigma.getD j 0) (syndromes.getD (1 + k - j - 1) 0)))
          ((maskOf (k + 1 ≤ deg.toNat) &&& sigma.getD (1 + k) 0) ^^^
            (maskOf (k + 1 ≤ deg.toNat) &&& syndromes.getD (1 + k - 1) 0)) := by
    have hk : k < paramDelta := by
      change k < 15
      omega
    rw [computeZPoly, List.getD_cons_succ, List.getD_eq_getElem?_getD, List.getElem?_map,
      List.getElem?_range' hk, Nat.one_mul, Option.map_some, Option.getD_some, hmask]
  rw [hget]
  by_cases h1 : k = 0
  · subst h1
    rw [if_pos rfl, Gf.of_xor, maskOf_and, if_pos (Nat.zero_add 1)]
    split_ifs
    · rw [Nat.zero_add, Nat.sub_self, Finset.sum_range_zero, add_zero]
    · rw [Gf.of_zero, zero_add]
  · rw [if_neg (by omega), if_neg (by omega : ¬k + 1 = 1), of_foldl_xor, Gf.of_xor]
    simp only [maskOf_and]
    have hsum : 1 + k = k + 1 := Nat.add_comm 1 k
    split_ifs
    · rw [hsum, add_assoc]
      simp only [Gf.of_gfMul]
    · simp

end

theorem errorMask_eq : ∀ e < 2, ∀ j < 15, ∀ m < 16, errorMask (UInt8.ofNat e) j (UInt16.ofNat m) =
    if e ≠ 0 ∧ j = m then 0xFFFF else 0 := by
  decide +kernel

theorem realMask_eq : ∀ i < 15, ∀ m < 16,
    ((Int32.ofNat i - (UInt16.ofNat m).toUInt32.toInt32) >>> 15).toUInt32.toUInt16 =
      if i < m then 0xFFFF else 0 := by
  decide +kernel

def errorPlaces (error : List UInt8) (n : Nat) : List Nat :=
  (List.range n).filter (fun i ↦ error.getD i 0 ≠ 0)

section

variable {error : List UInt8} (h01 : ∀ i < 46, error.getD i 0 = 0 ∨ error.getD i 0 = 1)

theorem errorPlaces_succ (error : List UInt8) (n : Nat) : errorPlaces error (n + 1) =
    errorPlaces error n ++ if error.getD n 0 ≠ 0 then [n] else [] := by
  rw [errorPlaces, List.range_succ, List.filter_append, errorPlaces, List.filter_singleton]
  split_ifs <;> simp_all

theorem length_errorPlaces_mono (error : List UInt8) {m n : Nat} (h : m ≤ n) :
    (errorPlaces error m).length ≤ (errorPlaces error n).length := by
  induction n, h using Nat.le_induction with
  | base => exact le_rfl
  | succ n _ ih =>
    rw [errorPlaces_succ, List.length_append]
    omega

include h01

theorem errorMask_places {n : Nat} (hn : n < 46) {j m : Nat} (hj : j < 15) (hm : m < 16) :
    errorMask (error.getD n 0) j (UInt16.ofNat m) =
      maskOf (error.getD n 0 ≠ 0 ∧ j = m) := by
  rcases h01 n hn with h | h
  · rw [h]
    exact (errorMask_eq 0 (by decide) j hj m hm).trans (if_congr (by simp) rfl rfl)
  · rw [h]
    exact (errorMask_eq 1 (by decide) j hj m hm).trans (if_congr (by simp) rfl rfl)

theorem foldl_errorMask {n m : Nat} (hn : n < 46) (hm : m < 16) (g : Nat → UInt16) (k : Nat)
    (hk : k ≤ 15) : (List.range k).foldl
      (fun v j ↦ v + (errorMask (error.getD n 0) j (UInt16.ofNat m) &&& g j)) 0 =
        if error.getD n 0 ≠ 0 ∧ m < k then g m else 0 := by
  induction k with
  | zero => rw [if_neg fun h ↦ Nat.not_lt_zero m h.2]; rfl
  | succ k ih =>
    rw [List.range_succ, List.foldl_concat, ih (by omega),
      errorMask_places h01 hn (by omega) hm, maskOf_and]
    by_cases he : error.getD n 0 = 0
    · rw [if_neg fun h ↦ h.1 he, if_neg fun h ↦ h.1 he, if_neg fun h ↦ h.1 he]
      rfl
    · rcases Nat.lt_trichotomy m k with h | h | h
      · rw [if_pos ⟨he, h⟩, if_neg (by omega), if_pos ⟨he, by omega⟩]
        exact UInt16.add_zero _
      · rw [if_neg (by omega), if_pos ⟨he, h.symm⟩, if_pos ⟨he, by omega⟩, h]
        exact UInt16.zero_add _
      · rw [if_neg (by omega), if_neg (by omega), if_neg (by omega)]
        rfl

theorem nextCounter_eq {n : Nat} (hn : n < 46) (hlen : (errorPlaces error (n + 1)).length ≤ 15) :
    nextCounter (error.getD n 0) (UInt16.ofNat (errorPlaces error n).length) =
      UInt16.ofNat (errorPlaces error (n + 1)).length := by
  have hle := length_errorPlaces_mono error (Nat.le_add_right n 1)
  let m := (errorPlaces error n).length
  have hnext : nextCounter (error.getD n 0) (UInt16.ofNat m) =
      UInt16.ofNat m + if error.getD n 0 ≠ 0 ∧ m < 15 then 1 else 0 := by
    rw [nextCounter]
    exact congrArg _ (foldl_errorMask h01 hn (by omega) (fun _ ↦ 1) 15 le_rfl)
  rw [errorPlaces_succ, List.length_append] at hlen ⊢
  rw [hnext]
  by_cases he : error.getD n 0 = 0
  · rw [if_neg fun h ↦ h.1 he, if_neg (not_not.mpr he)]
    exact UInt16.add_zero _
  · rw [if_pos (show _ from he)] at hlen ⊢
    rw [List.length_singleton] at hlen
    rw [if_pos ⟨he, by omega⟩, UInt16.ofNat_add]
    rfl

omit h01 in
theorem getD_padded (l : List Nat) (k i : Nat) :
    (l.map (gfExp.getD · 0) ++ List.replicate k 0).getD i 0 =
      if i < l.length then gfExp.getD (l.getD i 0) 0 else 0 := by
  split_ifs with h
  · rw [List.getD_append _ _ _ _ (by rwa [List.length_map]), List.getD_eq_getElem?_getD,
      List.getElem?_map, List.getElem?_eq_getElem h, List.getD_eq_getElem _ _ h]
    rfl
  · rw [List.getD_append_right _ _ _ _ (by rw [List.length_map]; omega),
      List.getD_eq_getElem?_getD, List.getElem?_getD_replicate_default_eq]

omit h01 in
theorem getD_errorPlaces_succ (error : List UInt8) {n i : Nat}
    (hi : i < (errorPlaces error n).length) :
    (errorPlaces error (n + 1)).getD i 0 = (errorPlaces error n).getD i 0 := by
  rw [errorPlaces_succ, List.getD_append _ _ _ _ hi]

omit h01 in
theorem getD_errorPlaces_self {error : List UInt8} {n : Nat} (h : error.getD n 0 ≠ 0) :
    (errorPlaces error n).length < (errorPlaces error (n + 1)).length ∧
      (errorPlaces error (n + 1)).getD (errorPlaces error n).length 0 = n := by
  rw [errorPlaces_succ, if_pos h]
  refine ⟨by rw [List.length_append, List.length_singleton]; omega, ?_⟩
  rw [List.getD_append_right _ _ _ _ le_rfl, Nat.sub_self]
  rfl

theorem computeBetas_eq (hlen : (errorPlaces error 46).length ≤ 15) : computeBetas error =
    (UInt16.ofNat (errorPlaces error 46).length,
      (errorPlaces error 46).map (gfExp.getD · 0) ++
        List.replicate (15 - (errorPlaces error 46).length) 0) := by
  have hrun : ∀ n ≤ 46, (List.range n).foldl (fun (s : UInt16 × List UInt16) i ↦
      (nextCounter (error.getD i 0) s.1, s.2.mapIdx (fun j b ↦
        b + (errorMask (error.getD i 0) j s.1 &&& gfExp.getD i 0))))
      (0, List.replicate paramDelta 0) = (UInt16.ofNat (errorPlaces error n).length,
        (errorPlaces error n).map (gfExp.getD · 0) ++
          List.replicate (15 - (errorPlaces error n).length) 0) := by
    intro n hn
    induction n with
    | zero => rfl
    | succ n ih =>
      have hle := length_errorPlaces_mono error hn
      have hle' := length_errorPlaces_mono error (Nat.le_add_right n 1)
      rw [List.range_succ, List.foldl_concat, ih (by omega)]
      dsimp only
      rw [nextCounter_eq h01 hn (by omega)]
      congr 1
      apply List.ext_getElem
      · rw [errorPlaces_succ] at hle ⊢
        simp only [List.length_mapIdx, List.length_append, List.length_map, List.length_replicate]
        rw [List.length_append] at hle
        omega
      · intro i h₁ h₂
        have hi : i < 15 := by
          rw [List.length_mapIdx, List.length_append, List.length_map, List.length_replicate] at h₁
          omega
        have hb : ∀ a : UInt16, a + 0 = a := fun a ↦ UInt16.add_zero a
        rw [List.getElem_mapIdx, errorMask_places h01 hn hi (by omega), maskOf_and,
          ← List.getD_eq_getElem _ 0, ← List.getD_eq_getElem _ 0, getD_padded, getD_padded]
        by_cases he : error.getD n 0 = 0
        · have hsame : errorPlaces error (n + 1) = errorPlaces error n := by
            rw [errorPlaces_succ, if_neg (not_not.mpr he), List.append_nil]
          have hno : ¬(error.getD n 0 ≠ 0 ∧ i = (errorPlaces error n).length) := fun h ↦ h.1 he
          rw [if_neg hno, hb, hsame]
        · obtain ⟨hlt, hself⟩ := getD_errorPlaces_self he
          rcases Nat.lt_trichotomy i (errorPlaces error n).length with h | h | h
          · have hno : ¬(error.getD n 0 ≠ 0 ∧ i = (errorPlaces error n).length) := fun h' ↦
              Nat.ne_of_lt h h'.2
            rw [if_pos h, if_neg hno, hb, if_pos (by omega),
              getD_errorPlaces_succ error h]
          · rw [if_neg (by omega), if_pos ⟨he, h⟩, if_pos (by omega), h, hself]
            exact UInt16.zero_add _
          · have hlen' : (errorPlaces error (n + 1)).length = (errorPlaces error n).length + 1 := by
              rw [errorPlaces_succ, if_pos he, List.length_append, List.length_singleton]
            have hno : ¬(error.getD n 0 ≠ 0 ∧ i = (errorPlaces error n).length) := fun h' ↦
              Nat.ne_of_gt h h'.2
            rw [if_neg (by omega), if_neg hno, if_neg (by omega)]
            exact hb 0
  exact hrun 46 le_rfl

theorem getD_placeErrors (hlen : (errorPlaces error 46).length ≤ 15) (eJ : List UInt16) {i : Nat}
    (hi : i < 46) : (placeErrors error eJ).getD i 0 =
      if error.getD i 0 ≠ 0 then eJ.getD (errorPlaces error i).length 0 else 0 := by
  have hrun : ∀ n ≤ 46, (List.range n).foldl (fun (s : UInt16 × List UInt16) i ↦
      (nextCounter (error.getD i 0) s.1, s.2 ++ [(List.range paramDelta).foldl (fun v j ↦
        v + (errorMask (error.getD i 0) j s.1 &&& eJ.getD j 0)) 0])) (0, []) =
        (UInt16.ofNat (errorPlaces error n).length, (List.range n).map (fun i ↦
          if error.getD i 0 ≠ 0 then eJ.getD (errorPlaces error i).length 0 else 0)) := by
    intro n hn
    induction n with
    | zero => rfl
    | succ n ih =>
      have hle := length_errorPlaces_mono error hn
      have hle' := length_errorPlaces_mono error (Nat.le_add_right n 1)
      have hfold := foldl_errorMask h01 hn (by omega : (errorPlaces error n).length < 16)
        (fun j ↦ eJ.getD j 0) 15 le_rfl
      have hval : (List.range paramDelta).foldl (fun v j ↦ v + (errorMask (error.getD n 0) j
          (UInt16.ofNat (errorPlaces error n).length) &&& eJ.getD j 0)) 0 =
            if error.getD n 0 ≠ 0 then eJ.getD (errorPlaces error n).length 0 else 0 := by
        refine hfold.trans ?_
        by_cases he : error.getD n 0 = 0
        · rw [if_neg fun h : error.getD n 0 ≠ 0 ∧ _ ↦ h.1 he, if_neg (not_not.mpr he)]
        · have hlt := (getD_errorPlaces_self he).1
          rw [if_pos ⟨he, by omega⟩, if_pos he]
      rw [List.range_succ, List.foldl_concat, ih (by omega), List.map_append]
      dsimp only
      rw [nextCounter_eq h01 hn (by omega), hval]
      rfl
  have hget : placeErrors error eJ = (List.range 46).map (fun i ↦
      if error.getD i 0 ≠ 0 then eJ.getD (errorPlaces error i).length 0 else 0) :=
    congrArg Prod.snd (hrun 46 le_rfl)
  rw [hget, List.getD_eq_getElem?_getD, List.getElem?_map, List.getElem?_range hi]
  rfl

end

theorem getD_computeEj {z betaJ : List UInt16} {i m : Nat} (hi : i < 15) (hm : m < 16) :
    Gf.of ((computeEj z betaJ (UInt16.ofNat m)).getD i 0) =
      if i < m then
        (1 + ∑ j ∈ Finset.range 15,
          (Gf.of (betaJ.getD i 0))⁻¹ ^ (j + 1) * Gf.of (z.getD (j + 1) 0)) *
          (∏ k ∈ Finset.range 14, (1 + (Gf.of (betaJ.getD i 0))⁻¹ *
            Gf.of (betaJ.getD ((i + (k + 1)) % 15) 0)))⁻¹
      else 0 := by
  let inverse := gfInverse (betaJ.getD i 0)
  have h1 : ∀ n, let t := (List.range' 1 n).foldl (fun (t : UInt16 × UInt16) j ↦
      let p := gfMul t.1 inverse
      (p, t.2 ^^^ gfMul p (z.getD j 0))) (1, 1)
      Gf.of t.1 = (Gf.of (betaJ.getD i 0))⁻¹ ^ n ∧ Gf.of t.2 =
        1 + ∑ j ∈ Finset.range n, (Gf.of (betaJ.getD i 0))⁻¹ ^ (j + 1) *
          Gf.of (z.getD (j + 1) 0) := by
    intro n
    induction n with
    | zero =>
      rw [pow_zero, Finset.sum_range_zero, add_zero]
      exact ⟨Gf.of_one, Gf.of_one⟩
    | succ n ih =>
      rw [List.range'_concat, List.foldl_concat]
      dsimp only
      rw [Gf.of_gfMul, Gf.of_xor, Gf.of_gfMul, Gf.of_gfMul, ih.1, ih.2, Gf.of_gfInverse,
        Finset.sum_range_succ, pow_succ, Nat.one_mul, Nat.add_comm 1 n, add_assoc]
      exact ⟨rfl, rfl⟩
  have h2 : ∀ n, Gf.of ((List.range' 1 n).foldl (fun t k ↦
      gfMul t (1 ^^^ gfMul inverse (betaJ.getD ((i + k) % 15) 0))) 1) =
        ∏ k ∈ Finset.range n, (1 + (Gf.of (betaJ.getD i 0))⁻¹ *
          Gf.of (betaJ.getD ((i + (k + 1)) % 15) 0)) := by
    intro n
    induction n with
    | zero =>
      rw [Finset.prod_range_zero]
      exact Gf.of_one
    | succ n ih =>
      rw [List.range'_concat, List.foldl_concat, Gf.of_gfMul, ih, Gf.of_xor, Gf.of_gfMul,
        Gf.of_gfInverse, Finset.prod_range_succ, Gf.of_one, Nat.one_mul, Nat.add_comm 1 n]
  have hget : (computeEj z betaJ (UInt16.ofNat m)).getD i 0 = maskOf (i < m) &&&
      gfMul ((List.range' 1 15).foldl (fun (t : UInt16 × UInt16) j ↦
        let p := gfMul t.1 inverse
        (p, t.2 ^^^ gfMul p (z.getD j 0))) (1, 1)).2
        (gfInverse ((List.range' 1 14).foldl (fun t k ↦
          gfMul t (1 ^^^ gfMul inverse (betaJ.getD ((i + k) % 15) 0))) 1)) := by
    have hi' : i < paramDelta := hi
    rw [computeEj, List.getD_eq_getElem?_getD, List.getElem?_map, List.getElem?_range hi',
      Option.map_some, Option.getD_some, realMask_eq i hi m hm]
    rfl
  rw [hget, maskOf_and]
  split_ifs
  · rw [Gf.of_gfMul, Gf.of_gfInverse, (h1 15).2, h2 14]
  · exact Gf.of_zero

end KemtlsMavlink.Hqc
