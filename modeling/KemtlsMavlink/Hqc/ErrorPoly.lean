import KemtlsMavlink.Hqc.FftCorrect

namespace KemtlsMavlink.Hqc

open Library

def Byte (a : UInt16) : Prop := a.toNat < 256

def Bytes (l : List UInt16) : Prop := ∀ a ∈ l, Byte a

theorem Byte.xor {a b : UInt16} (ha : Byte a) (hb : Byte b) : Byte (a ^^^ b) := by
  rw [Byte, UInt16.toNat_xor]
  exact Nat.xor_lt_two_pow (n := 8) ha hb

theorem byte_zero : Byte 0 := (by decide : 0 < 256)

theorem byte_gfMul (a b : UInt16) : Byte (gfMul a b) := (gfMul_eq a b).1

theorem Byte.eq_zero_iff {a : UInt16} (ha : Byte a) : Gf.of a = 0 ↔ a = 0 := Gf.of_eq_zero ha

theorem Byte.of_inj {a b : UInt16} (ha : Byte a) (hb : Byte b) (h : Gf.of a = Gf.of b) : a = b :=
  (congrArg Gf.val (Gf.of_val ⟨a, ha⟩)).symm.trans
    ((congrArg Gf.val h).trans (congrArg Gf.val (Gf.of_val ⟨b, hb⟩)))

namespace Bytes

variable {l m : List UInt16}

theorem getD (h : Bytes l) (i : Nat) : Byte (l.getD i 0) := by
  by_cases hi : i < l.length
  · rw [List.getD_eq_getElem _ _ hi]
    exact h _ (List.getElem_mem hi)
  · rw [List.getD_eq_default _ _ (by omega)]
    exact byte_zero

theorem append (hl : Bytes l) (hm : Bytes m) : Bytes (l ++ m) := fun a ha ↦
  (List.mem_append.mp ha).elim (hl a) (hm a)

theorem take (h : Bytes l) (n : Nat) : Bytes (l.take n) := fun a ha ↦ h a (List.mem_of_mem_take ha)

theorem drop (h : Bytes l) (n : Nat) : Bytes (l.drop n) := fun a ha ↦ h a (List.mem_of_mem_drop ha)

theorem map {f : UInt16 → UInt16} (h : Bytes l) (hf : ∀ a, Byte a → Byte (f a)) :
    Bytes (l.map f) := by
  intro a ha
  obtain ⟨b, hb, rfl⟩ := List.mem_map.mp ha
  exact hf b (h b hb)

theorem zipWith_xor : ∀ {l m : List UInt16}, Bytes l → Bytes m →
    Bytes (List.zipWith (· ^^^ ·) l m)
  | [], _, _, _ => by simp [Bytes]
  | _ :: _, [], _, _ => by simp [Bytes]
  | a :: l, b :: m, hl, hm => by
    obtain ⟨ha, hl⟩ := List.forall_mem_cons.mp hl
    obtain ⟨hb, hm⟩ := List.forall_mem_cons.mp hm
    exact List.forall_mem_cons.mpr ⟨ha.xor hb, zipWith_xor hl hm⟩

end Bytes

theorem bytes_radix : ∀ (m : Nat) {f : List UInt16}, Bytes f →
    Bytes (radix m f).1 ∧ Bytes (radix m f).2
  | 0, _, _ => ⟨by simp [radix, Bytes], by simp [radix, Bytes]⟩
  | 1, f, h => by simp [radix, Bytes, h.getD, -List.getD_eq_getElem?_getD]
  | 2, f, h => by simp [radix, Bytes, h.getD, Byte.xor, -List.getD_eq_getElem?_getD]
  | 3, f, h => by
    simp only [radix, Bytes, List.forall_mem_cons]
    with_reducible repeat' first
      | exact h.getD _
      | exact List.forall_mem_nil _
      | refine Byte.xor ?_ ?_
      | refine And.intro ?_ ?_
  | 4, f, h => by
    simp only [radix, Bytes, List.forall_mem_cons]
    with_reducible repeat' first
      | exact h.getD _
      | exact List.forall_mem_nil _
      | refine Byte.xor ?_ ?_
      | refine And.intro ?_ ?_
  | m + 5, f, h => by
    have hp : ∀ i, Bytes ((f.drop (i * 2 ^ (m + 3))).take (2 ^ (m + 3))) := fun i ↦
      (h.drop _).take _
    obtain ⟨hq0, hq1⟩ := bytes_radix (m + 4) (((hp 3).zipWith_xor (hp 2)).append (hp 3))
    obtain ⟨hr0, hr1⟩ := bytes_radix (m + 4)
      ((hp 0).append ((hp 1).zipWith_xor ((hp 3).zipWith_xor (hp 2))))
    exact ⟨hr0.append hq0, hr1.append hq1⟩

theorem bytes_twistFrom (b p : UInt16) (f : List UInt16) : Bytes (twistFrom b p f) := by
  induction f generalizing p with
  | nil => simp [twistFrom, Bytes]
  | cons a f ih => exact List.forall_mem_cons.mpr ⟨byte_gfMul _ _, ih _⟩

theorem bytes_twist (b : UInt16) {f : List UInt16} (h : Bytes f) : Bytes (twist b f) := by
  unfold twist
  split_ifs
  · exact (h.take 1).append (bytes_twistFrom _ _ _)
  · exact h

theorem bytes_fftCombine (g : List UInt16) {u v : List UInt16} (hu : Bytes u) (hv : Bytes v) :
    Bytes (fftCombine g u v) := by
  have hw : Bytes ((List.range g.length).map (fun i ↦
      if i = 0 then u.getD 0 0 else u.getD i 0 ^^^ gfMul (g.getD i 0) (v.getD i 0))) := by
    intro a ha
    obtain ⟨i, -, rfl⟩ := List.mem_map.mp ha
    split_ifs
    · exact hu.getD 0
    · exact (hu.getD i).xor (byte_gfMul _ _)
  exact hw.append (hv.zipWith_xor hw)

theorem bytes_fftCombineConst (g : List UInt16) {u : List UInt16} {c : UInt16} (hu : Bytes u)
    (hc : Byte c) : Bytes (fftCombineConst g u c) := by
  have hw : Bytes ((List.range g.length).map (fun i ↦
      if i = 0 then u.getD 0 0 else u.getD i 0 ^^^ gfMul (g.getD i 0) c)) := by
    intro a ha
    obtain ⟨i, -, rfl⟩ := List.mem_map.mp ha
    split_ifs
    · exact hu.getD 0
    · exact (hu.getD i).xor (byte_gfMul _ _)
  exact hw.append (hw.map fun a ha ↦ ha.xor hc)

theorem bytes_fftRec : ∀ (m : Nat) {f : List UInt16} (n : Nat) (betas : List UInt16), Bytes f →
    Bytes (fftRec m f n betas)
  | 0, _, _, _, _ => by simp [fftRec, Bytes]
  | 1, f, _, betas, h => by
    rw [fftRec]
    induction betas using List.reverseRecOn with
    | nil => simpa [Bytes, -List.getD_eq_getElem?_getD] using h.getD 0
    | append_singleton betas b ih =>
      rw [List.map_append, List.map_singleton, List.foldl_concat]
      exact ih.append (ih.map fun a ha ↦ ha.xor (byte_gfMul _ _))
  | m + 2, f, n, betas, h => by
    obtain ⟨h0, h1⟩ := bytes_radix (m + 2) (bytes_twist (betas.getLastD 0) h)
    rw [fftRec]
    dsimp only
    split_ifs
    · exact bytes_fftCombineConst _ (bytes_fftRec (m + 1) _ _ h0) (h1.getD 0)
    · exact bytes_fftCombine _ (bytes_fftRec (m + 1) _ _ h0) (bytes_fftRec (m + 1) _ _ h1)
    · simp

theorem bytes_fft {f : List UInt16} (n : Nat) (h : Bytes f) : Bytes (fft f n) := by
  obtain ⟨h0, h1⟩ := bytes_radix paramFft h
  exact bytes_fftCombine _ (bytes_fftRec _ _ _ h0) (bytes_fftRec _ _ _ h1)

theorem neg_shiftRight {w : UInt16} (hw : Byte w) :
    ((0 : UInt16) - w) >>> 15 = if w = 0 then 0 else 1 := by
  split_ifs with h
  · rw [h]
    decide
  · have hne : w.toNat ≠ 0 := fun h0 ↦ h (UInt16.toNat_inj.mp h0)
    have h15 : (15 : UInt16).toNat % 16 = 15 := rfl
    rw [← UInt16.toNat_inj, UInt16.toNat_shiftRight, UInt16.toNat_sub, h15,
      Nat.shiftRight_eq_div_pow]
    change (2 ^ 16 - w.toNat + 0) % 2 ^ 16 / 2 ^ 15 = 1
    rw [Byte] at hw
    omega

theorem isRoot_eq {w : UInt16} (hw : Byte w) : isRoot w = if w = 0 then 1 else 0 := by
  unfold isRoot
  rw [neg_shiftRight hw]
  split_ifs <;> decide

theorem getD_foldl_modify_of_not_mem {l : List (Nat × UInt8)} {j : Nat}
    (h : j ∉ l.map Prod.fst) (e : List UInt8) :
    (l.foldl (fun e p ↦ e.modify p.1 (· ^^^ p.2)) e).getD j 0 = e.getD j 0 := by
  induction l generalizing e with
  | nil => rfl
  | cons p l ih =>
    rw [List.map_cons, List.mem_cons, not_or] at h
    rw [List.foldl_cons, ih h.2, List.getD_eq_getElem?_getD, List.getElem?_modify,
      List.getD_eq_getElem?_getD]
    simp [Ne.symm h.1]

theorem getD_foldl_modify {l : List (Nat × UInt8)} (hl : (l.map Prod.fst).Nodup) {j : Nat}
    {v : UInt8} (h : (j, v) ∈ l) (e : List UInt8) (hj : j < e.length) :
    (l.foldl (fun e p ↦ e.modify p.1 (· ^^^ p.2)) e).getD j 0 = e.getD j 0 ^^^ v := by
  induction l generalizing e with
  | nil => exact absurd h List.not_mem_nil
  | cons p l ih =>
    rw [List.map_cons, List.nodup_cons] at hl
    rw [List.foldl_cons]
    rcases List.mem_cons.mp h with rfl | h
    · rw [getD_foldl_modify_of_not_mem hl.1, List.getD_eq_getElem?_getD, List.getElem?_modify,
        List.getD_eq_getElem?_getD]
      simp [hj]
    · have hne : p.1 ≠ j := fun he ↦ hl.1 (he ▸ List.mem_map.mpr ⟨_, h, rfl⟩)
      rw [ih hl.2 h _ (by rwa [List.length_modify]), List.getD_eq_getElem?_getD,
        List.getElem?_modify, List.getD_eq_getElem?_getD]
      simp [hne]

def fftPoints : List UInt16 := computeSubsetSums (computeFftBetas ++ [1])

theorem map_bitReverse_fftPoints :
    fftPoints.map (fun a ↦ bitReverse a.toNat) = List.range' 0 256 := by
  rw [fftPoints, map_bitReverse_sums, List.range_eq_range']

theorem fftPoints_eq : fftPoints =
    computeSubsetSums computeFftBetas ++ (computeSubsetSums computeFftBetas).map (1 ^^^ ·) := by
  rw [fftPoints, computeSubsetSums, List.foldl_concat, computeSubsetSums]

theorem length_sums : (computeSubsetSums computeFftBetas).length = 128 := by decide +kernel

theorem bytes_fftPoints : Bytes fftPoints := by
  have h : ∀ a ∈ fftPoints, a.toNat < 256 := forall_of_all (by decide +kernel)
  exact h

theorem getD_fft {f : List UInt16} (hf : f.length = 16) {p : Nat} (hp : p < 256) :
    Gf.of ((fft f 16).getD p 0) = valueAt f (Gf.of (fftPoints.getD p 0)) := by
  have hsums : subsetSums (computeFftBetas.map Gf.of ++ [1]) = fftPoints.map Gf.of := by
    rw [fftPoints, map_computeSubsetSums, List.map_append]
    rfl
  have hlen : fftPoints.length = 256 := by
    rw [fftPoints_eq, List.length_append, List.length_map, length_sums]
  have h := congrArg (fun l ↦ l[p]?) (fft_eq hf)
  rw [hsums] at h
  have hl : (fft f 16).length = 256 := by
    have h := congrArg List.length (fft_eq hf)
    rwa [hsums, List.length_map, List.length_map, List.length_map, hlen] at h
  simpa [hp, hlen, hl] using h

theorem bitReverse_bitReverse : ∀ n < 256, bitReverse n < 256 ∧ bitReverse (bitReverse n) = n := by
  decide +kernel

theorem getD_fftPoints {x : UInt16} (hx : Byte x) : fftPoints.getD (bitReverse x.toNat) 0 = x := by
  obtain ⟨hlt, hx'⟩ := bitReverse_bitReverse _ hx
  have h := getD_of_map_eq map_bitReverse_fftPoints hlt
  have hb := (bitReverse_bitReverse _ (bytes_fftPoints.getD (bitReverse x.toNat))).2
  rw [Nat.zero_add] at h
  rw [← UInt16.toNat_inj, ← hb, h, hx']

theorem alpha_pow_place {x : UInt16} (hx : Byte x) (h : x ≠ 0) :
    alpha ^ (255 - (gfLog.getD x.toNat 0).toNat) = (Gf.of x)⁻¹ := by
  have hlt := (gfExp_gfLog hx fun h0 ↦ h (UInt16.toNat_inj.mp h0)).1
  have h1 : alpha ^ (255 - (gfLog.getD x.toNat 0).toNat) * Gf.of x = 1 := by
    rw [← alpha_pow_gfLog hx h, ← pow_add, Nat.sub_add_cancel hlt.le, alpha_pow_255]
  exact eq_inv_of_mul_eq_one_left h1

def flipPoints : List UInt16 := (List.range' 1 127).flatMap (fun i ↦
  [(computeSubsetSums computeFftBetas).getD i 0,
    (computeSubsetSums computeFftBetas).getD i 0 ^^^ 1])

theorem flipPoints_nodup : flipPoints.Nodup := by
  have h : flipPoints.map (fun a ↦ bitReverse a.toNat % 128 * 2 + bitReverse a.toNat / 128) =
      List.range' 2 254 := by
    decide +kernel
  exact List.Nodup.of_map _ (h ▸ List.nodup_range')

theorem bytes_flipPoints : ∀ x ∈ flipPoints, Byte x ∧ x ≠ 0 := by
  have h : ∀ x ∈ flipPoints, x.toNat < 256 ∧ x ≠ 0 := forall_of_all (by decide +kernel)
  exact h

theorem map_fst_errorFlips (w : List UInt16) : ((errorFlips w).drop 2).map Prod.fst =
    flipPoints.map (fun x ↦ 255 - (gfLog.getD x.toNat 0).toNat) := by
  simp only [errorFlips, flipPoints, List.cons_append, List.nil_append, List.drop_succ_cons,
    List.drop_zero, List.map_flatMap, List.map_cons, List.map_nil, paramGfMulOrder]
  rfl

theorem errorFlips_nodup (w : List UInt16) : (((errorFlips w).drop 2).map Prod.fst).Nodup ∧
    0 ∉ ((errorFlips w).drop 2).map Prod.fst := by
  rw [map_fst_errorFlips]
  refine ⟨flipPoints_nodup.map_on fun a ha b hb h ↦ ?_, fun h0 ↦ ?_⟩
  · obtain ⟨ha, ha0⟩ := bytes_flipPoints a ha
    obtain ⟨hb, hb0⟩ := bytes_flipPoints b hb
    have hp := alpha_pow_place ha ha0
    rw [h, alpha_pow_place hb hb0] at hp
    exact ha.of_inj hb (inv_injective hp.symm)
  · obtain ⟨x, hx, h⟩ := List.mem_map.mp h0
    obtain ⟨hx, hx0⟩ := bytes_flipPoints x hx
    have hlt := (gfExp_gfLog hx fun h0 ↦ hx0 (UInt16.toNat_inj.mp h0)).1
    omega

theorem mem_errorFlips (w : List UInt16) {p : Nat} (hp : p < 256) (hp0 : p % 128 ≠ 0) :
    (255 - (gfLog.getD (fftPoints.getD p 0).toNat 0).toNat, isRoot (w.getD p 0)) ∈
      (errorFlips w).drop 2 := by
  have hdrop : (errorFlips w).drop 2 = (List.range' 1 127).flatMap (fun i ↦
      let gamma := (computeSubsetSums computeFftBetas).getD i 0
      [(255 - (gfLog.getD gamma.toNat 0).toNat, isRoot (w.getD i 0)),
        (255 - (gfLog.getD (gamma ^^^ 1).toNat 0).toNat, isRoot (w.getD (128 + i) 0))]) := rfl
  rw [hdrop, fftPoints_eq, List.mem_flatMap]
  by_cases h : p < 128
  · refine ⟨p, List.mem_range'_1.mpr ⟨by omega, by omega⟩, ?_⟩
    rw [List.getD_append _ _ _ _ (by rwa [length_sums])]
    exact List.mem_cons_self
  · refine ⟨p - 128, List.mem_range'_1.mpr ⟨by omega, by omega⟩, ?_⟩
    have hlt : p - 128 < (computeSubsetSums computeFftBetas).length := by
      rw [length_sums]
      omega
    have hget : ((computeSubsetSums computeFftBetas).map (1 ^^^ ·)).getD (p - 128) 0 =
        (computeSubsetSums computeFftBetas).getD (p - 128) 0 ^^^ 1 := by
      rw [List.getD_eq_getElem?_getD, List.getElem?_map, List.getD_eq_getElem _ _ hlt,
        List.getElem?_eq_getElem hlt]
      exact UInt16.xor_comm _ _
    rw [List.getD_append_right _ _ _ _ (by rw [length_sums]; omega), length_sums, hget]
    have hp' : w.getD p 0 = w.getD (128 + (p - 128)) 0 := by rw [Nat.add_sub_cancel' (by omega)]
    rw [hp']
    exact List.mem_cons_of_mem _ List.mem_cons_self

/-- The place of an error is that of the inverse of a root. -/
theorem getD_fftRetrieveErrorPoly {sigma : List UInt16} (hs : sigma.length = 16)
    (hb : Bytes sigma) (h0 : valueAt sigma 0 ≠ 0) {j : Nat} (hj : j < 255) :
    (fftRetrieveErrorPoly (List.replicate 256 0) (fft sigma 16)).getD j 0 =
      if valueAt sigma (alpha ^ j)⁻¹ = 0 then 1 else 0 := by
  let w := fft sigma 16
  have hroot : ∀ p < 256, isRoot (w.getD p 0) =
      if valueAt sigma (Gf.of (fftPoints.getD p 0)) = 0 then 1 else 0 := by
    intro p hp
    have hbyte : Byte (w.getD p 0) := (bytes_fft 16 hb).getD p
    rw [isRoot_eq hbyte, ← getD_fft hs hp]
    exact if_congr hbyte.eq_zero_iff.symm rfl rfl
  have hsplit : errorFlips w = [(0, isRoot (w.getD 0 0)), (0, isRoot (w.getD 128 0))] ++
      (errorFlips w).drop 2 := rfl
  obtain ⟨hnodup, hzero⟩ := errorFlips_nodup w
  change ((errorFlips w).foldl (fun (e : List UInt8) p ↦ e.modify p.1 (· ^^^ p.2)) _).getD j 0 = _
  rw [hsplit, List.foldl_append]
  by_cases hj0 : j = 0
  · have hp0 : fftPoints.getD 0 0 = 0 := getD_fftPoints (x := 0) byte_zero
    have hp1 : fftPoints.getD 128 0 = 1 := getD_fftPoints (x := 1) (by decide : 1 < 256)
    rw [hj0, getD_foldl_modify_of_not_mem hzero, hroot 0 (by decide), hroot 128 (by decide), hp0,
      hp1, Gf.of_zero, if_neg h0, Gf.of_one, pow_zero, inv_one]
    split_ifs <;> rfl
  · let x := gfExp.getD (255 - j) 0
    have hx : Byte x := (gfExp_succ (255 - j) (by omega)).1
    have hlog : (gfLog.getD x.toNat 0).toNat = 255 - j := gfLog_gfExp (by omega)
    have hx0 : x ≠ 0 := by
      intro h
      rw [h] at hlog
      have : (gfLog.getD (0 : UInt16).toNat 0).toNat = 0 := rfl
      omega
    have hp := (bitReverse_bitReverse _ hx).1
    have hmod : bitReverse x.toNat % 128 ≠ 0 := by
      intro h
      have hr := (bitReverse_bitReverse _ hx).2
      have hlog0 : (gfLog.getD x.toNat 0).toNat = 0 := by
        have hr' : bitReverse x.toNat = 0 ∨ bitReverse x.toNat = 128 := by omega
        rcases hr' with hr' | hr'
        · rw [← hr, hr']
          rfl
        · rw [← hr, hr']
          rfl
      omega
    have hx' : Gf.of x = (alpha ^ j)⁻¹ := by
      rw [of_gfExp (by omega)]
      refine eq_inv_of_mul_eq_one_left ?_
      rw [← pow_add, Nat.sub_add_cancel hj.le, alpha_pow_255]
    have hmem := mem_errorFlips w hp hmod
    rw [getD_fftPoints hx, hlog, Nat.sub_sub_self (by omega), hroot _ hp, getD_fftPoints hx] at hmem
    have hlen : ∀ (l : List (Nat × UInt8)) (e : List UInt8),
        (l.foldl (fun (e : List UInt8) p ↦ e.modify p.1 (· ^^^ p.2)) e).length = e.length := by
      intro l
      induction l with
      | nil => exact fun _ ↦ rfl
      | cons p l ih => exact fun e ↦ (ih _).trans (List.length_modify _ _ _)
    rw [getD_foldl_modify hnodup hmem _ (by rw [hlen, List.length_replicate]; omega), hx',
      getD_foldl_modify_of_not_mem (by simp [hj0]), List.getD_replicate _ (by omega)]
    exact UInt8.zero_xor

/-- The transform evaluates a polynomial at every element of the field, and the error polynomial
has its ones where the inverses are roots. -/
theorem fft_evaluates (f : List UInt16) (hf : f.length = 16) (hb : Bytes f) :
    (∀ x : UInt16, Byte x → Byte ((fft f 16).getD (bitReverse x.toNat) 0) ∧
      Gf.of ((fft f 16).getD (bitReverse x.toNat) 0) = valueAt f (Gf.of x)) ∧
    (f.getD 0 0 ≠ 0 → ∀ j < 255,
      (fftRetrieveErrorPoly (List.replicate 256 0) (fft f 16)).getD j 0 =
        if valueAt f (alpha ^ j)⁻¹ = 0 then 1 else 0) := by
  refine ⟨fun x hx ↦ ⟨(bytes_fft 16 hb).getD _, ?_⟩, fun h0 j hj ↦ ?_⟩
  · rw [getD_fft hf (bitReverse_bitReverse _ hx).1, getD_fftPoints hx]
  · refine getD_fftRetrieveErrorPoly hf hb (fun h ↦ h0 ?_) hj
    cases f with
    | nil => exact absurd hf (by decide)
    | cons a f =>
      rw [valueAt_cons, zero_mul, add_zero] at h
      exact (hb a List.mem_cons_self).eq_zero_iff.mp h

/-- The polynomial 1 + 2X has its root at the inverse of 2. -/
theorem fft_evaluates_linear : (fftRetrieveErrorPoly (List.replicate 256 0)
    (fft (1 :: 2 :: List.replicate 14 0) 16)).getD 1 0 = 1 := by
  have hbytes : ∀ a ∈ 1 :: 2 :: List.replicate 14 (0 : UInt16), a.toNat < 256 :=
    forall_of_all (by decide)
  have hzero : ∀ (n : Nat) (x : Gf), valueAt (List.replicate n 0) x = 0 := fun n x ↦ by
    induction n with
    | zero => exact valueAt_nil x
    | succ n ih => rw [List.replicate_succ, valueAt_cons, ih, mul_zero, Gf.of_zero, add_zero]
  refine ((fft_evaluates (1 :: 2 :: List.replicate 14 0) rfl hbytes).2 (by decide) 1
    (by decide)).trans (if_pos ?_)
  rw [valueAt_cons, valueAt_cons, hzero, mul_zero, add_zero, pow_one, Gf.of_one]
  change 1 + alpha⁻¹ * alpha = 0
  rw [inv_mul_cancel₀ alpha_ne_zero, CharTwo.add_self_eq_zero]

end KemtlsMavlink.Hqc
