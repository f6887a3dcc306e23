import KemtlsMavlink.Hqc.Vector
import KemtlsMavlink.Library.ConstantTime
import KemtlsMavlink.Library.Sampling
import Mathlib.Data.List.Induction

namespace KemtlsMavlink.Hqc

open Library Library.Sampling

theorem toNat_mVal : ∀ i < 75, (mVal.getD i 0).toNat = 2 ^ 32 / (17669 - i) := by decide +kernel

theorem toNat_condSub {r n : UInt32} (hn : n.toNat < 2 ^ 16) (hr : r.toNat < 2 * n.toNat) :
    (condSub r n).toNat = if r.toNat < n.toNat then r.toNat else r.toNat - n.toNat := by
  have h31 : (31 : UInt32).toNat % 32 = 31 := rfl
  have hsub : (r - n).toNat = if r.toNat < n.toNat then r.toNat + 2 ^ 32 - n.toNat
      else r.toNat - n.toNat := by
    rw [UInt32.toNat_sub]
    split_ifs <;> omega
  have hsign : (r - n) >>> 31 = if r.toNat < n.toNat then 1 else 0 := by
    rw [← UInt32.toNat_inj, UInt32.toNat_shiftRight, h31, Nat.shiftRight_eq_div_pow, hsub]
    split_ifs
    · rw [UInt32.toNat_one]
      omega
    · rw [UInt32.toNat_zero]
      omega
  rw [condSub, hsign, UInt32.toNat_add, hsub]
  split_ifs with h
  · have hmask : n &&& ((0 : UInt32) - 1) = n := by
      rw [← UInt32.toNat_inj, UInt32.toNat_and]
      exact (Nat.and_two_pow_sub_one_eq_mod n.toNat 32).trans (Nat.mod_eq_of_lt n.toNat_lt)
    rw [hmask]
    omega
  · have hmask : n &&& ((0 : UInt32) - 0) = 0 := UInt32.and_zero
    rw [hmask, UInt32.toNat_zero]
    omega

theorem toNat_reduce (a : UInt32) {i : Nat} (hi : i < 75) :
    (reduce a i).toNat = a.toNat % (17669 - i) := by
  have ha := a.toNat_lt
  have hm := toNat_mVal i hi
  obtain ⟨hle, hlt⟩ := quotient_near (a := a.toNat) (n := 17669 - i) (k := 32) (by omega) ha
  have hq : ((a.toUInt64 * (mVal.getD i 0).toUInt64) >>> 32).toUInt32.toNat =
      a.toNat * (2 ^ 32 / (17669 - i)) / 2 ^ 32 := by
    have h32 : (32 : UInt64).toNat % 64 = 32 := rfl
    have hm32 := (mVal.getD i 0).toNat_lt
    have hprod : a.toNat * (mVal.getD i 0).toNat < 2 ^ 64 :=
      (Nat.mul_lt_mul'' ha hm32).trans_eq (by norm_num)
    have hdiv : a.toNat * (mVal.getD i 0).toNat / 2 ^ 32 < 2 ^ 32 :=
      Nat.div_lt_of_lt_mul (hprod.trans_eq (by norm_num))
    rw [UInt64.toNat_toUInt32, UInt64.toNat_shiftRight, h32, UInt64.toNat_mul,
      UInt32.toNat_toUInt64, UInt32.toNat_toUInt64, Nat.mod_eq_of_lt hprod,
      Nat.shiftRight_eq_div_pow, Nat.mod_eq_of_lt hdiv, hm]
  have hn : (UInt32.ofNat (paramN - i)).toNat = 17669 - i := by
    rw [UInt32.toNat_ofNat', paramN]
    omega
  have hrest : (a - ((a.toUInt64 * (mVal.getD i 0).toUInt64) >>> 32).toUInt32 *
      UInt32.ofNat (paramN - i)).toNat =
        a.toNat - a.toNat * (2 ^ 32 / (17669 - i)) / 2 ^ 32 * (17669 - i) := by
    rw [UInt32.toNat_sub, UInt32.toNat_mul, hq, hn]
    omega
  rw [reduce, toNat_condSub (by rw [hn]; omega) (by rw [hrest, hn]; rw [Nat.add_mul] at hlt; omega),
    hrest, hn]
  generalize a.toNat * (2 ^ 32 / (17669 - i)) / 2 ^ 32 = q at *
  have hsplit : a.toNat = q * (17669 - i) + (a.toNat - q * (17669 - i)) := by omega
  rw [Nat.add_mul] at hlt
  conv_rhs => rw [hsplit, Nat.mul_comm q, Nat.mul_add_mod]
  split_ifs with h
  · rw [Nat.mul_comm q] at h ⊢
    exact (Nat.mod_eq_of_lt h).symm
  · rw [Nat.mul_comm q] at *
    rw [Nat.mod_eq_sub_mod (by omega), Nat.mod_eq_of_lt (by omega)]

def place (support : List UInt32) (j : Nat) : Nat := (support.getD j 0).toNat

theorem place_drawSupport (rand : List UInt8) {weight : Nat} (hw : weight ≤ 75) {j : Nat}
    (hj : j < weight) : place (drawSupport rand weight) j =
      j + (randomWord rand j).toNat % (17669 - j) := by
  have hmod : (randomWord rand j).toNat % (17669 - j) < 17669 - j := Nat.mod_lt _ (by omega)
  have hget : (drawSupport rand weight).getD j 0 =
      UInt32.ofNat j + reduce (randomWord rand j) j := by
    rw [drawSupport, List.getD_eq_getElem?_getD, List.getElem?_map, List.getElem?_range hj]
    rfl
  rw [place, hget, UInt32.toNat_add, toNat_reduce _ (by omega), UInt32.toNat_ofNat']
  omega

theorem compareU32_eq (v1 v2 : UInt32) : compareU32 v1 v2 = if v1 = v2 then 1 else 0 := by
  have hneg : v2 - v1 = 0 - (v1 - v2) := by rw [UInt32.zero_sub, UInt32.neg_sub]
  have hzero : v1 - v2 = 0 ↔ v1 = v2 := by
    have h1 := v1.toNat_lt
    have h2 := v2.toNat_lt
    rw [← UInt32.toNat_inj, ← UInt32.toNat_inj, UInt32.toNat_sub, UInt32.toNat_zero]
    omega
  rw [compareU32, hneg, sign_or_neg32]
  by_cases h : v1 = v2
  · rw [if_pos (hzero.mpr h), if_pos h]
    rfl
  · rw [if_neg (mt hzero.mp h), if_neg h]
    rfl

theorem foldl_compareU32 (support : List UInt32) (v : UInt32) (l : List Nat) :
    l.foldl (fun found j ↦ found ||| compareU32 (support.getD j 0) v) 0 =
      if ∃ j ∈ l, place support j = v.toNat then 1 else 0 := by
  induction l using List.reverseRecOn with
  | nil =>
    rw [if_neg (by simp)]
    rfl
  | append_singleton l j ih =>
    have hsame : support.getD j 0 = v ↔ place support j = v.toNat := UInt32.toNat_inj.symm
    rw [List.foldl_concat, ih, compareU32_eq, if_congr hsame rfl rfl]
    by_cases hl : ∃ j ∈ l, place support j = v.toNat <;>
      by_cases hj : place support j = v.toNat
    · rw [if_pos hl, if_pos hj, if_pos ⟨j, by simp, hj⟩]
      rfl
    · obtain ⟨k, hk, he⟩ := hl
      rw [if_pos ⟨k, hk, he⟩, if_neg hj, if_pos ⟨k, by simp [hk], he⟩]
      rfl
    · rw [if_neg hl, if_pos hj, if_pos ⟨j, by simp, hj⟩]
      rfl
    · rw [if_neg hl, if_neg hj, if_neg]
      · rfl
      · rintro ⟨k, hk, he⟩
        rcases List.mem_append.mp hk with hk | hk
        · exact hl ⟨k, hk, he⟩
        · exact hj (List.mem_singleton.mp hk ▸ he)

theorem length_replaceRepeated (w : Nat) (support : List UInt32) (i : Nat) :
    (replaceRepeated w support i).length = support.length := List.length_set

theorem place_replaceRepeated {w i : Nat} {support : List UInt32} (hl : support.length = w)
    (hi : i < w) (hw : w ≤ 75) :
    place (replaceRepeated w support i) = replace w (place support) i := by
  have hfound := foldl_compareU32 support (support.getD i 0) (List.range' (i + 1) (w - (i + 1)))
  have hex : (∃ j ∈ List.range' (i + 1) (w - (i + 1)), place support j = (support.getD i 0).toNat) ↔
      ∃ j < w, i < j ∧ place support j = place support i := by
    constructor
    · rintro ⟨j, hj, he⟩
      have hj := List.mem_range'_1.mp hj
      exact ⟨j, by omega, by omega, he⟩
    · rintro ⟨j, hj, hij, he⟩
      exact ⟨j, List.mem_range'_1.mpr (by omega), he⟩
  rw [if_congr hex rfl rfl] at hfound
  have hone : (0 : UInt32) - 1 = 0xFFFFFFFF := rfl
  have hfull : ∀ v : UInt32, (0xFFFFFFFF : UInt32) &&& v = v := fun v ↦ by
    rw [← UInt32.toNat_inj, UInt32.toNat_and, Nat.and_comm]
    exact (Nat.and_two_pow_sub_one_eq_mod v.toNat 32).trans (Nat.mod_eq_of_lt v.toNat_lt)
  funext j
  rw [replace, Function.update_apply, place, replaceRepeated, hfound]
  by_cases hij : j = i
  · rw [if_pos hij, hij, List.getD_eq_getElem?_getD, List.getElem?_set_self (by omega),
      Option.getD_some]
    split_ifs
    · have hnot : ~~~(0xFFFFFFFF : UInt32) = 0 := rfl
      rw [hone, hfull, hnot, UInt32.zero_and, UInt32.xor_zero, UInt32.toNat_ofNat']
      omega
    · have hnot : ~~~((0 : UInt32) - 0) = 0xFFFFFFFF := rfl
      have hzero : ((0 : UInt32) - 0) = 0 := rfl
      rw [hnot, hfull, hzero, UInt32.zero_and, UInt32.zero_xor]
      rfl
  · rw [if_neg hij, List.getD_eq_getElem?_getD, List.getElem?_set_ne (Ne.symm hij),
      ← List.getD_eq_getElem?_getD]
    rfl

theorem place_fixedWeightSupport {w n : Nat} (hw : w ≤ 75) : ∀ {support : List UInt32},
    support.length = w → n ≤ w →
      ((List.range n).reverse.foldl (replaceRepeated w) support).length = w ∧
      place ((List.range n).reverse.foldl (replaceRepeated w) support) =
        replaceAll w n (place support) := by
  induction n with
  | zero => exact fun hl _ ↦ ⟨hl, rfl⟩
  | succ n ih =>
    intro support hl hn
    have hstep := place_replaceRepeated hl (show n < w by omega) hw
    rw [List.range_succ, List.reverse_append, List.reverse_singleton, List.singleton_append,
      List.foldl_cons, replaceAll, ← hstep]
    exact ih ((length_replaceRepeated w support n).trans hl) (by omega)

theorem length_drawSupport (rand : List UInt8) (weight : Nat) :
    (drawSupport rand weight).length = weight := by
  rw [drawSupport, List.length_map, List.length_range]

theorem fixedWeightSupport_lt {rand : List UInt8} {weight b : Nat} (hw : weight ≤ 75)
    (hb : weight ≤ b) (hdraw : ∀ j < weight, place (drawSupport rand weight) j < b) :
    ∀ p ∈ fixedWeightSupport rand weight, p.toNat < b := by
  obtain ⟨hlen, hplace⟩ :=
    place_fixedWeightSupport hw (length_drawSupport rand weight) (Nat.sub_le weight 1)
  have hlt := replaceAll_lt (n := weight - 1) (by omega) hdraw
  rw [← hplace] at hlt
  rw [← fixedWeightSupport] at hlen hlt
  intro p hp
  obtain ⟨j, hj, rfl⟩ := List.mem_iff_getElem.mp hp
  have h := hlt j (hlen ▸ hj)
  rwa [place, List.getD_eq_getElem _ _ hj] at h

/-- The positions are inside the vector, and no two are the same. -/
theorem fixedWeightSupport_spec (rand : List UInt8) {weight : Nat} (hw : weight ≤ 75) :
    (fixedWeightSupport rand weight).length = weight ∧ (fixedWeightSupport rand weight).Nodup ∧
      ∀ p ∈ fixedWeightSupport rand weight, p.toNat < 17669 := by
  obtain ⟨hlen, hplace⟩ :=
    place_fixedWeightSupport hw (length_drawSupport rand weight) (Nat.sub_le weight 1)
  have hapart : Apart weight (weight - 1) (place (drawSupport rand weight)) := by
    refine ⟨fun j hj ↦ ?_, fun i j hi hij hj ↦ by omega⟩
    rw [place_drawSupport rand hw hj]
    exact Nat.le_add_right _ _
  have hinj := hapart.replaceAll.inj
  rw [← hplace] at hinj
  rw [← fixedWeightSupport] at hlen hinj
  refine ⟨hlen, ?_, fixedWeightSupport_lt hw (by omega) fun j hj ↦ ?_⟩
  · refine List.pairwise_iff_getElem.mpr fun i j hi hj hij heq ↦ ?_
    refine hinj i j (Nat.zero_le i) hij (hlen ▸ hj) ?_
    rw [place, place, List.getD_eq_getElem _ _ hi, List.getD_eq_getElem _ _ hj, heq]
  · have hmod := Nat.mod_lt (randomWord rand j).toNat (show 0 < 17669 - j by omega)
    rw [place_drawSupport rand hw hj]
    omega

end KemtlsMavlink.Hqc
