import KemtlsMavlink.Hqc.Gf
import Mathlib.Algebra.CharP.Two
import Mathlib.Algebra.Field.MinimalAxioms
import Mathlib.RingTheory.AdjoinRoot
import Mathlib.Tactic.ComputeDegree
import Mathlib.Tactic.LinearCombination

namespace KemtlsMavlink.Hqc

open Library Gf2 Polynomial

theorem and_mask32 (w : UInt16) : (w.toUInt32 &&& 0xFFFFFFFF).toUInt16 = w := by
  have hw := w.toNat_lt
  have hmask : w.toNat &&& 4294967295 = w.toNat := by
    have h := Nat.and_two_pow_sub_one_eq_mod w.toNat 32
    exact h.trans (Nat.mod_eq_of_lt (by omega))
  rw [← UInt16.toNat_inj, UInt32.toNat_toUInt16, UInt32.toNat_and, UInt16.toNat_toUInt32]
  exact (congrArg (· % 2 ^ 16) hmask).trans (Nat.mod_eq_of_lt hw)

theorem gfSelect_eq (u : List UInt16) {t : UInt32} (ht : t.toNat < 4) :
    gfSelect u t = u.getD t.toNat 0 := by
  have hstep : ∀ (g : UInt16), ∀ i ∈ List.range 4,
      g ^^^ ((u.getD i 0).toUInt32 &&& ((0 : UInt32) - ((1 : UInt32) -
        (((t - UInt32.ofNat i) ||| (0 - (t - UInt32.ofNat i))) >>> 31)))).toUInt16 =
      g ^^^ if t.toNat = i then u.getD i 0 else 0 := by
    intro g i hi
    have hi := List.mem_range.mp hi
    rw [mask_eq32 t (by omega)]
    split_ifs
    · rw [and_mask32]
    · simp
  rw [gfSelect]
  refine (List.foldl_ext _ _ 0 hstep).trans ?_
  exact (foldl_select (fun _ ↦ UInt16.zero_xor) (fun _ ↦ UInt16.xor_zero) _ _ _).trans
    (if_pos ht)

theorem poly_window (b : UInt8) {t : Nat} (ht : t < 4) :
    poly ((gfWindow b).getD t 0).toNat = poly t * poly (b.toNat % 128) ∧
      ((gfWindow b).getD t 0).toNat < 256 := by
  have hb : (b &&& 0x7F).toUInt16.toNat = b.toNat % 128 := by
    rw [UInt8.toNat_toUInt16, UInt8.toNat_and]
    exact Nat.and_two_pow_sub_one_eq_mod _ 7
  have h2 : ((b &&& 0x7F).toUInt16 <<< 1).toNat = (b.toNat % 128) <<< 1 := by
    rw [UInt16.toNat_shiftLeft, hb]
    exact Nat.mod_eq_of_lt (by
      change (b.toNat % 128) <<< 1 < _
      rw [Nat.shiftLeft_eq]
      omega)
  have hlt : (b.toNat % 128) <<< 1 < 2 ^ 8 := by
    rw [Nat.shiftLeft_eq]
    omega
  have hlt' : (b.toNat % 128) <<< 1 ^^^ b.toNat % 128 < 2 ^ 8 := Nat.xor_lt_two_pow hlt (by omega)
  have ht : t = 0 ∨ t = 1 ∨ t = 2 ∨ t = 3 := by omega
  have htwo : poly 2 = X := by simpa using poly_two_pow 1
  have hthree : poly 3 = X + 1 := by
    rw [← htwo, ← poly_one, ← poly_xor]
    rfl
  rcases ht with rfl | rfl | rfl | rfl
  · simp [gfWindow]
  · have h := hb
    simp only [gfWindow, List.getD_cons_succ, List.getD_cons_zero, poly_one, one_mul, h]
    exact ⟨trivial, by omega⟩
  · simp only [gfWindow, List.getD_cons_succ, List.getD_cons_zero, h2, htwo, poly_shiftLeft,
      pow_one]
    exact ⟨trivial, hlt⟩
  · simp only [gfWindow, List.getD_cons_succ, List.getD_cons_zero, UInt16.toNat_xor, h2, hb,
      hthree, poly_xor, poly_shiftLeft, pow_one]
    exact ⟨by ring, hlt'⟩

theorem poly_windows {a : Nat} (ha : a < 256) :
    poly a = poly (a % 4) + X ^ 2 * poly ((a >>> 2) % 4) + X ^ 4 * poly ((a >>> 4) % 4) +
      X ^ 6 * poly ((a >>> 6) % 4) := by
  have h₁ : poly a = poly (a % 4) + X ^ 2 * poly (a >>> 2) := poly_split a 2
  have h₂ : poly (a >>> 2) = poly ((a >>> 2) % 4) + X ^ 2 * poly (a >>> 4) :=
    poly_split (a >>> 2) 2
  have h₃ : poly (a >>> 4) = poly ((a >>> 4) % 4) + X ^ 2 * poly (a >>> 6) :=
    poly_split (a >>> 4) 2
  have h₄ : (a >>> 6) % 4 = a >>> 6 := by
    rw [Nat.shiftRight_eq_div_pow]
    omega
  rw [h₁, h₂, h₃, h₄]
  ring

theorem toNat_shiftLeft_byte {g : UInt16} (hg : g.toNat < 256) {k : Nat} (hk : k ≤ 7) :
    (g <<< UInt16.ofNat k).toNat = g.toNat <<< k := by
  have hp : 2 ^ k ≤ 2 ^ 7 := Nat.pow_le_pow_right (by decide) hk
  have hlt : g.toNat * 2 ^ k < 2 ^ 16 :=
    Nat.lt_of_le_of_lt (Nat.mul_le_mul (Nat.le_of_lt_succ hg) hp) (by decide)
  rw [UInt16.toNat_shiftLeft, UInt16.toNat_ofNat', Nat.mod_eq_of_lt (show k < 2 ^ 16 by omega),
    Nat.mod_eq_of_lt (show k < 16 by omega), Nat.shiftLeft_eq, Nat.mod_eq_of_lt hlt]

theorem shiftRight_shiftLeft_of_le (g : Nat) {k w : Nat} (hk : k ≤ w) :
    (g <<< k) >>> w = g >>> (w - k) := by
  obtain ⟨j, rfl⟩ := Nat.exists_eq_add_of_le hk
  rw [Nat.shiftRight_add, Nat.shiftLeft_shiftRight, Nat.add_sub_cancel_left]

theorem toNat_shiftRight_byte (g : UInt16) {k : Nat} (hk : k < 16) :
    (g >>> UInt16.ofNat k).toNat = g.toNat >>> k := by
  rw [UInt16.toNat_shiftRight, UInt16.toNat_ofNat', Nat.mod_eq_of_lt (show k < 2 ^ 16 by omega),
    Nat.mod_eq_of_lt hk]

theorem gfCarrylessMul_eq (a b : UInt8) :
    ∃ l : Nat, l < 2 ^ 15 ∧ (gfCarrylessMul a b).1.toNat = l % 256 ∧
      (gfCarrylessMul a b).2.toNat = l >>> 8 ∧ poly l = poly a.toNat * poly b.toNat := by
  have ha := a.toNat_lt
  have hb := b.toNat_lt
  let g : Nat → UInt16 := fun k ↦
    gfSelect (gfWindow b) ((a >>> UInt8.ofNat k) &&& 3).toUInt32
  have hg : ∀ k < 8, poly (g k).toNat = poly ((a.toNat >>> k) % 4) * poly (b.toNat % 128) ∧
      (g k).toNat < 256 := by
    intro k hk
    have hkk : (UInt8.ofNat k).toNat % 8 = k := by
      rw [UInt8.toNat_ofNat']
      omega
    have hd : ((a >>> UInt8.ofNat k) &&& 3).toUInt32.toNat = (a.toNat >>> k) % 4 := by
      rw [UInt8.toNat_toUInt32, UInt8.toNat_and, UInt8.toNat_shiftRight, hkk]
      exact Nat.and_two_pow_sub_one_eq_mod _ 2
    have h4 : ((a >>> UInt8.ofNat k) &&& 3).toUInt32.toNat < 4 := by
      rw [hd]
      exact Nat.mod_lt _ (by decide)
    have he : g k = (gfWindow b).getD ((a.toNat >>> k) % 4) 0 := by
      rw [← hd]
      exact gfSelect_eq _ h4
    rw [he]
    exact poly_window b (Nat.mod_lt _ (by decide))
  let m : UInt16 := (0 : UInt16) - ((b.toUInt16 >>> 7) &&& 1)
  have hm : ∀ w : UInt16, (w &&& m).toNat = if b.toNat.testBit 7 then w.toNat else 0 := by
    intro w
    have hbit : (b.toUInt16 >>> 7) &&& 1 = if b.toNat.testBit 7 then 1 else 0 := by
      have h7 : (7 : UInt16).toNat % 16 = 7 := rfl
      rw [← UInt16.toNat_inj, UInt16.toNat_and, UInt16.toNat_shiftRight, h7, UInt8.toNat_toUInt16,
        UInt16.toNat_one, Nat.and_one_is_mod, Nat.testBit, Nat.one_and_eq_mod_two]
      rcases Nat.mod_two_eq_zero_or_one (b.toNat >>> 7) with h | h <;> simp [h]
    cases hb7 : b.toNat.testBit 7 with
    | false =>
      have h : m = 0 := by
        change (0 : UInt16) - ((b.toUInt16 >>> 7) &&& 1) = 0
        rw [hbit, hb7]
        rfl
      rw [h]
      simp
    | true =>
      have h : m = 0xFFFF := by
        change (0 : UInt16) - ((b.toUInt16 >>> 7) &&& 1) = 0xFFFF
        rw [hbit, hb7]
        rfl
      rw [h, UInt16.toNat_and]
      exact (Nat.and_two_pow_sub_one_eq_mod _ 16).trans (Nat.mod_eq_of_lt w.toNat_lt)
  have hz : gfSelect (gfWindow b) (a &&& 3).toUInt32 = g 0 := by
    simp [g]
  have hlow : (gfCarrylessMul a b).1 = (g 0 ^^^ (g 2 <<< UInt16.ofNat 2) ^^^
      (g 4 <<< UInt16.ofNat 4) ^^^ (g 6 <<< UInt16.ofNat 6) ^^^
        ((a.toUInt16 <<< UInt16.ofNat 7) &&& m)).toUInt8 := by
    rw [← hz]
    rfl
  have hhigh : (gfCarrylessMul a b).2 = ((0 : UInt16) ^^^ (g 2 >>> UInt16.ofNat 6) ^^^
      (g 4 >>> UInt16.ofNat 4) ^^^ (g 6 >>> UInt16.ofNat 2) ^^^
        ((a.toUInt16 >>> UInt16.ofNat 1) &&& m)).toUInt8 := rfl
  have ha' : a.toUInt16.toNat < 256 := by
    rw [UInt8.toNat_toUInt16]
    exact ha
  have hl : ∀ k ≤ 6, (g k).toNat <<< k < 2 ^ 15 := by
    intro k hk
    have hp : 2 ^ k ≤ 2 ^ 6 := Nat.pow_le_pow_right (by decide) hk
    rw [Nat.shiftLeft_eq]
    exact Nat.lt_of_le_of_lt (Nat.mul_le_mul (Nat.le_of_lt_succ (hg k (by omega)).2) hp) (by decide)
  refine ⟨(g 0).toNat ^^^ (g 2).toNat <<< 2 ^^^ (g 4).toNat <<< 4 ^^^ (g 6).toNat <<< 6 ^^^
    if b.toNat.testBit 7 then a.toNat <<< 7 else 0, ?_, ?_, ?_, ?_⟩
  · have htop : (if b.toNat.testBit 7 then a.toNat <<< 7 else 0) < 2 ^ 15 := by
      split_ifs
      · rw [Nat.shiftLeft_eq]
        omega
      · decide
    exact Nat.xor_lt_two_pow (Nat.xor_lt_two_pow (Nat.xor_lt_two_pow (Nat.xor_lt_two_pow
      (hl 0 (by decide)) (hl 2 (by decide))) (hl 4 (by decide))) (hl 6 (by decide))) htop
  · rw [hlow, UInt16.toNat_toUInt8, UInt16.toNat_xor, UInt16.toNat_xor, UInt16.toNat_xor,
      UInt16.toNat_xor, hm, toNat_shiftLeft_byte (hg 2 (by decide)).2 (by decide),
      toNat_shiftLeft_byte (hg 4 (by decide)).2 (by decide),
      toNat_shiftLeft_byte (hg 6 (by decide)).2 (by decide),
      toNat_shiftLeft_byte ha' (by decide), UInt8.toNat_toUInt16]
  · have hzero : (g 0).toNat >>> 8 = 0 := Nat.shiftRight_eq_zero _ _ (hg 0 (by decide)).2
    have htop : (if b.toNat.testBit 7 then a.toNat <<< 7 else 0) >>> 8 =
        if b.toNat.testBit 7 then a.toNat >>> 1 else 0 := by
      split_ifs
      · exact shiftRight_shiftLeft_of_le _ (by decide)
      · rfl
    rw [Nat.shiftRight_xor_distrib, Nat.shiftRight_xor_distrib, Nat.shiftRight_xor_distrib,
      Nat.shiftRight_xor_distrib, hzero, htop,
      shiftRight_shiftLeft_of_le _ (by decide), shiftRight_shiftLeft_of_le _ (by decide),
      shiftRight_shiftLeft_of_le _ (by decide), hhigh, UInt16.toNat_toUInt8, UInt16.toNat_xor,
      UInt16.toNat_xor, UInt16.toNat_xor, UInt16.toNat_xor, hm, toNat_shiftRight_byte _ (by decide),
      toNat_shiftRight_byte _ (by decide), toNat_shiftRight_byte _ (by decide),
      toNat_shiftRight_byte _ (by decide), UInt8.toNat_toUInt16, UInt16.toNat_zero]
    have hshift : ∀ n j, n < 2 ^ 8 → n >>> j < 2 ^ 8 := fun n j hn ↦
      Nat.lt_of_le_of_lt (Nat.shiftRight_le n j) hn
    have hlast : (if b.toNat.testBit 7 then a.toNat >>> 1 else 0) < 2 ^ 8 := by
      split_ifs
      · exact hshift _ _ ha
      · decide
    apply Nat.mod_eq_of_lt
    exact Nat.xor_lt_two_pow (Nat.xor_lt_two_pow (Nat.xor_lt_two_pow (Nat.xor_lt_two_pow
      (by decide) (hshift _ _ (hg 2 (by decide)).2)) (hshift _ _ (hg 4 (by decide)).2))
        (hshift _ _ (hg 6 (by decide)).2)) hlast
  · have hbsplit : poly b.toNat =
        poly (b.toNat % 128) + if b.toNat.testBit 7 then X ^ 7 else 0 := by
      have h := poly_mod_two_pow_succ b.toNat 7
      rwa [Nat.mod_eq_of_lt hb] at h
    have htop : poly (if b.toNat.testBit 7 then a.toNat <<< 7 else 0) =
        poly a.toNat * if b.toNat.testBit 7 then X ^ 7 else 0 := by
      split_ifs
      · rw [poly_shiftLeft, mul_comm]
      · rw [poly_zero, mul_zero]
    rw [poly_xor, poly_xor, poly_xor, poly_xor, poly_shiftLeft, poly_shiftLeft, poly_shiftLeft,
      (hg 0 (by decide)).1, (hg 2 (by decide)).1, (hg 4 (by decide)).1, (hg 6 (by decide)).1, htop,
      hbsplit, Nat.shiftRight_zero]
    linear_combination (-poly (b.toNat % 128)) * poly_windows ha

noncomputable def gfPoly : (ZMod 2)[X] := X ^ 8 + X ^ 4 + X ^ 3 + X ^ 2 + 1

theorem gfReduceStep_eq (x : UInt64) :
    gfReduceStep x = (x &&& (255 : UInt64)) ^^^ (x >>> 8) ^^^ ((x >>> 8) <<< 2) ^^^
      ((x >>> 8) <<< 2 <<< 1) ^^^ ((x >>> 8) <<< 2 <<< 1 <<< 1) := by
  have next : ∀ (x mod : UInt64) (rmdr z1 z2 rmdr' : UInt16) (dist : UInt64),
      trailingZeroBitsCount rmdr = z2 → (z2 - z1).toUInt64 = dist →
        rmdr ^^^ (1 <<< z2) = rmdr' → GfReduction.next ⟨x, mod, rmdr, z1⟩ =
          ⟨x ^^^ (mod <<< dist), mod <<< dist, rmdr', z2⟩ := by
    rintro x mod rmdr z1 _ _ _ rfl rfl rfl
    rfl
  change (GfReduction.next (GfReduction.next (GfReduction.next
    ⟨(x &&& (255 : UInt64)) ^^^ (x >>> 8), x >>> 8, 0x11C, 0⟩))).x = _
  rw [next _ _ 0x11C 0 2 0x118 2 (by decide) (by decide) (by decide),
    next _ _ 0x118 2 3 0x110 1 (by decide) (by decide) (by decide),
    next _ _ 0x110 3 4 0x100 1 (by decide) (by decide) (by decide)]

theorem toNat_gfReduceStep {x : UInt64} (hx : x.toNat < 2 ^ 16) :
    (gfReduceStep x).toNat = x.toNat % 256 ^^^ x.toNat >>> 8 ^^^ (x.toNat >>> 8) <<< 2 ^^^
      (x.toNat >>> 8) <<< 3 ^^^ (x.toNat >>> 8) <<< 4 := by
  have h8 : (8 : UInt64).toNat % 64 = 8 := rfl
  have h2 : (2 : UInt64).toNat % 64 = 2 := rfl
  have h1 : (1 : UInt64).toNat % 64 = 1 := rfl
  have hm : x.toNat >>> 8 < 2 ^ 8 := by
    rw [Nat.shiftRight_eq_div_pow]
    omega
  have hlt : ∀ k ≤ 4, (x.toNat >>> 8) <<< k < 2 ^ 64 := by
    intro k hk
    have hp : 2 ^ k ≤ 2 ^ 4 := Nat.pow_le_pow_right (by decide) hk
    rw [Nat.shiftLeft_eq]
    exact Nat.lt_of_le_of_lt (Nat.mul_le_mul (Nat.le_of_lt_succ hm) hp) (by decide)
  have hand : x.toNat &&& 255 = x.toNat % 256 := Nat.and_two_pow_sub_one_eq_mod _ 8
  rw [gfReduceStep_eq]
  simp only [UInt64.toNat_xor, UInt64.toNat_and, UInt64.toNat_shiftLeft, UInt64.toNat_shiftRight,
    h8, h2, h1]
  rw [Nat.mod_eq_of_lt (hlt 2 (by decide)), ← Nat.shiftLeft_add,
    Nat.mod_eq_of_lt (hlt 3 (by decide)), ← Nat.shiftLeft_add, Nat.mod_eq_of_lt (hlt 4 (by decide))]
  exact congrArg (· ^^^ _ ^^^ _ ^^^ _ ^^^ _) hand

theorem poly_gfReduceStep {x : UInt64} (hx : x.toNat < 2 ^ 16) :
    poly (gfReduceStep x).toNat = poly x.toNat + gfPoly * poly (x.toNat >>> 8) := by
  have hsplit : poly x.toNat = poly (x.toNat % 256) + X ^ 8 * poly (x.toNat >>> 8) :=
    poly_split x.toNat 8
  rw [toNat_gfReduceStep hx, poly_xor, poly_xor, poly_xor, poly_xor, poly_shiftLeft,
    poly_shiftLeft, poly_shiftLeft, hsplit, gfPoly]
  linear_combination (-CharTwo.add_self_eq_zero (X ^ 8 * poly (x.toNat >>> 8)))

theorem gfReduceStep_lt {x : UInt64} {n : Nat} (h4 : 3 ≤ n) (hn : n ≤ 8)
    (hx : x.toNat < 2 ^ (n + 8)) : (gfReduceStep x).toNat < 2 ^ max 8 (n + 4) := by
  have hm : x.toNat >>> 8 < 2 ^ n := by
    rw [Nat.shiftRight_eq_div_pow]
    exact Nat.div_lt_of_lt_mul (by rwa [← Nat.pow_add, Nat.add_comm])
  have hshift : ∀ k ≤ 4, (x.toNat >>> 8) <<< k < 2 ^ max 8 (n + 4) := by
    intro k hk
    have hlt : (x.toNat >>> 8) <<< k < 2 ^ (n + k) := by
      rw [Nat.shiftLeft_eq, Nat.pow_add]
      exact Nat.mul_lt_mul_of_pos_right hm (Nat.two_pow_pos k)
    exact hlt.trans_le (Nat.pow_le_pow_right (by decide) (by omega))
  have hlow : x.toNat % 256 < 2 ^ max 8 (n + 4) :=
    (show x.toNat % 256 < 2 ^ 8 from Nat.mod_lt _ (by decide)).trans_le
      (Nat.pow_le_pow_right (by decide) (Nat.le_max_left 8 _))
  rw [toNat_gfReduceStep (hx.trans_le (Nat.pow_le_pow_right (by decide) (by omega)))]
  exact Nat.xor_lt_two_pow (Nat.xor_lt_two_pow (Nat.xor_lt_two_pow (Nat.xor_lt_two_pow hlow
    (hshift 0 (by decide))) (hshift 2 (by decide))) (hshift 3 (by decide))) (hshift 4 (by decide))

theorem gfPoly_monic : gfPoly.Monic := by
  unfold gfPoly
  monicity!

theorem degree_gfPoly : gfPoly.degree = 8 := by
  unfold gfPoly
  compute_degree!

theorem gfReduce_eq {x : UInt64} (hx : x.toNat < 2 ^ 15) :
    (gfReduce x 14).toNat < 256 ∧ poly (gfReduce x 14).toNat = poly x.toNat %ₘ gfPoly := by
  have h₁ : (gfReduceStep x).toNat < 2 ^ 11 := gfReduceStep_lt (by decide) (by decide) hx
  have h₂ : (gfReduceStep (gfReduceStep x)).toNat < 2 ^ 8 :=
    gfReduceStep_lt (n := 3) (by decide) (by decide) h₁
  have he : (gfReduce x 14).toNat = (gfReduceStep (gfReduceStep x)).toNat :=
    Nat.mod_eq_of_lt (h₂.trans (by decide))
  have p₁ := poly_gfReduceStep (hx.trans (by decide))
  have p₂ := poly_gfReduceStep (h₁.trans (by decide))
  rw [he]
  refine ⟨h₂, Eq.symm (div_modByMonic_unique
    (-(poly (x.toNat >>> 8)) - poly ((gfReduceStep x).toNat >>> 8)) _ gfPoly_monic ⟨?_, ?_⟩).2⟩
  · rw [p₂, p₁]
    ring
  · rw [degree_gfPoly]
    exact degree_poly_lt h₂

theorem gfMul_eq (a b : UInt16) : (gfMul a b).toNat < 256 ∧
    poly (gfMul a b).toNat = (poly (a.toNat % 256) * poly (b.toNat % 256)) %ₘ gfPoly := by
  obtain ⟨l, hl, hlow, hhigh, hp⟩ := gfCarrylessMul_eq a.toUInt8 b.toUInt8
  have htmp : ((gfCarrylessMul a.toUInt8 b.toUInt8).1.toUInt16 ^^^
      ((gfCarrylessMul a.toUInt8 b.toUInt8).2.toUInt16 <<< 8)).toUInt64.toNat = l := by
    have h8 : (8 : UInt16).toNat % 16 = 8 := rfl
    have hlt : (l >>> 8) <<< 8 < 2 ^ 16 := by
      rw [Nat.shiftRight_eq_div_pow, Nat.shiftLeft_eq]
      omega
    rw [UInt16.toNat_toUInt64, UInt16.toNat_xor, UInt16.toNat_shiftLeft, h8, UInt8.toNat_toUInt16,
      UInt8.toNat_toUInt16, hlow, hhigh, Nat.mod_eq_of_lt hlt]
    apply poly_injective
    rw [poly_xor, poly_shiftLeft]
    exact (poly_split l 8).symm
  rw [← UInt16.toNat_toUInt8, ← UInt16.toNat_toUInt8, ← hp, ← htmp]
  exact gfReduce_eq (by rwa [htmp])

end KemtlsMavlink.Hqc
