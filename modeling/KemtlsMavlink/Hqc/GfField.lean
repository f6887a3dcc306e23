import KemtlsMavlink.Hqc.GfProduct
import Mathlib.Algebra.CharP.Two
import Mathlib.Algebra.Field.MinimalAxioms
import Mathlib.RingTheory.AdjoinRoot
import Mathlib.Tactic.LinearCombination

namespace KemtlsMavlink.Hqc

open Library Gf2 Polynomial

theorem gfSquare_loop (a : UInt16) (n : Nat) (hn : n ≤ 7) :
    let t := (List.range' 1 n).foldl (fun (t : UInt32 × UInt32) i ↦
      let b := t.1 <<< 1
      (b, t.2 ^^^ (b &&& (1 <<< UInt32.ofNat (2 * i))))) (a.toUInt32, a.toUInt32 &&& 1)
    t.1.toNat = a.toNat <<< n ∧ t.2.toNat < 2 ^ (2 * n + 1) ∧
      poly t.2.toNat = poly (a.toNat % 2 ^ (n + 1)) ^ 2 := by
  induction n with
  | zero =>
    have hand : (a.toUInt32 &&& 1).toNat = a.toNat % 2 := by
      rw [UInt32.toNat_and, UInt16.toNat_toUInt32]
      exact Nat.and_one_is_mod _
    refine ⟨rfl, ?_, ?_⟩
    · exact hand.trans_lt (Nat.mod_lt _ (by decide))
    · refine (congrArg poly hand).trans ?_
      rcases Nat.mod_two_eq_zero_or_one a.toNat with h | h <;> simp [h]
  | succ n ih =>
    obtain ⟨h₁, h₂, h₃⟩ := ih (by omega)
    have ha := a.toNat_lt
    rw [List.range'_concat, List.foldl_concat]
    generalize (List.range' 1 n).foldl _ _ = t at h₁ h₂ h₃ ⊢
    have hshift : (t.1 <<< 1).toNat = a.toNat <<< (n + 1) := by
      have h1 : (1 : UInt32).toNat % 32 = 1 := rfl
      have hp : 2 ^ (n + 1) ≤ 2 ^ 7 := Nat.pow_le_pow_right (by decide) hn
      have hlt : a.toNat <<< (n + 1) < 2 ^ 32 := by
        rw [Nat.shiftLeft_eq]
        exact Nat.lt_of_le_of_lt (Nat.mul_le_mul ha.le hp) (by decide)
      rw [UInt32.toNat_shiftLeft, h1, h₁, ← Nat.shiftLeft_add, Nat.mod_eq_of_lt hlt]
    have hone : ((1 : UInt32) <<< UInt32.ofNat (2 * (1 + 1 * n))).toNat = 2 ^ (2 * (n + 1)) := by
      have he : 2 * (1 + 1 * n) = 2 * (n + 1) := by omega
      have hlt : 2 ^ (2 * (n + 1)) < 2 ^ 32 := Nat.pow_lt_pow_right (by decide) (by omega)
      rw [he, UInt32.toNat_shiftLeft, UInt32.toNat_ofNat', UInt32.toNat_one,
        Nat.mod_eq_of_lt (show 2 * (n + 1) < 2 ^ 32 by omega),
        Nat.mod_eq_of_lt (show 2 * (n + 1) < 32 by omega), Nat.shiftLeft_eq, one_mul,
        Nat.mod_eq_of_lt hlt]
    have hbit : (a.toNat <<< (n + 1)).testBit (2 * (n + 1)) = a.toNat.testBit (n + 1) := by
      rw [Nat.testBit_shiftLeft, decide_eq_true (show n + 1 ≤ 2 * (n + 1) by omega), Bool.true_and]
      congr 1
      omega
    have hand : ((t.1 <<< 1) &&& ((1 : UInt32) <<< UInt32.ofNat (2 * (1 + 1 * n)))).toNat =
        if a.toNat.testBit (n + 1) then 2 ^ (2 * (n + 1)) else 0 := by
      rw [UInt32.toNat_and, hshift, hone, Nat.and_two_pow, hbit]
      split_ifs with h <;> simp [h]
    refine ⟨hshift, ?_, ?_⟩
    · dsimp only
      rw [UInt32.toNat_xor, hand]
      apply Nat.xor_lt_two_pow
      · exact h₂.trans (Nat.pow_lt_pow_right (by decide) (by omega))
      · split_ifs
        · exact Nat.pow_lt_pow_right (by decide) (by omega)
        · exact Nat.two_pow_pos _
    · dsimp only
      rw [UInt32.toNat_xor, hand, poly_xor, h₃, poly_mod_two_pow_succ a.toNat (n + 1),
        CharTwo.add_sq]
      congr 1
      split_ifs
      · rw [poly_two_pow, ← pow_mul, mul_comm]
      · simp

theorem gfSquare_eq (a : UInt16) : gfSquare a = gfMul a a := by
  obtain ⟨-, hlt, hp⟩ := gfSquare_loop a 7 le_rfl
  rw [← UInt16.toNat_inj]
  apply poly_injective
  have h256 : poly (a.toNat % 256) ^ 2 = _ := hp.symm
  rw [(gfMul_eq a a).2, ← sq, h256]
  have h := gfReduce_eq (x := ((List.range' 1 7).foldl (fun (t : UInt32 × UInt32) i ↦
      let b := t.1 <<< 1
      (b, t.2 ^^^ (b &&& (1 <<< UInt32.ofNat (2 * i))))) (a.toUInt32, a.toUInt32 &&& 1)).2.toUInt64)
    (by rw [UInt32.toNat_toUInt64]; exact hlt)
  rw [UInt32.toNat_toUInt64] at h
  exact h.2

theorem poly_two : poly 2 = X := by simpa using poly_two_pow 1

noncomputable def gfClass (a : UInt16) : AdjoinRoot gfPoly :=
  AdjoinRoot.mk gfPoly (poly (a.toNat % 256))

theorem gfClass_gfMul (a b : UInt16) : gfClass (gfMul a b) = gfClass a * gfClass b := by
  obtain ⟨hlt, hp⟩ := gfMul_eq a b
  rw [gfClass, gfClass, gfClass, Nat.mod_eq_of_lt hlt, hp, ← map_mul, AdjoinRoot.mk_eq_mk]
  refine ⟨-((poly (a.toNat % 256) * poly (b.toNat % 256)) /ₘ gfPoly), ?_⟩
  linear_combination modByMonic_add_div (poly (a.toNat % 256) * poly (b.toNat % 256)) gfPoly

theorem gfClass_xor (a b : UInt16) : gfClass (a ^^^ b) = gfClass a + gfClass b := by
  have h : (a.toNat ^^^ b.toNat) % 256 = a.toNat % 256 ^^^ b.toNat % 256 :=
    Nat.xor_mod_two_pow (n := 8)
  rw [gfClass, UInt16.toNat_xor, h, poly_xor, map_add, gfClass, gfClass]

theorem gfClass_injective {a b : UInt16} (ha : a.toNat < 256) (hb : b.toNat < 256)
    (h : gfClass a = gfClass b) : a = b := by
  rw [gfClass, gfClass, Nat.mod_eq_of_lt ha, Nat.mod_eq_of_lt hb, AdjoinRoot.mk_eq_mk] at h
  rw [← UInt16.toNat_inj]
  apply poly_injective
  refine sub_eq_zero.mp (eq_zero_of_dvd_of_degree_lt h ?_)
  rw [degree_gfPoly]
  exact (degree_sub_le _ _).trans_lt (max_lt (degree_poly_lt ha) (degree_poly_lt hb))

theorem gfClass_gfSquare (a : UInt16) : gfClass (gfSquare a) = gfClass a ^ 2 := by
  rw [gfSquare_eq, gfClass_gfMul, sq]

theorem gfClass_gfInverse (a : UInt16) : gfClass (gfInverse a) = gfClass a ^ 254 := by
  simp only [gfInverse, gfClass_gfMul, gfClass_gfSquare]
  ring

def xtime (a : Nat) : Nat := if a < 128 then 2 * a else (2 * a) ^^^ 0x11D

theorem gfClass_exp_succ {a b : UInt16} (ha : a.toNat < 256) (hb : b.toNat = xtime a.toNat) :
    gfClass b = gfClass 2 * gfClass a := by
  have h2 : poly (2 * a.toNat) = X * poly a.toNat := by
    have h := poly_shiftLeft a.toNat 1
    rwa [Nat.shiftLeft_eq, pow_one, pow_one, mul_comm] at h
  have hg : poly 0x11D = gfPoly := by
    have h : (0x11D : Nat) = 2 ^ 8 ^^^ 2 ^ 4 ^^^ 2 ^ 3 ^^^ 2 ^ 2 ^^^ 2 ^ 0 := rfl
    rw [h, poly_xor, poly_xor, poly_xor, poly_xor, poly_two_pow, poly_two_pow, poly_two_pow,
      poly_two_pow, poly_two_pow, gfPoly, pow_zero]
  have hlt : xtime a.toNat < 256 := by
    exact (by decide +kernel : ∀ n < 256, xtime n < 256) _ ha
  rw [gfClass, gfClass, gfClass, hb, Nat.mod_eq_of_lt hlt, Nat.mod_eq_of_lt ha, ← map_mul]
  have : (2 : UInt16).toNat % 256 = 2 := rfl
  rw [this, poly_two, xtime]
  split_ifs
  · rw [h2]
  · rw [poly_xor, h2, hg, map_add, AdjoinRoot.mk_self, add_zero]

theorem gfExp_succ : ∀ i < 255,
    (gfExp.getD i 0).toNat < 256 ∧ (gfExp.getD (i + 1) 0).toNat = xtime (gfExp.getD i 0).toNat := by
  decide +kernel

theorem gfClass_gfExp {i : Nat} (hi : i ≤ 255) : gfClass (gfExp.getD i 0) = gfClass 2 ^ i := by
  induction i with
  | zero =>
    change AdjoinRoot.mk gfPoly (poly 1) = _
    rw [poly_one, map_one, pow_zero]
  | succ i ih =>
    obtain ⟨hlt, hs⟩ := gfExp_succ i hi
    rw [gfClass_exp_succ hlt hs, ih (by omega), pow_succ']

theorem forall_of_all {l : List UInt16} {p : UInt16 → Prop} [DecidablePred p]
    (h : l.all (fun a ↦ decide (p a)) = true) : ∀ a ∈ l, p a := fun a ha ↦
  of_decide_eq_true (List.all_eq_true.mp h a ha)

theorem getD_of_map_eq {l : List UInt16} {f : UInt16 → Nat} {s n : Nat}
    (h : l.map f = List.range' s n) {i : Nat} (hi : i < n) : f (l.getD i 0) = s + i := by
  have hl : i < l.length := by
    have h := congrArg List.length h
    rw [List.length_map, List.length_range'] at h
    omega
  have h := congrArg (fun l ↦ l[i]?) h
  simpa [hi, hl] using h

theorem gfExp_gfLog {a : Nat} (ha : a < 256) (h : a ≠ 0) : (gfLog.getD a 0).toNat < 255 ∧
    (gfExp.getD (gfLog.getD a 0).toNat 0).toNat = a := by
  have hlt : ∀ k ∈ gfLog, k.toNat < 255 := forall_of_all (by decide +kernel)
  have hexp : (gfLog.drop 1).map (fun k ↦ (gfExp.getD k.toNat 0).toNat) = List.range' 1 255 := by
    decide +kernel
  have hdrop : ∀ l : List UInt16, (l.drop 1).getD (a - 1) 0 = l.getD a 0 := by
    intro l
    rw [List.getD_eq_getElem?_getD, List.getElem?_drop, Nat.add_sub_cancel' (by omega),
      ← List.getD_eq_getElem?_getD]
  have h256 : gfLog.length = 256 := by decide +kernel
  have hlen : a < gfLog.length := h256 ▸ ha
  refine ⟨?_, ?_⟩
  · rw [List.getD_eq_getElem _ _ hlen]
    exact hlt _ (List.getElem_mem hlen)
  · have h := getD_of_map_eq hexp (i := a - 1) (by omega)
    rw [hdrop] at h
    omega

theorem gfLog_gfExp {i : Nat} (hi : i < 255) : (gfLog.getD (gfExp.getD i 0).toNat 0).toNat = i := by
  have h : (gfExp.take 255).map (fun a ↦ (gfLog.getD a.toNat 0).toNat) = List.range' 0 255 := by
    decide +kernel
  have htake : ∀ l : List UInt16, (l.take 255).getD i 0 = l.getD i 0 := by
    intro l
    rw [List.getD_eq_getElem?_getD, List.getElem?_take_of_lt hi, ← List.getD_eq_getElem?_getD]
  have hi' := getD_of_map_eq h hi
  rw [htake] at hi'
  omega

theorem gfClass_pow_255 {a : UInt16} (ha : a.toNat < 256) (h : a ≠ 0) : gfClass a ^ 255 = 1 := by
  have hne : a.toNat ≠ 0 := fun h0 ↦ h (UInt16.toNat_inj.mp h0)
  obtain ⟨hlt, he⟩ := gfExp_gfLog ha hne
  rw [← UInt16.toNat_inj.mp he, gfClass_gfExp hlt.le, ← pow_mul, mul_comm, pow_mul,
    ← gfClass_gfExp (i := 255) le_rfl]
  have h1 : gfClass (gfExp.getD 255 0) = 1 := by
    change AdjoinRoot.mk gfPoly (poly 1) = 1
    rw [poly_one, map_one]
  rw [h1, one_pow]

/-- A byte, as an element of the field. -/
@[ext]
structure Gf where
  val : UInt16
  lt : val.toNat < 256
  deriving DecidableEq

namespace Gf

instance : Zero Gf := ⟨⟨0, by decide⟩⟩
instance : One Gf := ⟨⟨1, by decide⟩⟩
instance : Add Gf := ⟨fun a b ↦ ⟨a.val ^^^ b.val, by
  rw [UInt16.toNat_xor]
  exact Nat.xor_lt_two_pow (n := 8) a.lt b.lt⟩⟩
instance : Mul Gf := ⟨fun a b ↦ ⟨gfMul a.val b.val, (gfMul_eq _ _).1⟩⟩
instance : Neg Gf := ⟨id⟩
instance : Inv Gf := ⟨fun a ↦ ⟨gfInverse a.val, by
  rw [gfInverse, gfSquare_eq]
  exact (gfMul_eq _ _).1⟩⟩

noncomputable def toRoot (a : Gf) : AdjoinRoot gfPoly := gfClass a.val

theorem toRoot_injective : Function.Injective toRoot := fun a b h ↦
  Gf.ext (gfClass_injective a.lt b.lt h)

theorem toRoot_zero : toRoot 0 = 0 := map_zero (AdjoinRoot.mk gfPoly)

theorem toRoot_one : toRoot 1 = 1 := by
  change AdjoinRoot.mk gfPoly (poly 1) = 1
  rw [poly_one, map_one]

theorem toRoot_add (a b : Gf) : toRoot (a + b) = toRoot a + toRoot b := gfClass_xor _ _

theorem toRoot_mul (a b : Gf) : toRoot (a * b) = toRoot a * toRoot b := gfClass_gfMul _ _

theorem toRoot_inv (a : Gf) : toRoot a⁻¹ = toRoot a ^ 254 := gfClass_gfInverse _

instance : Field Gf := Field.ofMinimalAxioms Gf
  (fun a b c ↦ toRoot_injective (by simp only [toRoot_add, add_assoc]))
  (fun a ↦ toRoot_injective (by rw [toRoot_add, toRoot_zero, zero_add]))
  (fun a ↦ Gf.ext UInt16.xor_self)
  (fun a b c ↦ toRoot_injective (by simp only [toRoot_mul, mul_assoc]))
  (fun a b ↦ toRoot_injective (by rw [toRoot_mul, toRoot_mul, mul_comm]))
  (fun a ↦ toRoot_injective (by rw [toRoot_mul, toRoot_one, one_mul]))
  (fun a h ↦ toRoot_injective (by
    rw [toRoot_mul, toRoot_inv, toRoot_one, ← pow_succ']
    exact gfClass_pow_255 a.lt fun h0 ↦ h (Gf.ext h0)))
  (toRoot_injective (by rw [toRoot_inv, toRoot_zero, zero_pow (by decide)]))
  (fun a b c ↦ toRoot_injective (by simp only [toRoot_mul, toRoot_add, mul_add]))
  ⟨0, 1, by decide⟩

instance : CharP Gf 2 := CharTwo.of_one_ne_zero_of_two_eq_zero one_ne_zero (by
  rw [← one_add_one_eq_two]
  exact Gf.ext UInt16.xor_self)

/-- The low byte of a word. -/
def of (a : UInt16) : Gf := ⟨a &&& 0xFF, by
  have h := Nat.and_two_pow_sub_one_eq_mod a.toNat 8
  rw [UInt16.toNat_and]
  exact h.trans_lt (Nat.mod_lt _ (by decide))⟩

theorem of_val (a : Gf) : of a.val = a := by
  refine Gf.ext (UInt16.toNat_inj.mp ?_)
  have h := Nat.and_two_pow_sub_one_eq_mod a.val.toNat 8
  change (a.val &&& 0xFF).toNat = _
  rw [UInt16.toNat_and]
  exact h.trans (Nat.mod_eq_of_lt a.lt)

theorem toRoot_of (a : UInt16) : toRoot (of a) = gfClass a := by
  have h : (a &&& 0xFF).toNat = a.toNat % 256 := by
    rw [UInt16.toNat_and]
    exact Nat.and_two_pow_sub_one_eq_mod a.toNat 8
  change AdjoinRoot.mk gfPoly (poly ((a &&& 0xFF).toNat % 256)) = _
  rw [h, Nat.mod_mod, gfClass]

@[simp] theorem of_zero : of 0 = 0 := rfl

@[simp] theorem of_one : of 1 = 1 := rfl

@[simp] theorem of_xor (a b : UInt16) : of (a ^^^ b) = of a + of b :=
  toRoot_injective (by rw [toRoot_add, toRoot_of, toRoot_of, toRoot_of, gfClass_xor])

@[simp] theorem of_gfMul (a b : UInt16) : of (gfMul a b) = of a * of b :=
  toRoot_injective (by rw [toRoot_mul, toRoot_of, toRoot_of, toRoot_of, gfClass_gfMul])

@[simp] theorem of_gfSquare (a : UInt16) : of (gfSquare a) = of a ^ 2 := by
  rw [gfSquare_eq, of_gfMul, sq]

@[simp] theorem of_gfInverse (a : UInt16) : of (gfInverse a) = (of a)⁻¹ :=
  toRoot_injective (by rw [toRoot_inv, toRoot_of, toRoot_of, gfClass_gfInverse])

theorem of_eq_zero {a : UInt16} (ha : a.toNat < 256) : of a = 0 ↔ a = 0 := by
  refine ⟨fun h ↦ ?_, fun h ↦ h ▸ rfl⟩
  have hv : of a = ⟨a, ha⟩ := of_val ⟨a, ha⟩
  exact congrArg Gf.val (hv.symm.trans h)

end Gf

/-- `2`, whose powers are the nonzero bytes. -/
def alpha : Gf := Gf.of 2

theorem of_gfExp {i : Nat} (hi : i ≤ 255) : Gf.of (gfExp.getD i 0) = alpha ^ i := by
  induction i with
  | zero => rfl
  | succ i ih =>
    obtain ⟨hlt, hs⟩ := gfExp_succ i hi
    apply Gf.toRoot_injective
    rw [pow_succ', ← ih (by omega), Gf.toRoot_mul, Gf.toRoot_of, Gf.toRoot_of, alpha, Gf.toRoot_of,
      gfClass_exp_succ hlt hs]

theorem alpha_pow_255 : alpha ^ 255 = 1 := (of_gfExp le_rfl).symm

theorem alpha_ne_zero : alpha ≠ 0 := by
  intro h
  have h1 := alpha_pow_255
  rw [h, zero_pow (by decide)] at h1
  exact zero_ne_one h1

theorem alpha_pow_injOn {i j : Nat} (hi : i < 255) (hj : j < 255) (h : alpha ^ i = alpha ^ j) :
    i = j := by
  rw [← of_gfExp hi.le, ← of_gfExp hj.le] at h
  have he : gfExp.getD i 0 = gfExp.getD j 0 :=
    (congrArg Gf.val (Gf.of_val ⟨_, (gfExp_succ i hi).1⟩)).symm.trans
      ((congrArg Gf.val h).trans (congrArg Gf.val (Gf.of_val ⟨_, (gfExp_succ j hj).1⟩)))
  rw [← gfLog_gfExp hi, he, gfLog_gfExp hj]

theorem alpha_pow_gfLog {a : UInt16} (ha : a.toNat < 256) (h : a ≠ 0) :
    alpha ^ (gfLog.getD a.toNat 0).toNat = Gf.of a := by
  obtain ⟨hlt, he⟩ := gfExp_gfLog ha fun h0 ↦ h (UInt16.toNat_inj.mp h0)
  rw [← of_gfExp hlt.le, UInt16.toNat_inj.mp he]

/-- `gf_mul` is the product modulo the field polynomial, `gf_square` the square, `gf_inverse` the
inverse, and `gf_exp` with `gf_log` the powers of 2. -/
theorem gf_operations :
    (∀ a b : UInt16, (gfMul a b).toNat < 256 ∧ poly (gfMul a b).toNat =
      (poly (a.toNat % 256) * poly (b.toNat % 256)) %ₘ gfPoly) ∧
    (∀ a : UInt16, gfSquare a = gfMul a a) ∧
    (∀ a : UInt16, a.toNat < 256 → a ≠ 0 → gfMul a (gfInverse a) = 1 ∧
      gfExp.getD (gfLog.getD a.toNat 0).toNat 0 = a) ∧
    (gfExp.length = 258 ∧ gfExp.getD 0 0 = 1 ∧
      ∀ i < 257, gfExp.getD (i + 1) 0 = gfMul 2 (gfExp.getD i 0)) ∧
    (gfLog.length = 256 ∧ gfLog.getD 0 0 = 0 ∧
      ∀ i < 255, (gfLog.getD (gfExp.getD i 0).toNat 0).toNat = i) := by
  have hinj : ∀ {a b : UInt16}, a.toNat < 256 → b.toNat < 256 → Gf.of a = Gf.of b → a = b :=
    fun {a b} ha hb h ↦ (congrArg Gf.val (Gf.of_val ⟨a, ha⟩)).symm.trans
      ((congrArg Gf.val h).trans (congrArg Gf.val (Gf.of_val ⟨b, hb⟩)))
  refine ⟨gfMul_eq, gfSquare_eq, fun a ha h ↦ ⟨?_, ?_⟩, ⟨by decide +kernel, rfl, fun i hi ↦ ?_⟩,
    by decide +kernel, rfl, fun i hi ↦ gfLog_gfExp hi⟩
  · refine hinj (gfMul_eq _ _).1 (by decide) ?_
    rw [Gf.of_gfMul, Gf.of_gfInverse, Gf.of_one]
    exact mul_inv_cancel₀ fun h0 ↦ h ((Gf.of_eq_zero ha).mp h0)
  · exact UInt16.toNat_inj.mp (gfExp_gfLog ha fun h0 ↦ h (UInt16.toNat_inj.mp h0)).2
  · rcases Nat.lt_or_ge i 255 with hi' | hi'
    · have hlt : (gfExp.getD (i + 1) 0).toNat < 256 := by
        rcases Nat.lt_succ_iff_lt_or_eq.mp hi' with h | rfl
        · exact (gfExp_succ (i + 1) (by omega)).1
        · decide
      refine hinj hlt (gfMul_eq _ _).1 ?_
      rw [Gf.of_gfMul, of_gfExp hi', of_gfExp hi'.le, pow_succ', alpha]
    -- the table goes two entries past the order of 2
    · obtain rfl | rfl : i = 255 ∨ i = 256 := by omega
      · decide +kernel
      · decide +kernel

end KemtlsMavlink.Hqc
