import Mathlib.Data.List.Basic
import Mathlib.Data.Nat.Bitwise

namespace KemtlsMavlink.Library

/-! Comparisons of words without a branch: the sign of `z | -z` tells whether `z` is zero. -/

theorem msb_or_neg {w : Nat} (z : BitVec w) : (z ||| -z).msb = (z != 0#w) := by
  by_cases hz : z = 0#w
  · subst hz
    simp
  · have hw : 0 < w := by
      rcases w with _ | w
      · exact absurd BitVec.of_length_zero hz
      · exact w.succ_pos
    rw [BitVec.msb_or, BitVec.msb_neg]
    by_cases hm : z = BitVec.intMin w
    · subst hm
      simp [BitVec.msb_intMin, hw, hz]
    · cases z.msb <;> simp [hz, hm]

theorem toNat_shiftRight_msb {w : Nat} (z : BitVec w) : z.toNat >>> (w - 1) = z.msb.toNat := by
  have hlt := z.isLt
  rw [BitVec.msb_eq_decide, Nat.shiftRight_eq_div_pow]
  rcases w with _ | w
  · have h : z.toNat = 0 := by simpa using hlt
    simp [h]
  · rw [Nat.add_sub_cancel]
    rw [Nat.pow_succ] at hlt
    by_cases h : 2 ^ w ≤ z.toNat
    · rw [decide_eq_true h, Bool.toNat_true]
      exact Nat.div_eq_of_lt_le (by omega) (by omega)
    · rw [decide_eq_false h, Bool.toNat_false]
      exact Nat.div_eq_of_lt (Nat.lt_of_not_le h)

theorem sign_or_neg32 (z : UInt32) : (z ||| (0 - z)) >>> 31 = if z = 0 then 0 else 1 := by
  rw [UInt32.zero_sub, ← UInt32.toNat_inj, UInt32.toNat_shiftRight]
  have h := (toNat_shiftRight_msb (z ||| -z).toBitVec).trans
    (congrArg Bool.toNat (msb_or_neg z.toBitVec))
  refine h.trans ?_
  by_cases hz : z = 0
  · subst hz
    rfl
  · have hz' : z.toBitVec ≠ 0#32 := fun h ↦ hz (UInt32.toBitVec_inj.mp h)
    simp [hz, hz']

theorem sign_or_neg64 (z : UInt64) : (z ||| (0 - z)) >>> 63 = if z = 0 then 0 else 1 := by
  rw [UInt64.zero_sub, ← UInt64.toNat_inj, UInt64.toNat_shiftRight]
  have h := (toNat_shiftRight_msb (z ||| -z).toBitVec).trans
    (congrArg Bool.toNat (msb_or_neg z.toBitVec))
  refine h.trans ?_
  by_cases hz : z = 0
  · subst hz
    rfl
  · have hz' : z.toBitVec ≠ 0#64 := fun h ↦ hz (UInt64.toBitVec_inj.mp h)
    simp [hz, hz']

theorem mask_eq32 (t : UInt32) {i : Nat} (hi : i < 2 ^ 32) :
    (0 : UInt32) - ((1 : UInt32) - (((t - UInt32.ofNat i) ||| (0 - (t - UInt32.ofNat i))) >>> 31)) =
      if t.toNat = i then 0xFFFFFFFF else 0 := by
  have hz : t - UInt32.ofNat i = 0 ↔ t.toNat = i := by
    have ht := t.toNat_lt
    rw [← UInt32.toNat_inj, UInt32.toNat_sub, UInt32.toNat_ofNat', UInt32.toNat_zero]
    omega
  rw [sign_or_neg32]
  by_cases h : t.toNat = i
  · rw [if_pos (hz.mpr h), if_pos h]
    rfl
  · rw [if_neg (mt hz.mp h), if_neg h]
    rfl

theorem mask_eq64 (t : UInt64) {i : Nat} (hi : i < 2 ^ 64) :
    (0 : UInt64) - ((1 : UInt64) - (((t - UInt64.ofNat i) ||| (0 - (t - UInt64.ofNat i))) >>> 63)) =
      if t.toNat = i then 0xFFFFFFFFFFFFFFFF else 0 := by
  have hz : t - UInt64.ofNat i = 0 ↔ t.toNat = i := by
    have ht := t.toNat_lt
    rw [← UInt64.toNat_inj, UInt64.toNat_sub, UInt64.toNat_ofNat', UInt64.toNat_zero]
    omega
  rw [sign_or_neg64]
  by_cases h : t.toNat = i
  · rw [if_pos (hz.mpr h), if_pos h]
    rfl
  · rw [if_neg (mt hz.mp h), if_neg h]
    rfl

theorem foldl_select {α : Type} {op : α → α → α} {e : α} (hl : ∀ a, op e a = a)
    (hr : ∀ a, op a e = a) (u : Nat → α) (t n : Nat) :
    (List.range n).foldl (fun g i ↦ op g (if t = i then u i else e)) e =
      if t < n then u t else e := by
  induction n with
  | zero => rfl
  | succ n ih =>
    rw [List.range_succ, List.foldl_concat, ih]
    rcases Nat.lt_trichotomy t n with h | rfl | h
    · rw [if_pos h, if_neg h.ne, if_pos (Nat.lt_succ_of_lt h), hr]
    · rw [if_neg (Nat.lt_irrefl t), if_pos rfl, if_pos t.lt_succ_self,
        hl]
    · rw [if_neg (by omega), if_neg (by omega), if_neg (by omega),
        hr]

end KemtlsMavlink.Library
