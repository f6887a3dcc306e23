import KemtlsMavlink.Hqc.CodeCorrect
import KemtlsMavlink.Hqc.Kem
import KemtlsMavlink.Hqc.Sampler
import KemtlsMavlink.Library.XorSum

namespace KemtlsMavlink.Hqc

open Library

theorem testBit_ge_64 (w : UInt64) {b : Nat} (hb : 64 ≤ b) : w.toNat.testBit b = false :=
  Nat.testBit_lt_two_pow (w.toNat_lt.trans_le (Nat.pow_le_pow_right (by decide) hb))

theorem word_ext {v w : UInt64} (h : ∀ b < 64, v.toNat.testBit b = w.toNat.testBit b) : v = w := by
  rw [← UInt64.toNat_inj]
  refine Nat.eq_of_testBit_eq fun b ↦ ?_
  by_cases hb : b < 64
  · exact h b hb
  · rw [testBit_ge_64 v (by omega), testBit_ge_64 w (by omega)]

theorem blockBit_ext {v w : List UInt64} (hl : v.length = w.length)
    (h : ∀ k < 64 * v.length, blockBit v k = blockBit w k) : v = w := by
  refine List.ext_getElem hl fun i h₁ h₂ ↦ word_ext fun b hb ↦ ?_
  have hk := h (64 * i + b) (by omega)
  have hd : (64 * i + b) / 64 = i := by omega
  have hm : (64 * i + b) % 64 = b := by omega
  rwa [blockBit, blockBit, hd, hm, List.getD_eq_getElem _ _ h₁, List.getD_eq_getElem _ _ h₂] at hk

theorem testBit_shiftRight64 (w : UInt64) {s b : Nat} (hs : s < 64) :
    (w >>> UInt64.ofNat s).toNat.testBit b = w.toNat.testBit (s + b) := by
  have hshift : (UInt64.ofNat s).toNat % 64 = s := by
    rw [UInt64.toNat_ofNat']
    omega
  rw [UInt64.toNat_shiftRight, hshift, Nat.testBit_shiftRight]

theorem testBit_shiftLeft64 (w : UInt64) {s b : Nat} (hs : s < 64) (hb : b < 64) :
    (w <<< UInt64.ofNat s).toNat.testBit b = (decide (s ≤ b) && w.toNat.testBit (b - s)) := by
  have hshift : (UInt64.ofNat s).toNat % 64 = s := by
    rw [UInt64.toNat_ofNat']
    omega
  rw [UInt64.toNat_shiftLeft, hshift, Nat.testBit_mod_two_pow, Nat.testBit_shiftLeft,
    decide_eq_true hb, Bool.true_and]

theorem blockBit_vectAdd {v w : List UInt64} {k : Nat} (hv : k / 64 < v.length)
    (hw : k / 64 < w.length) : blockBit (vectAdd v w) k = (blockBit v k ^^ blockBit w k) := by
  have hzip : k / 64 < (List.zipWith (· ^^^ ·) v w).length := by
    rw [List.length_zipWith]
    omega
  rw [vectAdd, blockBit, blockBit, blockBit, List.getD_eq_getElem _ _ hzip,
    List.getD_eq_getElem _ _ hv, List.getD_eq_getElem _ _ hw, List.getElem_zipWith,
    UInt64.toNat_xor, Nat.testBit_xor]

theorem blockBit_replicate_zero (n k : Nat) : blockBit (List.replicate n 0) k = false := by
  have hget : (List.replicate n (0 : UInt64)).getD (k / 64) 0 = 0 := by
    by_cases h : k / 64 < n
    · exact List.getD_replicate 0 h
    · exact List.getD_eq_default _ _ (by rw [List.length_replicate]; omega)
  rw [blockBit, hget, UInt64.toNat_zero, Nat.zero_testBit]

theorem blockBit_modify {v : List UInt64} {i k : Nat} {f : UInt64 → UInt64}
    (hk : k / 64 < v.length) : blockBit (v.modify i f) k =
      if i = k / 64 then (f (v.getD (k / 64) 0)).toNat.testBit (k % 64) else blockBit v k := by
  have hlen : k / 64 < (v.modify i f).length := by rwa [List.length_modify]
  rw [blockBit, blockBit, List.getD_eq_getElem _ _ hlen, List.getElem_modify,
    List.getD_eq_getElem _ _ hk]
  split_ifs <;> rfl

theorem singleBitMask_loop (pos : UInt32) : ∀ n ≤ 64,
    let s := (List.range n).foldl (fun (s : UInt64 × UInt64) i ↦
      let tmp := pos.toUInt64 - UInt64.ofNat i
      let tmp := (0 : UInt64) - ((1 : UInt64) - ((tmp ||| (0 - tmp)) >>> 63))
      (s.1 ||| (s.2 &&& tmp), s.2 <<< 1)) (0, 1)
    s.1.toNat = (if pos.toNat < n then 2 ^ pos.toNat else 0) ∧ s.2.toNat = 2 ^ n % 2 ^ 64 := by
  intro n hn
  induction n with
  | zero => exact ⟨(if_neg (Nat.not_lt_zero _)).symm, rfl⟩
  | succ n ih =>
    obtain ⟨h1, h2⟩ := ih (by omega)
    have h1shift : (1 : UInt64).toNat % 64 = 1 := rfl
    have hmask := mask_eq64 pos.toUInt64 (i := n) (by omega)
    rw [UInt32.toNat_toUInt64] at hmask
    rw [List.range_succ, List.foldl_concat]
    dsimp only at h1 h2 ⊢
    rw [hmask]
    have hpow : 2 ^ n < 2 ^ 64 := Nat.pow_lt_pow_right (by decide) hn
    constructor
    · rw [UInt64.toNat_or, UInt64.toNat_and, h1, h2, Nat.mod_eq_of_lt hpow]
      rcases Nat.lt_trichotomy pos.toNat n with h | h | h
      · rw [if_pos h, if_neg h.ne, if_pos (Nat.lt_succ_of_lt h), UInt64.toNat_zero, Nat.and_zero,
          Nat.or_zero]
      · have hfull : (0xFFFFFFFFFFFFFFFF : UInt64).toNat = 2 ^ 64 - 1 := rfl
        rw [if_neg (by omega), if_pos h, if_pos (by omega), hfull, Nat.and_two_pow_sub_one_eq_mod,
          Nat.mod_eq_of_lt hpow, Nat.zero_or, h]
      · rw [if_neg (by omega), if_neg (by omega), if_neg (by omega), UInt64.toNat_zero,
          Nat.and_zero, Nat.or_zero]
    · rw [UInt64.toNat_shiftLeft, h1shift, h2, Nat.shiftLeft_eq, Nat.mod_mul_mod, Nat.pow_one,
        ← Nat.pow_succ]

theorem testBit_singleBitMask (pos : UInt32) (hpos : pos.toNat < 64) (b : Nat) :
    (singleBitMask pos).toNat.testBit b = decide (pos.toNat = b) := by
  have h := (singleBitMask_loop pos 64 le_rfl).1
  rw [if_pos hpos] at h
  exact (congrArg (Nat.testBit · b) h).trans Nat.testBit_two_pow

/-- Whether a position stands an odd number of times in a list. -/
def hits (idx : List UInt16) (k : Nat) : Bool :=
  xorSum idx (fun p ↦ decide (p.toNat = k))

theorem hits_concat (idx : List UInt16) (p : UInt16) (k : Nat) :
    hits (idx ++ [p]) k = (hits idx k ^^ decide (p.toNat = k)) := xorSum_concat ..

theorem hits_of_nodup {idx : List UInt16} (h : idx.Nodup) (k : Nat) :
    hits idx k = decide (∃ p ∈ idx, p.toNat = k) := by
  induction idx using List.reverseRecOn with
  | nil => exact (decide_eq_false (by simp)).symm
  | append_singleton idx p ih =>
    obtain ⟨hidx, -, hdis⟩ := List.nodup_append.mp h
    rw [hits_concat, ih hidx]
    by_cases hp : p.toNat = k
    · have hnot : ¬∃ q ∈ idx, q.toNat = k := by
        rintro ⟨q, hq, he⟩
        exact hdis q hq p (List.mem_singleton_self p) (UInt16.toNat_inj.mp (he.trans hp.symm))
      rw [decide_eq_false hnot, decide_eq_true hp, decide_eq_true ⟨p, by simp, hp⟩]
      rfl
    · have hsame : (∃ q ∈ idx ++ [p], q.toNat = k) ↔ ∃ q ∈ idx, q.toNat = k := by
        simp only [List.mem_append, List.mem_singleton]
        constructor
        · rintro ⟨q, hq | rfl, he⟩
          · exact ⟨q, hq, he⟩
          · exact absurd he hp
        · rintro ⟨q, hq, he⟩
          exact ⟨q, .inl hq, he⟩
      rw [decide_eq_false hp, Bool.xor_false, decide_eq_decide.mpr hsame]

theorem length_vectAddSparse (u : List UInt64) (idx : List UInt16) :
    (vectAddSparse u idx).length = u.length := by
  induction idx using List.reverseRecOn with
  | nil => rfl
  | append_singleton idx p ih =>
    rw [vectAddSparse, List.foldl_concat, List.length_modify]
    exact ih

theorem blockBit_vectAddSparse {u : List UInt64} (idx : List UInt16) {k : Nat}
    (hk : k < 64 * u.length) :
    blockBit (vectAddSparse u idx) k = (blockBit u k ^^ hits idx k) := by
  induction idx using List.reverseRecOn with
  | nil => exact (Bool.xor_false _).symm
  | append_singleton idx p ih =>
    have hlen := length_vectAddSparse u idx
    have hword : (p.toUInt32 >>> (6 : UInt32)).toNat = p.toNat / 64 := by
      have h6 : (6 : UInt32).toNat % 32 = 6 := rfl
      rw [UInt32.toNat_shiftRight, h6, UInt16.toNat_toUInt32, Nat.shiftRight_eq_div_pow]
    have hbit : (p.toUInt32 &&& (63 : UInt32)).toNat = p.toNat % 64 := by
      rw [UInt32.toNat_and, UInt16.toNat_toUInt32]
      exact Nat.and_two_pow_sub_one_eq_mod p.toNat 6
    have hmask := testBit_singleBitMask (p.toUInt32 &&& (63 : UInt32)) (by omega) (k % 64)
    rw [hbit] at hmask
    rw [vectAddSparse, List.foldl_concat, ← vectAddSparse, blockBit_modify (by omega), hword,
      hits_concat, ← Bool.xor_assoc, ← ih]
    split_ifs with h
    · rw [UInt64.toNat_xor, Nat.testBit_xor, hmask, blockBit]
      have hsame : p.toNat % 64 = k % 64 ↔ p.toNat = k := by omega
      rw [decide_eq_decide.mpr hsame]
    · rw [decide_eq_false (show p.toNat ≠ k by omega), Bool.xor_false]

/-- The vector with ones at the positions. -/
def onesAt (idx : List UInt16) : List UInt64 := vectAddSparse (List.replicate vecNSize64 0) idx

theorem length_onesAt (idx : List UInt16) : (onesAt idx).length = 277 :=
  (length_vectAddSparse _ idx).trans List.length_replicate

theorem blockBit_onesAt (idx : List UInt16) {k : Nat} (hk : k < 17728) :
    blockBit (onesAt idx) k = hits idx k := by
  have hsize : 64 * (List.replicate vecNSize64 (0 : UInt64)).length = 17728 := by
    rw [List.length_replicate]
    rfl
  rw [onesAt, blockBit_vectAddSparse idx (hk.trans_eq hsize.symm), blockBit_replicate_zero,
    Bool.false_xor]

theorem length_setSupport (support : List UInt32) (v : List UInt64) :
    (setSupport support v).length = 277 := by
  rw [setSupport, List.length_map, List.length_range]
  rfl

theorem wordMask_eq (i : Nat) (hi : i < 277) (p : UInt32) :
    (0 : UInt64) - ((1 : UInt32) ^^^ (((UInt32.ofNat i - (p >>> (6 : UInt32))) |||
      ((0 : UInt32) - (UInt32.ofNat i - (p >>> (6 : UInt32))))) >>> 31)).toUInt64 =
        if p.toNat / 64 = i then 0xFFFFFFFFFFFFFFFF else 0 := by
  have h6 : (6 : UInt32).toNat % 32 = 6 := rfl
  have hp := p.toNat_lt
  have hzero : UInt32.ofNat i - (p >>> (6 : UInt32)) = 0 ↔ p.toNat / 64 = i := by
    rw [← UInt32.toNat_inj, UInt32.toNat_sub, UInt32.toNat_shiftRight, h6, UInt32.toNat_ofNat',
      Nat.shiftRight_eq_div_pow, UInt32.toNat_zero]
    omega
  rw [sign_or_neg32]
  by_cases h : p.toNat / 64 = i
  · rw [if_pos (hzero.mpr h), if_pos h]
    rfl
  · rw [if_neg (mt hzero.mp h), if_neg h]
    rfl

theorem blockBit_setSupport (support : List UInt32) (v : List UInt64) {k : Nat} (hk : k < 17728) :
    blockBit (setSupport support v) k =
      (blockBit v k || decide (∃ p ∈ support, p.toNat = k)) := by
  have hi : k / 64 < 277 := by omega
  have hfold : (support.foldl (fun (val : UInt64) (p : UInt32) ↦
      val ||| (singleBitMask (p &&& (0x3f : UInt32)) &&&
        ((0 : UInt64) - ((1 : UInt32) ^^^ (((UInt32.ofNat (k / 64) - (p >>> (6 : UInt32))) |||
          ((0 : UInt32) - (UInt32.ofNat (k / 64) - (p >>> (6 : UInt32))))) >>> 31)).toUInt64)))
            0).toNat.testBit (k % 64) = decide (∃ p ∈ support, p.toNat = k) := by
    induction support using List.reverseRecOn with
    | nil =>
      rw [decide_eq_false (by simp)]
      exact Nat.zero_testBit _
    | append_singleton support p ih =>
      have hbit : (p &&& (0x3f : UInt32)).toNat = p.toNat % 64 := by
        rw [UInt32.toNat_and]
        exact Nat.and_two_pow_sub_one_eq_mod p.toNat 6
      have hmask := testBit_singleBitMask (p &&& (0x3f : UInt32)) (by omega) (k % 64)
      rw [hbit] at hmask
      have hsplit : (∃ q ∈ support ++ [p], q.toNat = k) ↔
          (∃ q ∈ support, q.toNat = k) ∨ p.toNat = k := by
        simp [or_and_right, exists_or]
      rw [List.foldl_concat, UInt64.toNat_or, Nat.testBit_or, ih, wordMask_eq _ hi,
        UInt64.toNat_and, Nat.testBit_and, hmask, decide_eq_decide.mpr hsplit, Bool.decide_or]
      congr 1
      split_ifs with h
      · have hfull : (0xFFFFFFFFFFFFFFFF : UInt64).toNat = 2 ^ 64 - 1 := rfl
        have hsame : p.toNat % 64 = k % 64 ↔ p.toNat = k := by omega
        rw [hfull, Nat.testBit_two_pow_sub_one, decide_eq_true (Nat.mod_lt k (by decide)),
          Bool.and_true, decide_eq_decide.mpr hsame]
      · rw [UInt64.toNat_zero, Nat.zero_testBit, Bool.and_false,
          decide_eq_false (show p.toNat ≠ k by omega)]
  have h277 : k / 64 < vecNSize64 := hi
  rw [blockBit, setSupport, List.getD_eq_getElem?_getD, List.getElem?_map,
    List.getElem?_range h277]
  change (v.getD (k / 64) 0 ||| _).toNat.testBit (k % 64) = _
  rw [UInt64.toNat_or, Nat.testBit_or]
  exact congrArg (blockBit v k || ·) hfold

end KemtlsMavlink.Hqc
