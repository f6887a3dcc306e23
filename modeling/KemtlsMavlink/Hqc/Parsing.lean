import KemtlsMavlink.Hqc.Bits

namespace KemtlsMavlink.Hqc

open Library

def byteBit (l : List UInt8) (k : Nat) : Bool := (l.getD (k / 8) 0).toNat.testBit (k % 8)

theorem byte_ext {a b : UInt8} (h : ∀ k < 8, a.toNat.testBit k = b.toNat.testBit k) : a = b := by
  rw [← UInt8.toNat_inj]
  refine Nat.eq_of_testBit_eq fun k ↦ ?_
  by_cases hk : k < 8
  · exact h k hk
  · have hpow : 2 ^ 8 ≤ 2 ^ k := Nat.pow_le_pow_right (by decide) (by omega)
    rw [Nat.testBit_lt_two_pow (a.toNat_lt.trans_le hpow),
      Nat.testBit_lt_two_pow (b.toNat_lt.trans_le hpow)]

theorem byteBit_ext {l m : List UInt8} (hl : l.length = m.length)
    (h : ∀ k < 8 * l.length, byteBit l k = byteBit m k) : l = m := by
  refine List.ext_getElem hl fun i h₁ h₂ ↦ byte_ext fun b hb ↦ ?_
  have hk := h (8 * i + b) (by omega)
  have hd : (8 * i + b) / 8 = i := by omega
  have hm : (8 * i + b) % 8 = b := by omega
  rwa [byteBit, byteBit, hd, hm, List.getD_eq_getElem _ _ h₁, List.getD_eq_getElem _ _ h₂] at hk

theorem loadBytes_eq (l : List UInt8) :
    loadBytes l = l.foldr (fun b ret ↦ (ret <<< (8 : UInt64)) ||| b.toUInt64) 0 := by
  have hfold : ∀ l : List UInt8, l.foldr (fun b ret ↦ (ret <<< (8 : UInt64)) ||| b.toUInt64) 0 =
      l.reverse.foldl (fun ret b ↦ (ret <<< (8 : UInt64)) ||| b.toUInt64) 0 := fun l ↦
    (List.foldl_reverse ..).symm
  rw [hfold, loadBytes]
  cases l.reverse with
  | nil => rfl
  | cons b bs =>
    have h0 : ((0 : UInt64) <<< (8 : UInt64)) ||| b.toUInt64 = b.toUInt64 := by
      rw [UInt64.zero_shiftLeft, UInt64.zero_or]
    rw [List.foldl_cons, h0]

theorem testBit_loadBytes (l : List UInt8) {k : Nat} (hk : k < 64) :
    (loadBytes l).toNat.testBit k = byteBit l k := by
  rw [loadBytes_eq]
  induction l generalizing k with
  | nil =>
    rw [byteBit, List.getD_nil]
    exact (Nat.zero_testBit _).trans (Nat.zero_testBit _).symm
  | cons b l ih =>
    have hb := b.toNat_lt
    have hshift := testBit_shiftLeft64
      (l.foldr (fun b ret ↦ (ret <<< (8 : UInt64)) ||| b.toUInt64) 0) (s := 8) (by decide) hk
    rw [List.foldr_cons, UInt64.toNat_or, Nat.testBit_or, UInt8.toNat_toUInt64]
    refine (congrArg (· || b.toNat.testBit k) hshift).trans ?_
    by_cases h8 : 8 ≤ k
    · have hpow : 2 ^ 8 ≤ 2 ^ k := Nat.pow_le_pow_right (by decide) h8
      have hd : k / 8 = (k - 8) / 8 + 1 := by omega
      have hm : k % 8 = (k - 8) % 8 := by omega
      rw [decide_eq_true h8, Bool.true_and, Nat.testBit_lt_two_pow (hb.trans_le hpow),
        Bool.or_false, ih (by omega), byteBit, byteBit, hd, hm, List.getD_cons_succ]
    · have hd : k / 8 = 0 := by omega
      have hm : k % 8 = k := by omega
      rw [decide_eq_false h8, Bool.false_and, Bool.false_or, byteBit, hd, hm, List.getD_cons_zero]

theorem length_load8Arr (n : Nat) (l : List UInt8) : (load8Arr n l).length = n := by
  induction n generalizing l with
  | zero => rfl
  | succ n ih =>
    rw [load8Arr]
    split_ifs
    · rw [List.length_cons, ih]
    · rw [List.length_cons, List.length_replicate]

theorem blockBit_load8Arr {n : Nat} (l : List UInt8) {k : Nat} (hk : k < 64 * n) :
    blockBit (load8Arr n l) k = byteBit l k := by
  induction n generalizing l k with
  | zero => omega
  | succ n ih =>
    rw [load8Arr]
    by_cases hword : k < 64
    · have hd : k / 64 = 0 := by omega
      have hm : k % 64 = k := by omega
      split_ifs with h8
      · rw [blockBit, hd, hm, List.getD_cons_zero, testBit_loadBytes _ hword, byteBit, byteBit,
          List.getD_eq_getElem?_getD, List.getElem?_take_of_lt (by omega),
          ← List.getD_eq_getElem?_getD]
      · rw [blockBit, hd, hm, List.getD_cons_zero, testBit_loadBytes _ hword]
    · have hd : k / 64 = (k - 64) / 64 + 1 := by omega
      have hm : k % 64 = (k - 64) % 64 := by omega
      split_ifs with h8
      · have hd8 : k / 8 = 8 + (k - 64) / 8 := by omega
        have hm8 : k % 8 = (k - 64) % 8 := by omega
        rw [blockBit, hd, hm, List.getD_cons_succ, ← blockBit, ih _ (by omega), byteBit, byteBit,
          hd8, hm8, List.getD_eq_getElem?_getD, List.getElem?_drop, ← List.getD_eq_getElem?_getD]
      · have hzero := blockBit_replicate_zero n (k - 64)
        rw [blockBit, hd, hm, List.getD_cons_succ, ← blockBit, hzero, byteBit,
          List.getD_eq_default _ _ (by omega)]
        exact (Nat.zero_testBit _).symm

theorem length_store8Arr (n : Nat) (v : List UInt64) :
    (store8Arr n v).length = min n (8 * v.length) := by
  rw [store8Arr, List.length_map, List.length_range]

theorem byteBit_store8Arr {n : Nat} (v : List UInt64) {k : Nat} (hk : k < 8 * n)
    (hv : k < 64 * v.length) : byteBit (store8Arr n v) k = blockBit v k := by
  have hk8 : k / 8 < min n (8 * v.length) := by omega
  have hd : k / 8 / 8 = k / 64 := by omega
  have hm : k / 8 % 8 * 8 + k % 8 = k % 64 := by omega
  have h8 : (256 : Nat) = 2 ^ 8 := rfl
  rw [byteBit, store8Arr, List.getD_eq_getElem?_getD, List.getElem?_map, List.getElem?_range hk8,
    Option.map_some, Option.getD_some, UInt64.toNat_toUInt8, Nat.testBit_mod_two_pow,
    testBit_shiftRight64 _ (by omega), hd, hm, blockBit, decide_eq_true (Nat.mod_lt _ (by decide)),
    Bool.true_and]

theorem byteBit_of_le {l : List UInt8} {k : Nat} (h : 8 * l.length ≤ k) : byteBit l k = false := by
  rw [byteBit, List.getD_eq_default _ _ (by omega)]
  exact Nat.zero_testBit _

theorem load8Arr_store8Arr {n : Nat} {v : List UInt64} (hn : n ≤ 8 * v.length)
    (h : ∀ k < 64 * v.length, 8 * n ≤ k → blockBit v k = false) :
    load8Arr v.length (store8Arr n v) = v := by
  have hlen : (store8Arr n v).length = n := by
    rw [length_store8Arr]
    omega
  refine blockBit_ext (length_load8Arr _ _) fun k hk ↦ ?_
  rw [length_load8Arr] at hk
  rw [blockBit_load8Arr _ hk]
  by_cases hin : k < 8 * n
  · exact byteBit_store8Arr v hin hk
  · rw [byteBit_of_le (by omega), h k hk (by omega)]

theorem store8Arr_load8Arr {n : Nat} {l : List UInt8} (hn : l.length ≤ 8 * n) :
    store8Arr l.length (load8Arr n l) = l := by
  have hlen : (store8Arr l.length (load8Arr n l)).length = l.length := by
    rw [length_store8Arr, length_load8Arr]
    omega
  refine byteBit_ext hlen fun k hk ↦ ?_
  rw [hlen] at hk
  rw [byteBit_store8Arr _ hk (by rw [length_load8Arr]; omega), blockBit_load8Arr _ (by omega)]

/-- A vector whose bits are inside. -/
structure Inner (u : List UInt64) : Prop where
  length : u.length = 277
  bits : ∀ k < 17728, 17669 ≤ k → blockBit u k = false

theorem Inner.load_store {u : List UInt64} (h : Inner u) :
    load8Arr vecNSize64 (store8Arr vecNSizeBytes u) = u := by
  have hlen := h.length
  have hload := load8Arr_store8Arr (n := vecNSizeBytes) (v := u)
    (by rw [hlen]; decide) fun k hk hle ↦ h.bits k (by omega) (by
      have hbytes : vecNSizeBytes = 2209 := rfl
      omega)
  rwa [hlen] at hload

theorem load_store_v {v : List UInt64} (hv : v.length = 276) :
    load8Arr vecN1N2Size64 (store8Arr vecN1N2SizeBytes v) = v := by
  have hbytes : vecN1N2SizeBytes = 2208 := rfl
  have hload := load8Arr_store8Arr (n := vecN1N2SizeBytes) (v := v)
    (by rw [hv]; decide) fun k hk hle ↦ by omega
  rwa [hv] at hload

theorem take_append_append {a b c : List UInt8} {n : Nat} (h : a.length = n) :
    (a ++ b ++ c).take n = a := by
  rw [List.append_assoc, List.take_left' h]

theorem drop_append_append {a b c : List UInt8} {n m : Nat} (ha : a.length = n)
    (hb : b.length = m) : ((a ++ b ++ c).drop n).take m = b ∧ (a ++ b ++ c).drop (n + m) = c := by
  constructor
  · rw [List.append_assoc, List.drop_left' ha, List.take_left' hb]
  · rw [List.drop_left' (by rw [List.length_append, ha, hb])]

theorem ciphertext_from_to {u v : List UInt64} {salt : List UInt8} (hu : Inner u)
    (hv : v.length = 276) (hsalt : salt.length = 16) :
    hqcCiphertextFromString (hqcCiphertextToString u v salt) = ⟨u, v, salt⟩ := by
  have hul : (store8Arr vecNSizeBytes u).length = vecNSizeBytes := by
    rw [length_store8Arr, hu.length]
    rfl
  have hvl : (store8Arr vecN1N2SizeBytes v).length = vecN1N2SizeBytes := by
    rw [length_store8Arr, hv]
    rfl
  have hst : salt.take saltSizeBytes = salt := List.take_of_length_le hsalt.le
  obtain ⟨hmid, hlast⟩ := drop_append_append (c := salt) hul hvl
  rw [hqcCiphertextFromString, hqcCiphertextToString, hst, take_append_append hul, hmid, hlast, hst,
    hu.load_store, load_store_v hv]

theorem ciphertext_to_from {ct : List UInt8} (hct : ct.length = 4433) :
    hqcCiphertextToString (hqcCiphertextFromString ct).u (hqcCiphertextFromString ct).v
      (hqcCiphertextFromString ct).salt = ct := by
  have hul : (ct.take vecNSizeBytes).length = vecNSizeBytes := by
    rw [List.length_take, hct]
    rfl
  have hvl : ((ct.drop vecNSizeBytes).take vecN1N2SizeBytes).length = vecN1N2SizeBytes := by
    rw [List.length_take, List.length_drop, hct]
    rfl
  have hsl : ((ct.drop (vecNSizeBytes + vecN1N2SizeBytes)).take saltSizeBytes).length =
      saltSizeBytes := by
    rw [List.length_take, List.length_drop, hct]
    rfl
  have hu := store8Arr_load8Arr (n := vecNSize64) (l := ct.take vecNSizeBytes) (by
    rw [hul]
    decide)
  have hv := store8Arr_load8Arr (n := vecN1N2Size64)
    (l := (ct.drop vecNSizeBytes).take vecN1N2SizeBytes) (by
      rw [hvl]
      decide)
  have hrest : (ct.drop (vecNSizeBytes + vecN1N2SizeBytes)).take saltSizeBytes =
      ct.drop (vecNSizeBytes + vecN1N2SizeBytes) := List.take_of_length_le (by
    rw [List.length_drop, hct]
    decide)
  rw [hul] at hu
  rw [hvl] at hv
  rw [hqcCiphertextToString, hqcCiphertextFromString]
  dsimp only
  rw [hu, hv, List.take_of_length_le hsl.le, hrest, ← List.drop_drop, List.append_assoc,
    List.take_append_drop, List.take_append_drop]

end KemtlsMavlink.Hqc
