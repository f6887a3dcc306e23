import KemtlsMavlink.Hqc.ReedMuller
import KemtlsMavlink.Hqc.Locator
import KemtlsMavlink.Library.WalshHadamard
import Mathlib.Tactic.Linarith

namespace KemtlsMavlink.Hqc

open Library WalshHadamard

/-- A bit of a block, in the order of the source. -/
def blockBit (src : List UInt64) (j : Nat) : Bool := (src.getD (j / 64) 0).toNat.testBit (j % 64)

def rmBit (m j : Nat) : Bool := parity 7 m j ^^ m.testBit 7

def rmFirstWord (message : UInt8) : UInt32 :=
  let firstWord := bit0Mask (message >>> 7)
  let firstWord := firstWord ^^^ (bit0Mask (message >>> 0) &&& 0xaaaaaaaa)
  let firstWord := firstWord ^^^ (bit0Mask (message >>> 1) &&& 0xcccccccc)
  let firstWord := firstWord ^^^ (bit0Mask (message >>> 2) &&& 0xf0f0f0f0)
  let firstWord := firstWord ^^^ (bit0Mask (message >>> 3) &&& 0xff00ff00)
  firstWord ^^^ (bit0Mask (message >>> 4) &&& 0xffff0000)

theorem testBit_bit0Mask (m : UInt8) {k : Nat} (hk : k < 8) {j : Nat} (hj : j < 32) :
    (bit0Mask (m >>> UInt8.ofNat k)).toNat.testBit j = m.toNat.testBit k := by
  have hbit : ((m >>> UInt8.ofNat k) &&& 1).toUInt32 = if m.toNat.testBit k then 1 else 0 := by
    have hkk : (UInt8.ofNat k).toNat % 8 = k := by
      rw [UInt8.toNat_ofNat']
      omega
    rw [← UInt32.toNat_inj, UInt8.toNat_toUInt32, UInt8.toNat_and, UInt8.toNat_shiftRight, hkk,
      UInt8.toNat_one, Nat.and_one_is_mod, Nat.testBit, Nat.one_and_eq_mod_two]
    rcases Nat.mod_two_eq_zero_or_one (m.toNat >>> k) with h | h <;> simp [h]
  rw [bit0Mask, hbit]
  split_ifs with h
  · have hfull : (0 - 1 : UInt32).toNat = 2 ^ 32 - 1 := by decide
    rw [hfull, Nat.testBit_two_pow_sub_one, h, decide_eq_true hj]
  · have hzero : (0 - 0 : UInt32).toNat = 0 := by decide
    rw [hzero, Nat.zero_testBit]
    exact (Bool.eq_false_of_not_eq_true h).symm

theorem testBit_patterns : ∀ j < 32, (0xaaaaaaaa : Nat).testBit j = j.testBit 0 ∧
    (0xcccccccc : Nat).testBit j = j.testBit 1 ∧ (0xf0f0f0f0 : Nat).testBit j = j.testBit 2 ∧
    (0xff00ff00 : Nat).testBit j = j.testBit 3 ∧ (0xffff0000 : Nat).testBit j = j.testBit 4 := by
  decide

theorem testBit_rmFirstWord (m : UInt8) {j : Nat} (hj : j < 32) :
    (rmFirstWord m).toNat.testBit j = (parity 5 m.toNat j ^^ m.toNat.testBit 7) := by
  obtain ⟨h0, h1, h2, h3, h4⟩ := testBit_patterns j hj
  have b := fun k (hk : k < 8) ↦ testBit_bit0Mask m hk hj
  have e0 : (bit0Mask (m >>> 0)).toNat.testBit j = _ := b 0 (by decide)
  have e1 : (bit0Mask (m >>> 1)).toNat.testBit j = _ := b 1 (by decide)
  have e2 : (bit0Mask (m >>> 2)).toNat.testBit j = _ := b 2 (by decide)
  have e3 : (bit0Mask (m >>> 3)).toNat.testBit j = _ := b 3 (by decide)
  have e4 : (bit0Mask (m >>> 4)).toNat.testBit j = _ := b 4 (by decide)
  have e7 : (bit0Mask (m >>> 7)).toNat.testBit j = _ := b 7 (by decide)
  have p0 : (0xaaaaaaaa : UInt32).toNat.testBit j = _ := h0
  have p1 : (0xcccccccc : UInt32).toNat.testBit j = _ := h1
  have p2 : (0xf0f0f0f0 : UInt32).toNat.testBit j = _ := h2
  have p3 : (0xff00ff00 : UInt32).toNat.testBit j = _ := h3
  have p4 : (0xffff0000 : UInt32).toNat.testBit j = _ := h4
  simp only [rmFirstWord, UInt32.toNat_xor, UInt32.toNat_and, Nat.testBit_xor, Nat.testBit_and,
    e0, e1, e2, e3, e4, e7, p0, p1, p2, p3, p4, parity, Bool.false_xor]
  rw [Bool.xor_comm _ (m.toNat.testBit 7)]
  simp only [Bool.xor_assoc]

theorem rmEncode_eq (m : UInt8) : rmEncode m =
    [(rmFirstWord m).toUInt64 ||| ((rmFirstWord m ^^^ bit0Mask (m >>> 5)).toUInt64 <<< 32),
      ((rmFirstWord m ^^^ bit0Mask (m >>> 5) ^^^ bit0Mask (m >>> 6)).toUInt64 <<< 32) |||
        (rmFirstWord m ^^^ bit0Mask (m >>> 5) ^^^ bit0Mask (m >>> 6) ^^^
          bit0Mask (m >>> 5)).toUInt64] := rfl

theorem testBit_halves (lo hi : UInt32) {b : Nat} (hb : b < 64) :
    (lo.toUInt64 ||| (hi.toUInt64 <<< 32)).toNat.testBit b =
      if b < 32 then lo.toNat.testBit b else hi.toNat.testBit (b - 32) := by
  have h32 : (32 : UInt64).toNat % 64 = 32 := rfl
  have hlo := lo.toNat_lt
  have hhi := hi.toNat_lt
  have hlt : hi.toNat <<< 32 < 2 ^ 64 := by
    rw [Nat.shiftLeft_eq]
    omega
  rw [UInt64.toNat_or, UInt64.toNat_shiftLeft, h32, UInt32.toNat_toUInt64, UInt32.toNat_toUInt64,
    Nat.mod_eq_of_lt hlt, Nat.testBit_or, Nat.testBit_shiftLeft]
  split_ifs with h
  · rw [decide_eq_false (by omega), Bool.false_and, Bool.or_false]
  · have hbig : lo.toNat < 2 ^ b := hlo.trans_le (Nat.pow_le_pow_right (by decide) (by omega))
    rw [Nat.testBit_lt_two_pow hbig, decide_eq_true (by omega), Bool.true_and, Bool.false_or]

theorem testBit_rmEncode (m : UInt8) {j : Nat} (hj : j < 128) :
    ((rmEncode m).getD (j / 64) 0).toNat.testBit (j % 64) = rmBit m.toNat j := by
  obtain ⟨q, r, hq, hr, rfl⟩ : ∃ q r, q < 4 ∧ r < 32 ∧ j = 2 ^ 5 * q + r :=
    ⟨j / 32, j % 32, by omega, Nat.mod_lt _ (by decide), by omega⟩
  have hlow : parity 5 m.toNat (2 ^ 5 * q + r) = parity 5 m.toNat r := by
    refine parity_congr (fun _ _ ↦ rfl) fun i hi ↦ ?_
    rw [Nat.testBit_two_pow_mul_add q hr, if_pos hi]
  have hbit : rmBit m.toNat (2 ^ 5 * q + r) = (((parity 5 m.toNat r ^^
      (m.toNat.testBit 5 && q.testBit 0)) ^^ (m.toNat.testBit 6 && q.testBit 1)) ^^
        m.toNat.testBit 7) := by
    rw [rmBit, parity, parity, hlow, Nat.testBit_two_pow_mul_add q hr,
      Nat.testBit_two_pow_mul_add q hr]
    rfl
  have hw := testBit_rmFirstWord m hr
  have e5 : (bit0Mask (m >>> 5)).toNat.testBit r = _ := testBit_bit0Mask m (k := 5) (by decide) hr
  have e6 : (bit0Mask (m >>> 6)).toNat.testBit r = _ := testBit_bit0Mask m (k := 6) (by decide) hr
  rw [hbit, rmEncode_eq]
  have hq' : q = 0 ∨ q = 1 ∨ q = 2 ∨ q = 3 := by omega
  rcases hq' with rfl | rfl | rfl | rfl
  · have hd : (2 ^ 5 * 0 + r) / 64 = 0 := by omega
    have hm : (2 ^ 5 * 0 + r) % 64 = r := by omega
    rw [hd, hm, List.getD_cons_zero, testBit_halves _ _ (by omega), if_pos hr, hw]
    simp
  · have hd : (2 ^ 5 * 1 + r) / 64 = 0 := by omega
    have hm : (2 ^ 5 * 1 + r) % 64 = 32 + r := by omega
    rw [hd, hm, List.getD_cons_zero, testBit_halves _ _ (by omega), if_neg (by omega),
      Nat.add_sub_cancel_left, UInt32.toNat_xor, Nat.testBit_xor, hw, e5]
    cases parity 5 m.toNat r <;> cases m.toNat.testBit 5 <;> cases m.toNat.testBit 6 <;>
      cases m.toNat.testBit 7 <;> rfl
  · have hd : (2 ^ 5 * 2 + r) / 64 = 1 := by omega
    have hm : (2 ^ 5 * 2 + r) % 64 = r := by omega
    rw [hd, hm, List.getD_cons_succ, List.getD_cons_zero, UInt64.or_comm,
      testBit_halves _ _ (by omega), if_pos hr]
    simp only [UInt32.toNat_xor, Nat.testBit_xor, hw, e5, e6]
    cases parity 5 m.toNat r <;> cases m.toNat.testBit 5 <;> cases m.toNat.testBit 6 <;>
      cases m.toNat.testBit 7 <;> rfl
  · have hd : (2 ^ 5 * 3 + r) / 64 = 1 := by omega
    have hm : (2 ^ 5 * 3 + r) % 64 = 32 + r := by omega
    rw [hd, hm, List.getD_cons_succ, List.getD_cons_zero, UInt64.or_comm,
      testBit_halves _ _ (by omega), if_neg (by omega), Nat.add_sub_cancel_left]
    simp only [UInt32.toNat_xor, Nat.testBit_xor, hw, e5, e6]
    cases parity 5 m.toNat r <;> cases m.toNat.testBit 5 <;> cases m.toNat.testBit 6 <;>
      cases m.toNat.testBit 7 <;> rfl

theorem blockBit_rmEncodeBlock (m : UInt8) {j : Nat} (hj : j < 384) :
    blockBit (rmEncodeBlock m) j = rmBit m.toNat (j % 128) := by
  rw [← testBit_rmEncode m (Nat.mod_lt j (by decide))]
  have hget : (rmEncodeBlock m).getD (j / 64) 0 = (rmEncode m).getD (j % 128 / 64) 0 := by
    have hblock : rmEncodeBlock m = rmEncode m ++ (rmEncode m ++ (rmEncode m ++ [])) := rfl
    have hj' : j / 64 = 0 ∨ j / 64 = 1 ∨ j / 64 = 2 ∨ j / 64 = 3 ∨ j / 64 = 4 ∨ j / 64 = 5 := by
      omega
    have hmod : j % 128 / 64 = (j / 64) % 2 := by omega
    rw [hmod, hblock, rmEncode_eq]
    rcases hj' with h | h | h | h | h | h <;> rw [h] <;> rfl
  have hmod : j % 128 % 64 = j % 64 := by omega
  rw [blockBit, hget, hmod]

def bitCount (src : List UInt64) (j : Nat) : ℤ :=
  ∑ copy ∈ Finset.range 3, if blockBit src (128 * copy + j) then 1 else 0

theorem wordBit_eq (src : List UInt64) (j : Nat) :
    wordBit src (j / 64) (j % 64) = UInt16.ofInt (if blockBit src j then 1 else 0) := by
  have hshift : (UInt64.ofNat (j % 64)).toNat % 64 = j % 64 := by
    rw [UInt64.toNat_ofNat']
    omega
  have hbit : (src.getD (j / 64) 0 >>> UInt64.ofNat (j % 64)) &&& 1 =
      if blockBit src j then 1 else 0 := by
    rw [← UInt64.toNat_inj, UInt64.toNat_and, UInt64.toNat_shiftRight, hshift, UInt64.toNat_one,
      Nat.and_one_is_mod, blockBit, Nat.testBit, Nat.one_and_eq_mod_two]
    rcases Nat.mod_two_eq_zero_or_one ((src.getD (j / 64) 0).toNat >>> (j % 64)) with h | h <;>
      rw [h] <;> rfl
  rw [wordBit, hbit]
  split_ifs <;> rfl

theorem getD_expandAndSum (src : List UInt64) {j : Nat} (hj : j < 128) :
    (expandAndSum src).getD j 0 = UInt16.ofInt (bitCount src j) := by
  have hword : ∀ copy, wordBit src (2 * copy + j / 64) (j % 64) =
      UInt16.ofInt (if blockBit src (128 * copy + j) then 1 else 0) := by
    intro copy
    have hd : (128 * copy + j) / 64 = 2 * copy + j / 64 := by omega
    have hm : (128 * copy + j) % 64 = j % 64 := by omega
    rw [← wordBit_eq, hd, hm]
  have hcopies : List.range' 1 (multiplicity - 1) = [1, 2] := rfl
  have hfirst : ((List.range 128).map (fun i ↦ wordBit src (i / 64) (i % 64))).getD j 0 =
      wordBit src (j / 64) (j % 64) := by
    rw [List.getD_eq_getElem?_getD, List.getElem?_map, List.getElem?_range hj]
    rfl
  have h0 := hword 0
  rw [Nat.mul_zero, Nat.zero_add] at h0
  have hlen : j < ((List.range 128).map (fun i ↦ wordBit src (i / 64) (i % 64))).length := by
    rwa [List.length_map, List.length_range]
  rw [expandAndSum, hcopies, List.foldl_cons, List.foldl_cons, List.foldl_nil,
    getD_mapIdx (by rwa [List.length_mapIdx]), getD_mapIdx hlen, hfirst, h0, hword 1, hword 2,
    ← UInt16.ofInt_add, ← UInt16.ofInt_add, bitCount, Finset.sum_range_succ,
    Finset.sum_range_succ, Finset.sum_range_one]

theorem getD_hadamardPass (l : List UInt16) {i : Nat} (hi : i < 128) :
    (hadamardPass l).getD i 0 = if i < 64 then l.getD (2 * i) 0 + l.getD (2 * i + 1) 0
      else l.getD (2 * (i - 64)) 0 - l.getD (2 * (i - 64) + 1) 0 := by
  have hget : ∀ (f : Nat → UInt16) {k : Nat}, k < 64 → ((List.range 64).map f).getD k 0 = f k := by
    intro f k hk
    rw [List.getD_eq_getElem?_getD, List.getElem?_map, List.getElem?_range hk]
    rfl
  rw [hadamardPass]
  split_ifs with h
  · rw [List.getD_append _ _ _ _ (by simpa using h), hget _ h]
  · rw [List.getD_append_right _ _ _ _ (by simpa using h), List.length_map, List.length_range,
      hget _ (by omega)]

theorem ofInt_sub (a b : ℤ) : UInt16.ofInt (a - b) = UInt16.ofInt a - UInt16.ofInt b := by
  rw [Int.sub_eq_add_neg, UInt16.ofInt_add, UInt16.ofInt_neg, UInt16.sub_eq_add_neg]

theorem getD_hadamard {l : List UInt16} {f : Nat → ℤ}
    (h : ∀ j < 128, l.getD j 0 = UInt16.ofInt (f j)) {k : Nat} (hk : k < 128) :
    (hadamard l).getD k 0 = UInt16.ofInt (transform 7 f k) := by
  have hpass : ∀ p, ∀ j < 128, (hadamardPass^[p] l).getD j 0 =
      UInt16.ofInt ((WalshHadamard.pass 64)^[p] f j) := by
    intro p
    induction p with
    | zero => exact h
    | succ p ih =>
      intro j hj
      rw [Function.iterate_succ_apply', Function.iterate_succ_apply', getD_hadamardPass _ hj,
        WalshHadamard.pass]
      split_ifs
      · rw [ih _ (by omega), ih _ (by omega), UInt16.ofInt_add]
      · rw [ih _ (by omega), ih _ (by omega), ofInt_sub]
  rw [← iterate_pass_eq_transform f 7 hk]
  exact hpass 7 k hk

/-- The number of bits in which a block differs from a codeword. -/
def rmDistance (src : List UInt64) (m : Nat) : Nat :=
  ((Finset.range 384).filter (fun j ↦ blockBit src j ≠ rmBit m (j % 128))).card

def peakValue (src : List UInt64) (k : Nat) : ℤ :=
  transform 7 (bitCount src) k - if k = 0 then 192 else 0

theorem rmDistance_sum (src : List UInt64) (m : Nat) : (rmDistance src m : ℤ) =
    ∑ j ∈ Finset.range 128, ∑ copy ∈ Finset.range 3,
      if blockBit src (128 * copy + j) ≠ rmBit m j then 1 else 0 := by
  let F : Nat → ℤ := fun j ↦ if blockBit src j ≠ rmBit m (j % 128) then 1 else 0
  have hcopy : ∀ copy, ∀ j ∈ Finset.range 128, F (128 * copy + j) =
      if blockBit src (128 * copy + j) ≠ rmBit m j then 1 else 0 := by
    intro copy j hj
    have hj := Finset.mem_range.mp hj
    have hm : (128 * copy + j) % 128 = j := by omega
    dsimp only [F]
    rw [hm]
  have hsum : ∑ j ∈ Finset.range (128 + 128 + 128), F j = ∑ copy ∈ Finset.range 3,
      ∑ j ∈ Finset.range 128, F (128 * copy + j) := by
    have h3 : ∀ g : Nat → ℤ, ∑ copy ∈ Finset.range 3, g copy = g 0 + g 1 + g 2 := fun g ↦ by
      rw [Finset.sum_range_succ, Finset.sum_range_succ, Finset.sum_range_one]
    rw [Finset.sum_range_add, Finset.sum_range_add, h3]
    simp only [Nat.mul_zero, Nat.zero_add, Nat.mul_one, Nat.reduceMul, Nat.reduceAdd]
  rw [rmDistance, Finset.card_filter, Nat.cast_sum, Finset.sum_comm]
  simp only [Nat.cast_ite, Nat.cast_one, Nat.cast_zero]
  refine hsum.trans (Finset.sum_congr rfl fun copy _ ↦ ?_)
  exact Finset.sum_congr rfl (hcopy copy)

theorem rmDistance_eq (src : List UInt64) {k : Nat} (hk : k < 128) :
    (rmDistance src k : ℤ) = 192 + peakValue src k := by
  have htop : k.testBit 7 = false := Nat.testBit_lt_two_pow hk
  have hterm : ∀ j ∈ Finset.range 128, (∑ copy ∈ Finset.range 3,
      if blockBit src (128 * copy + j) ≠ rmBit k j then (1 : ℤ) else 0) * 2 =
        sign 7 k j * bitCount src j * 2 + (3 - 3 * sign 7 k j) := by
    intro j _
    rw [rmBit, htop, Bool.xor_false, sign_eq, bitCount]
    simp only [Finset.sum_range_succ, Finset.sum_range_zero]
    cases parity 7 k j <;> cases blockBit src (128 * 0 + j) <;>
      cases blockBit src (128 * 1 + j) <;> cases blockBit src (128 * 2 + j) <;> rfl
  have hsum : (rmDistance src k : ℤ) * 2 = transform 7 (bitCount src) k * 2 +
      (384 - 3 * ∑ j ∈ Finset.range (2 ^ 7), sign 7 k j) := by
    rw [rmDistance_sum, Finset.sum_mul, Finset.sum_congr rfl hterm, Finset.sum_add_distrib,
      Finset.sum_sub_distrib, Finset.sum_const, Finset.card_range, ← Finset.mul_sum, transform,
      Finset.sum_mul]
    norm_num
  rw [peakValue]
  split_ifs with h
  · have h128 : ∑ j ∈ Finset.range (2 ^ 7), sign 7 k j = 128 := by
      rw [h, Finset.sum_congr rfl fun j _ ↦ sign_zero 7 j, Finset.sum_const, Finset.card_range]
      norm_num
    rw [h128] at hsum
    linarith only [hsum]
  · rw [sum_sign hk h] at hsum
    linarith only [hsum]

theorem rmDistance_add (src : List UInt64) {k : Nat} (hk : k < 128) :
    (rmDistance src (k + 128) : ℤ) = 192 - peakValue src k := by
  have hbit : ∀ j, rmBit (k + 128) j = !rmBit k j := by
    intro j
    have hlow : parity 7 (k + 128) j = parity 7 k j := by
      refine parity_congr (fun i hi ↦ ?_) fun _ _ ↦ rfl
      have h := Nat.testBit_two_pow_mul_add 1 (i := 7) hk i
      rwa [if_pos hi, Nat.mul_one, Nat.add_comm] at h
    have htop : (k + 128).testBit 7 = true := by
      have h := Nat.testBit_two_pow_mul_add 1 (i := 7) hk 7
      rwa [if_neg (Nat.lt_irrefl 7), Nat.mul_one, Nat.add_comm] at h
    rw [rmBit, rmBit, hlow, htop, Nat.testBit_lt_two_pow hk]
    simp
  have hcompl : rmDistance src (k + 128) + rmDistance src k = 384 := by
    have hfilter : (Finset.range 384).filter (fun j ↦ blockBit src j ≠ rmBit (k + 128) (j % 128)) =
        (Finset.range 384).filter (fun j ↦ ¬blockBit src j ≠ rmBit k (j % 128)) := by
      refine Finset.filter_congr fun j _ ↦ ?_
      rw [hbit]
      cases blockBit src j <;> cases rmBit k (j % 128) <;> decide
    rw [rmDistance, hfilter, rmDistance, Nat.add_comm, Finset.card_filter_add_card_filter_not,
      Finset.card_range]
  have h := rmDistance_eq src hk
  have hcast : (rmDistance src (k + 128) : ℤ) + rmDistance src k = 384 := by exact_mod_cast hcompl
  linarith only [h, hcast]

theorem ofInt_ofNat (m : Nat) : UInt16.ofInt (m : ℤ) = UInt16.ofNat m := by
  rw [← UInt16.toNat_inj, UInt16.toNat_ofNat', UInt16.ofInt, UInt16.toNat_ofNat']
  omega

theorem ofInt_of_nonneg {n : ℤ} (h : 0 ≤ n) : UInt16.ofInt n = UInt16.ofNat n.natAbs := by
  rw [← ofInt_ofNat, Int.natAbs_of_nonneg h]

theorem ofInt_of_neg {n : ℤ} (h : n < 0) : UInt16.ofInt n = 0 - UInt16.ofNat n.natAbs := by
  rw [← ofInt_ofNat, UInt16.zero_sub, ← UInt16.ofInt_neg, Int.ofNat_natAbs_of_nonpos h.le,
    Int.neg_neg]

theorem small_words : ∀ k < 193, UInt16.ofNat k >>> 15 = 0 ∧
    (k ≠ 0 → ((0 : UInt16) - UInt16.ofNat k) >>> 15 = 1) ∧
    (0 : UInt16) - ((0 : UInt16) - UInt16.ofNat k) = UInt16.ofNat k := by
  decide +kernel

theorem shiftRight_ofInt {n : ℤ} (h : n.natAbs ≤ 192) :
    UInt16.ofInt n >>> 15 = if 0 ≤ n then 0 else 1 := by
  obtain ⟨hpos, hneg, -⟩ := small_words n.natAbs (by omega)
  split_ifs with h0
  · rw [ofInt_of_nonneg h0, hpos]
  · rw [ofInt_of_neg (Int.lt_of_not_ge h0), hneg (by omega)]

theorem abs_ofInt {n : ℤ} (h : n.natAbs ≤ 192) :
    UInt16.ofInt n ^^^ (((0 : UInt16) - (UInt16.ofInt n >>> 15)) &&&
      (UInt16.ofInt n ^^^ ((0 : UInt16) - UInt16.ofInt n))) = UInt16.ofNat n.natAbs := by
  rw [shiftRight_ofInt h]
  split_ifs with h0
  · have hz : (0 : UInt16) - 0 = 0 := rfl
    rw [hz, UInt16.zero_and, UInt16.xor_zero, ofInt_of_nonneg h0]
  · have hf : (0 : UInt16) - 1 = 0xFFFF := rfl
    rw [hf, full_and, ← UInt16.xor_assoc, UInt16.xor_self, UInt16.zero_xor,
      ofInt_of_neg (Int.lt_of_not_ge h0)]
    exact (small_words n.natAbs (by omega)).2.2

structure Peak.Of (τ : Nat → ℤ) (n : Nat) (s : Peak) (p : Nat) (v : ℤ) : Prop where
  fields : s = ⟨UInt16.ofNat v.natAbs, UInt16.ofInt v, UInt16.ofNat p⟩
  place : p < n ∧ v = τ p ∨ p = 0 ∧ v = 0
  le : ∀ k < n, (τ k).natAbs ≤ v.natAbs
  bound : v.natAbs ≤ 192

theorem Peak.of_next {τ : Nat → ℤ} {n : Nat} {s : Peak} {p : Nat} {v : ℤ} (h : Peak.Of τ n s p v)
    (hn : (τ n).natAbs ≤ 192) :
    ∃ p' v', Peak.Of τ (n + 1) (s.next (UInt16.ofInt (τ n)) n) p' v' := by
  have hnext : s.next (UInt16.ofInt (τ n)) n =
      if v.natAbs < (τ n).natAbs then
        ⟨UInt16.ofNat (τ n).natAbs, UInt16.ofInt (τ n), UInt16.ofNat n⟩ else s := by
    have hword : ∀ a ≤ 192, (UInt16.ofNat a).toNat = a := fun a ha ↦ by
      rw [UInt16.toNat_ofNat']
      omega
    have hv := hword _ h.bound
    have ht := hword _ hn
    rw [h.fields, Peak.next, abs_ofInt hn]
    dsimp only
    rw [mask_of_lt (hv.trans_lt (h.bound.trans_lt (by decide)))
      (ht.trans_lt (hn.trans_lt (by decide))), hv, ht]
    simp only [UInt16.xor_comm (UInt16.ofNat v.natAbs) (UInt16.ofNat (τ n).natAbs),
      UInt16.xor_comm (UInt16.ofInt v) (UInt16.ofInt (τ n)),
      UInt16.xor_comm (UInt16.ofNat p) (UInt16.ofNat n), xor_maskOf]
    split_ifs <;> rfl
  rw [hnext]
  split_ifs with hlt
  · refine ⟨n, τ n, ⟨rfl, .inl ⟨Nat.lt_succ_self n, rfl⟩, fun k hk ↦ ?_, hn⟩⟩
    rcases Nat.lt_succ_iff_lt_or_eq.mp hk with hk | rfl
    · exact (h.le k hk).trans hlt.le
    · exact le_rfl
  · refine ⟨p, v, ⟨h.fields, ?_, fun k hk ↦ ?_, h.bound⟩⟩
    · exact h.place.imp_left fun hp ↦ ⟨hp.1.trans (Nat.lt_succ_self n), hp.2⟩
    · rcases Nat.lt_succ_iff_lt_or_eq.mp hk with hk | rfl
      · exact h.le k hk
      · exact Nat.le_of_not_lt hlt

theorem Peak.of_foldl {τ : Nat → ℤ} {t : List UInt16}
    (ht : ∀ k < 128, t.getD k 0 = UInt16.ofInt (τ k)) (hτ : ∀ k < 128, (τ k).natAbs ≤ 192) :
    ∀ n ≤ 128, ∃ p v, Peak.Of τ n
      ((List.range n).foldl (fun s i ↦ Peak.next s (t.getD i 0) i) ⟨0, 0, 0⟩) p v := by
  intro n
  induction n with
  | zero => exact fun _ ↦ ⟨0, 0, ⟨rfl, .inr ⟨rfl, rfl⟩, fun _ hk ↦ absurd hk (by omega), by decide⟩⟩
  | succ n ih =>
    intro hn
    obtain ⟨p, v, h⟩ := ih (by omega)
    rw [List.range_succ, List.foldl_append, List.foldl_cons, List.foldl_nil, ht n hn]
    exact Peak.of_next h (hτ n hn)

theorem findPeaks_eq {τ : Nat → ℤ} {t : List UInt16}
    (ht : ∀ k < 128, t.getD k 0 = UInt16.ofInt (τ k)) (hτ : ∀ k < 128, (τ k).natAbs ≤ 192) :
    ∃ p v, (findPeaks t).toNat = (if 0 ≤ v then p + 128 else p) ∧ p < 128 ∧ v = τ p ∧
      ∀ k < 128, (τ k).natAbs ≤ v.natAbs := by
  obtain ⟨p, v, h⟩ := Peak.of_foldl ht hτ 128 le_rfl
  have hp : p < 128 ∧ v = τ p := by
    rcases h.place with hp | ⟨rfl, rfl⟩
    · exact hp
    · exact ⟨by decide, (Int.natAbs_eq_zero.mp (Nat.le_zero.mp (h.le 0 (by decide)))).symm⟩
  have hpos : ∀ p < 128, (UInt16.ofNat p ||| ((128 : UInt16) &&& (0 - 1))).toUInt8.toNat =
      p + 128 := by
    decide
  have hneg : ∀ p < 128, (UInt16.ofNat p ||| ((128 : UInt16) &&& (1 - 1))).toUInt8.toNat = p := by
    decide
  refine ⟨p, v, ?_, hp.1, hp.2, h.le⟩
  rw [findPeaks, h.fields, shiftRight_ofInt h.bound]
  split_ifs
  · exact hpos p hp.1
  · exact hneg p hp.1

theorem peakValue_natAbs_le (src : List UInt64) {k : Nat} (hk : k < 128) :
    (peakValue src k).natAbs ≤ 192 := by
  have hcard : rmDistance src k ≤ 384 :=
    (Finset.card_filter_le _ _).trans_eq (Finset.card_range 384)
  have h := rmDistance_eq src hk
  omega

theorem getD_peakValue (src : List UInt64) {k : Nat} (hk : k < 128) :
    ((hadamard (expandAndSum src)).set 0
      ((hadamard (expandAndSum src)).getD 0 0 - UInt16.ofNat (64 * multiplicity))).getD k 0 =
        UInt16.ofInt (peakValue src k) := by
  have ht := fun k hk ↦
    getD_hadamard (fun j hj ↦ getD_expandAndSum src hj) (k := k) hk
  have hmult : UInt16.ofNat (64 * multiplicity) = UInt16.ofInt 192 := rfl
  have hlen : 0 < (hadamard (expandAndSum src)).length := by
    rw [hadamard, Function.iterate_succ_apply', hadamardPass, List.length_append, List.length_map,
      List.length_map, List.length_range]
    decide
  rw [peakValue, List.getD_eq_getElem?_getD, List.getElem?_set]
  by_cases h0 : k = 0
  · rw [if_pos h0.symm, if_pos hlen, h0, if_pos rfl, ht 0 (by decide), ofInt_sub, hmult]
    rfl
  · rw [if_neg (Ne.symm h0), if_neg h0, Int.sub_zero, ← List.getD_eq_getElem?_getD, ht k hk]

/-- The decoder gives a nearest codeword. -/
theorem rmDistance_rmDecodeBlock_le (src : List UInt64) {m : Nat} (hm : m < 256) :
    rmDistance src (rmDecodeBlock src).toNat ≤ rmDistance src m := by
  obtain ⟨p, v, hdec, hp, hv, hle⟩ := findPeaks_eq (fun k hk ↦ getD_peakValue src hk)
    fun k hk ↦ peakValue_natAbs_le src hk
  have hnear : (rmDistance src (rmDecodeBlock src).toNat : ℤ) = 192 - (v.natAbs : ℤ) := by
    have hlow := rmDistance_eq src hp
    have hhigh := rmDistance_add src hp
    rw [rmDecodeBlock, hdec]
    split_ifs <;> omega
  by_cases hhalf : m < 128
  · have h := rmDistance_eq src hhalf
    have hpeak := hle m hhalf
    omega
  · have h := rmDistance_add src (k := m - 128) (by omega)
    have hpeak := hle (m - 128) (by omega)
    rw [Nat.sub_add_cancel (by omega)] at h
    omega

theorem rmDecodeBlock_eq_of_lt {src : List UInt64} {m : UInt8}
    (h : ∀ m' < 256, m' ≠ m.toNat → rmDistance src m.toNat < rmDistance src m') :
    rmDecodeBlock src = m := by
  by_contra hne
  have hlt := h _ (rmDecodeBlock src).toNat_lt fun heq ↦ hne (UInt8.toNat_inj.mp heq)
  exact absurd (rmDistance_rmDecodeBlock_le src m.toNat_lt) (Nat.not_le_of_gt hlt)

theorem rmBit_xor (m m' j : Nat) : (rmBit m j ^^ rmBit m' j) = rmBit (m ^^^ m') j := by
  rw [rmBit, rmBit, rmBit, parity_xor, Nat.testBit_xor]
  cases parity 7 m j <;> cases parity 7 m' j <;> cases m.testBit 7 <;> cases m'.testBit 7 <;> rfl

theorem rmDistance_nil_ge {d : Nat} (hd : d < 256) (h0 : d ≠ 0) : 192 ≤ rmDistance [] d := by
  have hpeak : ∀ k, peakValue [] k = -if k = 0 then 192 else 0 := by
    intro k
    have hcount : ∀ j, bitCount [] j = 0 := fun j ↦ Finset.sum_eq_zero fun _ _ ↦ by
      rw [blockBit, List.getD_nil, UInt64.toNat_zero, Nat.zero_testBit, if_neg Bool.false_ne_true]
    rw [peakValue, transform, Finset.sum_eq_zero fun j _ ↦ by rw [hcount, mul_zero], zero_sub]
  by_cases hhalf : d < 128
  · have h := rmDistance_eq [] hhalf
    rw [hpeak, if_neg h0] at h
    omega
  · have h := rmDistance_add [] (k := d - 128) (by omega)
    rw [hpeak, Nat.sub_add_cancel (by omega)] at h
    split_ifs at h <;> omega

/-- No block is near two codewords. -/
theorem rmDistance_add_ge (src : List UInt64) {m m' : Nat} (hm : m < 256) (hm' : m' < 256)
    (hne : m ≠ m') : 192 ≤ rmDistance src m + rmDistance src m' := by
  have hd : m ^^^ m' < 256 := Nat.xor_lt_two_pow (n := 8) hm hm'
  have h0 : m ^^^ m' ≠ 0 := fun h ↦ hne (Nat.xor_eq_zero_iff.mp h)
  refine (rmDistance_nil_ge hd h0).trans ((Finset.card_le_card fun j hj ↦ ?_).trans
    (Finset.card_union_le _ _))
  rw [Finset.mem_union, Finset.mem_filter, Finset.mem_filter]
  rw [Finset.mem_filter, ← rmBit_xor] at hj
  have hnil : blockBit [] j = false := by
    rw [blockBit, List.getD_nil, UInt64.toNat_zero, Nat.zero_testBit]
  rw [hnil] at hj
  by_cases h : blockBit src j = rmBit m (j % 128)
  · refine .inr ⟨hj.1, fun h' ↦ hj.2 ?_⟩
    rw [← h, ← h', Bool.xor_self]
  · exact .inl ⟨hj.1, h⟩

theorem rmDecodeBlock_eq_of_lt_96 {src : List UInt64} {m : UInt8}
    (h : rmDistance src m.toNat < 96) : rmDecodeBlock src = m := by
  refine rmDecodeBlock_eq_of_lt fun m' hm' hne ↦ ?_
  have hsum := rmDistance_add_ge src m.toNat_lt hm' (Ne.symm hne)
  omega

theorem rmDistance_rmEncodeBlock (m : UInt8) : rmDistance (rmEncodeBlock m) m.toNat = 0 := by
  refine Finset.card_eq_zero.mpr (Finset.filter_eq_empty_iff.mpr fun j hj ↦ ?_)
  exact not_not.mpr (blockBit_rmEncodeBlock m (Finset.mem_range.mp hj))

/-- No codeword is nearer to a block than that of the byte decoded. -/
theorem reedMuller_nearest (src : List UInt64) (m : UInt8) :
    rmDistance src (rmDecodeBlock src).toNat ≤ rmDistance src m.toNat :=
  rmDistance_rmDecodeBlock_le src m.toNat_lt

end KemtlsMavlink.Hqc
