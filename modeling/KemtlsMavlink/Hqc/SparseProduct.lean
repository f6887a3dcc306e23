import KemtlsMavlink.Hqc.Bits

namespace KemtlsMavlink.Hqc

open Library

def innerBit (u : List UInt64) (k : Nat) : Bool := decide (k < 17669) && blockBit u k

/-- A place, with the bits of its word in the opposite order. -/
def flip (k : Nat) : Nat := 64 * (k / 64) + (63 - k % 64)

theorem flip_flip (k : Nat) : flip (flip k) = k := by
  unfold flip
  omega

theorem flip_lt {k : Nat} (hk : k < 17728) : flip k < 17728 := by
  unfold flip
  omega

/-- The place that a window takes a bit from: the words are passed from the highest bit on. -/
def windowPlace (r k : Nat) : Nat := flip ((flip k + r % 17669) % 17728)

theorem length_maskTop (a : List UInt64) : (maskTop a).length = a.length := List.length_modify _ _ _

theorem blockBit_maskTop {a : List UInt64} (ha : a.length = 277) {k : Nat} (hk : k < 17728) :
    blockBit (maskTop a) k = innerBit a k := by
  have htop : vecNSize64 - 1 = 276 := rfl
  have hmask : redMask.toNat = 2 ^ 5 - 1 := rfl
  rw [maskTop, htop, blockBit_modify (by omega), innerBit]
  split_ifs with h
  · have hsame : k % 64 < 5 ↔ k < 17669 := by omega
    rw [UInt64.toNat_and, Nat.testBit_and, hmask, Nat.testBit_two_pow_sub_one, Bool.and_comm,
      decide_eq_decide.mpr hsame, blockBit]
  · rw [decide_eq_true (show k < 17669 by omega), Bool.true_and]

theorem getD_twice {once : List UInt64} (ho : once.length = 277) {i : Nat} (hi : i < 554) :
    (once ++ once ++ [once.getD 0 0]).getD i 0 = once.getD (i % 277) 0 := by
  have hlen : (once ++ once).length = 554 := by rw [List.length_append, ho]
  rw [List.getD_append _ _ _ _ (by omega)]
  by_cases h : i < 277
  · rw [List.getD_append _ _ _ _ (by omega), Nat.mod_eq_of_lt h]
  · have hmod : i % 277 = i - 277 := by omega
    rw [List.getD_append_right _ _ _ _ (by omega), ho, hmod]

theorem length_rotlExtractWindow (u : List UInt64) (r : Nat) :
    (rotlExtractWindow u r).length = 277 := by
  rw [rotlExtractWindow, length_maskTop, List.length_map, List.length_range]
  rfl

theorem blockBit_rotlExtractWindow {u : List UInt64} (hu : u.length = 277) (r : Nat) {k : Nat}
    (hk : k < 17728) : blockBit (rotlExtractWindow u r) k =
      (decide (k < 17669) && innerBit u (windowPlace r k)) := by
  have hn : vecNSize64 = 277 := rfl
  have hr : r % 17669 < 17669 := Nat.mod_lt _ (by decide)
  have hrN : r % paramN = r % 17669 := rfl
  have hs : r % 17669 &&& 63 = r % 17669 % 64 := Nat.and_two_pow_sub_one_eq_mod _ 6
  have hw : (r % 17669) >>> 6 = r % 17669 / 64 := Nat.shiftRight_eq_div_pow _ 6
  generalize hq : r % 17669 = q at hr hs hw hrN
  let once := maskTop (u.take 277)
  have htake : u.take 277 = u := List.take_of_length_le hu.le
  have honce : once.length = 277 := by rw [length_maskTop, htake, hu]
  have hbit : ∀ i < 554, ∀ b < 64, ((once ++ once ++ [once.getD 0 0]).getD i 0).toNat.testBit b =
      innerBit u (64 * (i % 277) + b) := by
    intro i hi b hb
    have hd : (64 * (i % 277) + b) / 64 = i % 277 := by omega
    have hm : (64 * (i % 277) + b) % 64 = b := by omega
    have hplace : 64 * (i % 277) + b < 17728 := by omega
    rw [getD_twice honce hi, ← blockBit_maskTop hu hplace, blockBit, hd, hm, ← htake]
  rw [rotlExtractWindow, hrN, hs, hw, hn,
    blockBit_maskTop (by rw [List.length_map, List.length_range]) hk, innerBit]
  congr 1
  have hget : ∀ f : Nat → UInt64, blockBit ((List.range 277).map f) k =
      (f (k / 64)).toNat.testBit (k % 64) := by
    intro f
    rw [blockBit, List.getD_eq_getElem?_getD, List.getElem?_map,
      List.getElem?_range (show k / 64 < 277 by omega), Option.map_some, Option.getD_some]
  have hlast : k % 64 < 64 := Nat.mod_lt _ (by decide)
  rw [hget]
  change (if q % 64 = 0 then (once ++ once ++ [once.getD 0 0]).getD (q / 64 + k / 64) 0 else
    ((once ++ once ++ [once.getD 0 0]).getD (q / 64 + k / 64) 0 <<< UInt64.ofNat (q % 64)) |||
      ((once ++ once ++ [once.getD 0 0]).getD (q / 64 + k / 64 + 1) 0 >>>
        UInt64.ofNat (64 - q % 64))).toNat.testBit (k % 64) = _
  split_ifs with h0
  · rw [hbit _ (by omega) _ hlast, windowPlace, hq]
    congr 1
    unfold flip
    omega
  · rw [UInt64.toNat_or, Nat.testBit_or, testBit_shiftLeft64 _ (by omega) hlast,
      testBit_shiftRight64 _ (by omega)]
    by_cases hle : q % 64 ≤ k % 64
    · rw [decide_eq_true hle, Bool.true_and,
        testBit_ge_64 _ (show 64 ≤ 64 - q % 64 + k % 64 by omega), Bool.or_false,
        hbit _ (by omega) _ (by omega), windowPlace, hq]
      congr 1
      unfold flip
      omega
    · rw [decide_eq_false hle, Bool.false_and, Bool.false_or, hbit _ (by omega) _ (by omega),
        windowPlace, hq]
      congr 1
      unfold flip
      omega

/-- A bit of the product: the sum of the bits that the windows take. -/
def productBit (u : List UInt64) (idx : List UInt16) (k : Nat) : Bool :=
  xorSum idx (fun r ↦ innerBit u (windowPlace r.toNat k))

theorem productBit_concat (u : List UInt64) (idx : List UInt16) (r : UInt16) (k : Nat) :
    productBit u (idx ++ [r]) k = (productBit u idx k ^^ innerBit u (windowPlace r.toNat k)) :=
  xorSum_concat ..

theorem length_gf2xMulDenseSparse (u : List UInt64) (idx : List UInt16) :
    (gf2xMulDenseSparse u idx).length = 277 := by
  rw [gf2xMulDenseSparse, length_maskTop]
  induction idx using List.reverseRecOn with
  | nil => exact List.length_replicate
  | append_singleton idx r ih =>
    rw [List.foldl_concat, vectAdd, List.length_zipWith, ih, length_rotlExtractWindow, Nat.min_self]

theorem blockBit_gf2xMulDenseSparse {u : List UInt64} (hu : u.length = 277) (idx : List UInt16)
    {k : Nat} (hk : k < 17728) : blockBit (gf2xMulDenseSparse u idx) k =
      (decide (k < 17669) && productBit u idx k) := by
  have hsum : ∀ idx : List UInt16,
      (idx.foldl (fun o r ↦ vectAdd o (rotlExtractWindow u r.toNat))
        (List.replicate vecNSize64 0)).length = 277 ∧
      blockBit (idx.foldl (fun o r ↦ vectAdd o (rotlExtractWindow u r.toNat))
        (List.replicate vecNSize64 0)) k = (decide (k < 17669) && productBit u idx k) := by
    intro idx
    induction idx using List.reverseRecOn with
    | nil =>
      refine ⟨List.length_replicate, (blockBit_replicate_zero _ _).trans ?_⟩
      exact (Bool.and_false _).symm
    | append_singleton idx r ih =>
      have hwin := length_rotlExtractWindow u r.toNat
      rw [List.foldl_concat]
      refine ⟨?_, ?_⟩
      · rw [vectAdd, List.length_zipWith, ih.1, hwin, Nat.min_self]
      · rw [blockBit_vectAdd (by omega) (by omega), ih.2, blockBit_rotlExtractWindow hu _ hk,
          productBit_concat, Bool.and_xor_distrib_left]
  rw [gf2xMulDenseSparse, blockBit_maskTop (hsum idx).1 hk, innerBit, (hsum idx).2,
    ← Bool.and_assoc, Bool.and_self]

theorem windowPlace_lt (r k : Nat) : windowPlace r k < 17728 := flip_lt (Nat.mod_lt _ (by decide))

theorem windowPlace_comm (r s k : Nat) :
    windowPlace r (windowPlace s k) = windowPlace s (windowPlace r k) := by
  rw [windowPlace, windowPlace, windowPlace, windowPlace, flip_flip, flip_flip, Nat.mod_add_mod,
    Nat.mod_add_mod, Nat.add_right_comm]

theorem windowPlace_inj {r k k' : Nat} (hk : k < 17728) (hk' : k' < 17728)
    (h : windowPlace r k = windowPlace r k') : k = k' := by
  have hlt := flip_lt hk
  have hlt' := flip_lt hk'
  have hsum := congrArg flip h
  rw [windowPlace, windowPlace, flip_flip, flip_flip] at hsum
  rw [← flip_flip k, ← flip_flip k']
  congr 1
  omega

/-- The places of a window that lie beyond the vector. -/
def beyond (r : UInt16) : Finset Nat :=
  (Finset.range 17728).filter (fun k ↦ 17669 ≤ windowPlace r.toNat k)

theorem card_beyond_le (r : UInt16) : (beyond r).card ≤ 59 := by
  refine (Finset.card_le_card_of_injOn (t := Finset.Ico 17669 17728) (windowPlace r.toNat)
    (fun k hk ↦ ?_) fun k hk k' hk' h ↦ ?_).trans
      ((Nat.card_Ico _ _).trans_le (by decide))
  · exact Finset.mem_coe.mpr (Finset.mem_Ico.mpr
      ⟨(Finset.mem_filter.mp hk).2, windowPlace_lt r.toNat k⟩)
  · exact windowPlace_inj (Finset.mem_range.mp (Finset.mem_filter.mp hk).1)
      (Finset.mem_range.mp (Finset.mem_filter.mp hk').1) h

/-- The places that some window reads from beyond the vector. -/
def beyondAll (idx : List UInt16) : Finset Nat := idx.toFinset.biUnion beyond

theorem card_beyondAll_le (idx : List UInt16) : (beyondAll idx).card ≤ 59 * idx.length :=
  calc (beyondAll idx).card ≤ idx.toFinset.card * 59 :=
      Finset.card_biUnion_le_card_mul _ _ _ fun r _ ↦ card_beyond_le r
    _ ≤ idx.length * 59 := Nat.mul_le_mul_right 59 idx.toFinset_card_le
    _ = 59 * idx.length := Nat.mul_comm _ _

theorem windowPlace_lt_of_notMem {idx : List UInt16} {k : Nat} (hk : k < 17728)
    (h : k ∉ beyondAll idx) {r : UInt16} (hr : r ∈ idx) : windowPlace r.toNat k < 17669 := by
  by_contra hge
  exact h (Finset.mem_biUnion.mpr ⟨r, List.mem_toFinset.mpr hr,
    Finset.mem_filter.mpr ⟨Finset.mem_range.mpr hk, not_lt.mp hge⟩⟩)

/-- Where no window reads beyond the vector, two products commute. -/
theorem productBit_comm {u : List UInt64} (hu : u.length = 277) {a b : List UInt16} {k : Nat}
    (hk : k < 17728) (h : k ∉ beyondAll (a ++ b)) :
    productBit (gf2xMulDenseSparse u a) b k = productBit (gf2xMulDenseSparse u b) a k := by
  have htwo {a b : List UInt16} (hb : ∀ r ∈ b, windowPlace r.toNat k < 17669) :
      productBit (gf2xMulDenseSparse u a) b k =
        xorSum b (fun r ↦ productBit u a (windowPlace r.toNat k)) := by
    refine xorSum_congr fun r hr ↦ ?_
    rw [innerBit, blockBit_gf2xMulDenseSparse hu a (windowPlace_lt _ _), decide_eq_true (hb r hr),
      Bool.true_and, Bool.true_and]
  rw [htwo fun r hr ↦ windowPlace_lt_of_notMem hk h (List.mem_append_right a hr),
    htwo fun r hr ↦ windowPlace_lt_of_notMem hk h (List.mem_append_left b hr)]
  refine (xorSum_comm b a _).trans (xorSum_congr fun s _ ↦ xorSum_congr fun r _ ↦ ?_)
  rw [windowPlace_comm]

/-- Two products commute at every place whose windows all lie inside the vector, which are all but a
few places. -/
theorem gf2xMulDenseSparse_comm (u : List UInt64) (hu : u.length = 277) (a b : List UInt16) :
    (∀ k < 17728, k ∉ beyondAll (a ++ b) →
      blockBit (gf2xMulDenseSparse (gf2xMulDenseSparse u a) b) k =
        blockBit (gf2xMulDenseSparse (gf2xMulDenseSparse u b) a) k) ∧
    ((Finset.range 17728).filter (fun k ↦
      blockBit (gf2xMulDenseSparse (gf2xMulDenseSparse u a) b) k ≠
        blockBit (gf2xMulDenseSparse (gf2xMulDenseSparse u b) a) k)).card ≤
      59 * (a.length + b.length) := by
  have hinside : ∀ k < 17728, k ∉ beyondAll (a ++ b) →
      blockBit (gf2xMulDenseSparse (gf2xMulDenseSparse u a) b) k =
        blockBit (gf2xMulDenseSparse (gf2xMulDenseSparse u b) a) k := by
    intro k hk hin
    rw [blockBit_gf2xMulDenseSparse (length_gf2xMulDenseSparse u a) b hk,
      blockBit_gf2xMulDenseSparse (length_gf2xMulDenseSparse u b) a hk, productBit_comm hu hk hin]
  refine ⟨hinside, ?_⟩
  rw [← List.length_append]
  refine (Finset.card_le_card fun k hk ↦ ?_).trans (card_beyondAll_le (a ++ b))
  obtain ⟨hlt, hne⟩ := Finset.mem_filter.mp hk
  by_contra hout
  exact hne (hinside k (Finset.mem_range.mp hlt) hout)

theorem gf2xMulDenseSparse_comm_one :
    blockBit (gf2xMulDenseSparse (gf2xMulDenseSparse (onesAt [5]) [3]) [64]) 200 =
      blockBit (gf2xMulDenseSparse (gf2xMulDenseSparse (onesAt [5]) [64]) [3]) 200 ∧
    ((Finset.range 17728).filter (fun k ↦
      blockBit (gf2xMulDenseSparse (gf2xMulDenseSparse (onesAt [5]) [3]) [64]) k ≠
        blockBit (gf2xMulDenseSparse (gf2xMulDenseSparse (onesAt [5]) [64]) [3]) k)).card ≤
      59 * ([3].length + [64].length) := by
  obtain ⟨hinside, hcard⟩ := gf2xMulDenseSparse_comm (onesAt [5]) (length_onesAt [5]) [3] [64]
  refine ⟨hinside 200 (by decide) fun hk ↦ ?_, hcard⟩
  obtain ⟨r, hr, hbeyond⟩ := Finset.mem_biUnion.mp hk
  have hplace : ∀ s ∈ [3, 64], windowPlace (UInt16.toNat s) 200 < 17669 :=
    List.forall_mem_cons.mpr ⟨by decide, List.forall_mem_singleton.mpr (by decide)⟩
  exact absurd (Finset.mem_filter.mp hbeyond).2
    (Nat.not_le.mpr (hplace r (List.mem_toFinset.mp hr)))

/-- The product by one power of `X` is a cyclic shift for the power 1 only. -/
theorem gf2xMulDenseSparse_shift_iff (r : UInt16) :
    (∀ u : List UInt64, u.length = 277 → ∀ k < 17669, blockBit (gf2xMulDenseSparse u [r]) k =
      blockBit u ((k + (17669 - r.toNat % 17669)) % 17669)) ↔ r.toNat % 17669 = 0 := by
  have hbit {u : List UInt64} (hu : u.length = 277) {k : Nat} (hk : k < 17669) :
      blockBit (gf2xMulDenseSparse u [r]) k = innerBit u (windowPlace r.toNat k) := by
    rw [blockBit_gf2xMulDenseSparse hu _ (by omega), decide_eq_true hk, Bool.true_and]
    exact Bool.false_xor _
  have hone (p k : Nat) (hp : p < 17669) (hk : k < 17728) :
      blockBit (onesAt [UInt16.ofNat p]) k = decide (p = k) := by
    have hof : (UInt16.ofNat p).toNat = p := by
      rw [UInt16.toNat_ofNat']
      omega
    rw [blockBit_onesAt _ hk]
    exact (Bool.false_xor _).trans (congrArg (fun n ↦ decide (n = k)) hof)
  have hr := Nat.mod_lt r.toNat (show 0 < 17669 by decide)
  constructor
  · intro h
    by_contra hne
    by_cases hword : r.toNat % 17669 < 64
    · have hplace : windowPlace r.toNat 0 = 128 - r.toNat % 17669 := by
        rw [windowPlace, flip, flip]
        omega
      have hsame := h (onesAt [UInt16.ofNat (128 - r.toNat % 17669)]) (length_onesAt _) 0
        (by decide)
      rw [hbit (length_onesAt _) (by decide), innerBit, hplace, hone _ _ (by omega) (by omega),
        hone _ _ (by omega) (by omega), decide_eq_true (by omega), decide_eq_true rfl,
        decide_eq_false (by omega)] at hsame
      cases hsame
    · have hplace : windowPlace r.toNat (r.toNat % 17669) ≠ 0 := by
        rw [windowPlace, flip, flip]
        omega
      have hsame := h (onesAt [UInt16.ofNat 0]) (length_onesAt _) (r.toNat % 17669) hr
      have hzero : (r.toNat % 17669 + (17669 - r.toNat % 17669)) % 17669 = 0 := by omega
      rw [hbit (length_onesAt _) hr, innerBit, hone _ _ (by decide) (windowPlace_lt _ _), hzero,
        hone _ _ (by decide) (by decide), decide_eq_false hplace.symm, Bool.and_false,
        decide_eq_true rfl] at hsame
      cases hsame
  · intro h u hu k hk
    have hplace : windowPlace r.toNat k = k := by
      rw [windowPlace, h, Nat.add_zero, Nat.mod_eq_of_lt (flip_lt (by omega)), flip_flip]
    have hshift : (k + (17669 - r.toNat % 17669)) % 17669 = k := by omega
    rw [hbit hu hk, innerBit, hplace, decide_eq_true hk, Bool.true_and, hshift]

end KemtlsMavlink.Hqc
