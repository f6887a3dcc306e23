import KemtlsMavlink.Hqc.ReedMullerCorrect
import KemtlsMavlink.Hqc.ReedSolomonCorrect

namespace KemtlsMavlink.Hqc

def block (em : List UInt64) (i : Nat) : List UInt64 :=
  (em.drop (2 * i * multiplicity)).take (2 * multiplicity)

/-- The blocks that do not give their byte of the Reed–Solomon codeword. -/
def wrongBlocks (em : List UInt64) (m : List UInt8) : Finset Nat :=
  (Finset.range 46).filter (fun i ↦
    rmDecodeBlock (block em i) ≠ (reedSolomonEncode m).getD i 0)

theorem length_reedMullerDecode (em : List UInt64) : (reedMullerDecode em).length = 46 := by
  rw [reedMullerDecode, List.length_map, List.length_range]
  rfl

theorem getD_reedMullerDecode (em : List UInt64) {i : Nat} (hi : i < 46) :
    (reedMullerDecode em).getD i 0 = rmDecodeBlock (block em i) := by
  have h46 : paramN1 = 46 := rfl
  rw [reedMullerDecode, h46, List.getD_eq_getElem?_getD, List.getElem?_map, List.getElem?_range hi]
  rfl

theorem errorSet_reedMullerDecode (em : List UInt64) (m : List UInt8) :
    errorSet (reedMullerDecode em) (reedSolomonEncode m) = wrongBlocks em m := by
  rw [errorSet, length_reedMullerDecode]
  refine Finset.filter_congr fun i hi ↦ ?_
  rw [getD_reedMullerDecode em (Finset.mem_range.mp hi)]

theorem codeDecode_eq {em : List UInt64} {m : List UInt8} (hm : m.length = 16)
    (h : (wrongBlocks em m).card ≤ 15) : codeDecode em = m :=
  reedSolomonDecode_eq hm (length_reedMullerDecode em) ((errorSet_reedMullerDecode em m).symm ▸ h)

theorem blockBit_block (em : List UInt64) (i : Nat) {j : Nat} (hj : j < 384) :
    blockBit (block em i) j = blockBit em (384 * i + j) := by
  have hsix : 2 * multiplicity = 6 := rfl
  have hstart : 2 * i * multiplicity = 6 * i := by
    rw [show multiplicity = 3 from rfl]
    omega
  have hd : (384 * i + j) / 64 = 6 * i + j / 64 := by omega
  have hm : (384 * i + j) % 64 = j % 64 := by omega
  rw [blockBit, blockBit, block, hsix, hstart, hd, hm, List.getD_eq_getElem?_getD,
    List.getElem?_take_of_lt (by omega), List.getElem?_drop, ← List.getD_eq_getElem?_getD]

/-- The places of the code in which two vectors differ. -/
def bitErrors (a b : List UInt64) : Finset Nat :=
  (Finset.range 17664).filter (fun j ↦ blockBit a j ≠ blockBit b j)

theorem length_rmEncodeBlock (m : UInt8) : (rmEncodeBlock m).length = 6 := rfl

theorem getD_flatMap_rmEncodeBlock (l : List UInt8) {i k : Nat} (hi : i < l.length) (hk : k < 6) :
    (l.flatMap rmEncodeBlock).getD (6 * i + k) 0 = (rmEncodeBlock (l.getD i 0)).getD k 0 := by
  induction l generalizing i with
  | nil => exact absurd hi (Nat.not_lt_zero i)
  | cons m l ih =>
    rw [List.flatMap_cons]
    cases i with
    | zero =>
      rw [List.getD_append _ _ _ _ (by rw [length_rmEncodeBlock]; omega), Nat.mul_zero,
        Nat.zero_add, List.getD_cons_zero]
    | succ i =>
      have hplace : 6 * (i + 1) + k - 6 = 6 * i + k := by omega
      rw [List.getD_append_right _ _ _ _ (by rw [length_rmEncodeBlock]; omega),
        length_rmEncodeBlock, hplace, List.getD_cons_succ, ih (Nat.lt_of_succ_lt_succ hi)]

theorem blockBit_codeEncode {m : List UInt8} (hm : m.length = 16) {i j : Nat} (hi : i < 46)
    (hj : j < 384) : blockBit (codeEncode m) (384 * i + j) =
      rmBit ((reedSolomonEncode m).getD i 0).toNat (j % 128) := by
  have hlen : i < (reedSolomonEncode m).length := hi.trans_eq (length_reedSolomonEncode hm).symm
  have hd : (384 * i + j) / 64 = 6 * i + j / 64 := by omega
  have hmod : (384 * i + j) % 64 = j % 64 := by omega
  rw [← blockBit_rmEncodeBlock _ hj, blockBit, blockBit, codeEncode, reedMullerEncode, hd, hmod,
    getD_flatMap_rmEncodeBlock _ hlen (by omega)]

theorem sum_range_blocks (f : Nat → Nat) (b : Nat) : ∀ n, ∑ j ∈ Finset.range (b * n), f j =
    ∑ i ∈ Finset.range n, ∑ j ∈ Finset.range b, f (b * i + j)
  | 0 => rfl
  | n + 1 => by
    rw [Nat.mul_succ, Finset.sum_range_add, sum_range_blocks f b n, Finset.sum_range_succ]

theorem card_bitErrors (em : List UInt64) {m : List UInt8} (hm : m.length = 16) :
    (bitErrors em (codeEncode m)).card = ∑ i ∈ Finset.range 46,
      rmDistance (block em i) ((reedSolomonEncode m).getD i 0).toNat := by
  have hsize : 17664 = 384 * 46 := rfl
  rw [bitErrors, Finset.card_filter, hsize, sum_range_blocks]
  refine Finset.sum_congr rfl fun i hi ↦ ?_
  rw [rmDistance, Finset.card_filter]
  refine Finset.sum_congr rfl fun j hj ↦ ?_
  rw [blockBit_codeEncode hm (Finset.mem_range.mp hi) (Finset.mem_range.mp hj),
    blockBit_block em i (Finset.mem_range.mp hj)]

theorem card_wrongBlocks_le (em : List UInt64) {m : List UInt8} (hm : m.length = 16) :
    (wrongBlocks em m).card * 96 ≤ (bitErrors em (codeEncode m)).card := by
  rw [card_bitErrors em hm]
  refine (Finset.card_nsmul_le_sum _ (fun i ↦ rmDistance (block em i)
    ((reedSolomonEncode m).getD i 0).toNat) 96 fun i hi ↦ ?_).trans
      (Finset.sum_le_sum_of_subset (Finset.filter_subset _ _))
  exact Nat.le_of_not_lt fun hlt ↦ (Finset.mem_filter.mp hi).2 (rmDecodeBlock_eq_of_lt_96 hlt)

theorem codeDecode_eq_of_lt {em : List UInt64} {m : List UInt8} (hm : m.length = 16)
    (h : (bitErrors em (codeEncode m)).card < 1536) : codeDecode em = m := by
  have hle := card_wrongBlocks_le em hm
  exact codeDecode_eq hm (by omega)

/-- The code corrects every pattern of 1535 wrong bits, and every pattern that leaves 31 of the 46
blocks right. -/
theorem codeDecode_corrects (em : List UInt64) (m : List UInt8) (hm : m.length = 16)
    (h : (bitErrors em (codeEncode m)).card < 1536 ∨ (wrongBlocks em m).card ≤ 15) :
    codeDecode em = m :=
  h.elim (codeDecode_eq_of_lt hm) (codeDecode_eq hm)

/-- The first 1472 bits of a codeword, all flipped. -/
theorem codeDecode_corrects_flipped : codeDecode ((codeEncode (List.replicate 16 7)).mapIdx
    (fun i w ↦ if i < 23 then ~~~w else w)) = List.replicate 16 7 := by
  refine codeDecode_corrects _ _ List.length_replicate (.inl ?_)
  refine (Finset.card_le_card fun j hj ↦ ?_).trans_lt (b := (Finset.range 1472).card) ?_
  · obtain ⟨-, hne⟩ := Finset.mem_filter.mp hj
    by_contra hge
    have hplace : ¬j / 64 < 23 := fun h ↦ hge (Finset.mem_range.mpr (by omega))
    refine hne ?_
    rw [blockBit, blockBit]
    by_cases hlen : j / 64 < (codeEncode (List.replicate 16 7)).length
    · rw [getD_mapIdx hlen, if_neg hplace]
    · rw [List.getD_eq_default _ _ (by rw [List.length_mapIdx]; omega),
        List.getD_eq_default _ _ (by omega)]
  · rw [Finset.card_range]
    decide

end KemtlsMavlink.Hqc
