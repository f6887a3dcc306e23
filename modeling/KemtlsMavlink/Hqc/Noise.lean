import KemtlsMavlink.Hqc.Parsing
import KemtlsMavlink.Hqc.SparseProduct

namespace KemtlsMavlink.Hqc

open Library

theorem innerBit_xor {u v w : List UInt64}
    (h : ∀ k < 17669, blockBit w k = (blockBit u k ^^ blockBit v k)) (k : Nat) :
    innerBit w k = (innerBit u k ^^ innerBit v k) := by
  unfold innerBit
  by_cases hk : k < 17669
  · rw [h k hk, decide_eq_true hk, Bool.true_and, Bool.true_and, Bool.true_and]
  · rw [decide_eq_false hk, Bool.false_and, Bool.false_and, Bool.false_and, Bool.xor_false]

theorem productBit_xor {u v w : List UInt64}
    (h : ∀ k < 17669, blockBit w k = (blockBit u k ^^ blockBit v k)) (idx : List UInt16) (k : Nat) :
    productBit w idx k = (productBit u idx k ^^ productBit v idx k) :=
  (xorSum_congr fun _ _ ↦ innerBit_xor h _).trans (xorSum_xor ..)

theorem gf2xMulDenseSparse_perm {u : List UInt64} (hu : u.length = 277) {idx idx' : List UInt16}
    (h : idx.Perm idx') : gf2xMulDenseSparse u idx = gf2xMulDenseSparse u idx' := by
  refine blockBit_ext (by rw [length_gf2xMulDenseSparse, length_gf2xMulDenseSparse]) fun k hk ↦ ?_
  rw [length_gf2xMulDenseSparse] at hk
  rw [blockBit_gf2xMulDenseSparse hu _ hk, blockBit_gf2xMulDenseSparse hu _ hk, productBit,
    xorSum_perm h, ← productBit]

theorem hits_of_le {idx : List UInt16} {n : Nat} (h : ∀ p ∈ idx, p.toNat < n) {k : Nat}
    (hk : n ≤ k) : hits idx k = false :=
  xorSum_eq_false fun p hp ↦ decide_eq_false ((h p hp).trans_le hk).ne

/-- `gf2x_mul_dense_sparse` and then `vect_add_sparse`, as the key and the ciphertext use them. -/
def masked (h : List UInt64) (a b : List UInt16) : List UInt64 :=
  vectAddSparse (gf2xMulDenseSparse h a) b

theorem length_masked (h : List UInt64) (a b : List UInt16) : (masked h a b).length = 277 :=
  (length_vectAddSparse _ b).trans (length_gf2xMulDenseSparse h a)

theorem blockBit_masked (h : List UInt64) (a b : List UInt16) {k : Nat} (hk : k < 17728) :
    blockBit (masked h a b) k = (blockBit (gf2xMulDenseSparse h a) k ^^ hits b k) := by
  have hlen := length_gf2xMulDenseSparse h a
  exact blockBit_vectAddSparse b (by omega)

theorem inner_masked {h : List UInt64} (hh : h.length = 277) (a : List UInt16) {b : List UInt16}
    (hb : ∀ p ∈ b, p.toNat < 17669) : Inner (masked h a b) := by
  refine ⟨length_masked h a b, fun k hk hle ↦ ?_⟩
  rw [blockBit_masked h a b hk, blockBit_gf2xMulDenseSparse hh a hk, hits_of_le hb hle,
    decide_eq_false (by omega), Bool.false_and, Bool.xor_false]

theorem productBit_masked (h : List UInt64) (a b c : List UInt16) (k : Nat) :
    productBit (masked h a b) c k =
      (productBit (gf2xMulDenseSparse h a) c k ^^ productBit (onesAt b) c k) :=
  productBit_xor (fun k hk ↦ by
    rw [blockBit_masked h a b (by omega), blockBit_onesAt b (by omega)]) c k

theorem vectResize_up {v : List UInt64} (hv : v.length = 276) :
    vectResize (List.replicate vecNSize64 0) paramN v paramN1N2 = v ++ [0] := by
  have hnot : ¬paramN < paramN1N2 := by decide
  have hwords : (paramN1N2 + 64 - 1) / 64 = 276 := rfl
  have hdrop : (List.replicate vecNSize64 (0 : UInt64)).drop 276 = [0] := rfl
  rw [vectResize, if_neg hnot, hwords, copyWords, List.take_of_length_le hv.le, hdrop]

theorem vectResize_down {v : List UInt64} (hv : v.length = 276) (w : List UInt64) :
    vectResize v paramN1N2 w paramN = w.take 276 := by
  have hlt : paramN1N2 < paramN := by decide
  have hwords : vecN1N2SizeBytes / 8 = 276 := rfl
  have hval : (if paramN1N2 % 64 ≠ 0 then 64 - paramN1N2 % 64 else 0) = 0 := rfl
  rw [vectResize, if_pos hlt, hval, hwords, copyWords, List.drop_of_length_le hv.le,
    List.append_nil]
  rfl

theorem length_codeEncode {m : List UInt8} (hm : m.length = 16) : (codeEncode m).length = 276 := by
  have hlen := length_reedSolomonEncode hm
  rw [codeEncode, reedMullerEncode, List.length_flatMap,
    List.map_congr_left (g := fun _ ↦ 6) fun b _ ↦ length_rmEncodeBlock b, List.map_const',
    List.sum_replicate, hlen]
  rfl

/-- What stands between the codeword and the word that is decoded. The first two products are of the
same three vectors. -/
def decryptNoise (h : List UInt64) (x y r1 r2 e : List UInt16) : List UInt64 :=
  vectAddSparse (vectAdd
    (vectAdd (gf2xMulDenseSparse (gf2xMulDenseSparse h y) r2)
      (gf2xMulDenseSparse (gf2xMulDenseSparse h r2) y))
    (vectAdd (gf2xMulDenseSparse (onesAt x) r2) (gf2xMulDenseSparse (onesAt r1) y))) e

theorem length_vectAdd {v w : List UInt64} {n : Nat} (hv : v.length = n) (hw : w.length = n) :
    (vectAdd v w).length = n := by
  rw [vectAdd, List.length_zipWith, hv, hw, Nat.min_self]

theorem length_decryptNoise (h : List UInt64) (x y r1 r2 e : List UInt16) :
    (decryptNoise h x y r1 r2 e).length = 277 := by
  rw [decryptNoise, length_vectAddSparse]
  exact length_vectAdd (length_vectAdd (length_gf2xMulDenseSparse _ _)
    (length_gf2xMulDenseSparse _ _)) (length_vectAdd (length_gf2xMulDenseSparse _ _)
      (length_gf2xMulDenseSparse _ _))

theorem blockBit_decryptNoise (h : List UInt64) (x y r1 r2 e : List UInt16) {k : Nat}
    (hk : k < 17669) : blockBit (decryptNoise h x y r1 r2 e) k =
      ((productBit (masked h y x) r2 k ^^ hits e k) ^^ productBit (masked h r2 r1) y k) := by
  have hlen (u : List UInt64) (idx : List UInt16) : k / 64 < (gf2xMulDenseSparse u idx).length := by
    rw [length_gf2xMulDenseSparse]
    omega
  have hbit {u : List UInt64} (hu : u.length = 277) (idx : List UInt16) :
      blockBit (gf2xMulDenseSparse u idx) k = productBit u idx k := by
    rw [blockBit_gf2xMulDenseSparse hu idx (by omega), decide_eq_true hk, Bool.true_and]
  have hadd (v w : List UInt64) (hv : v.length = 277) (hw : w.length = 277) :
      blockBit (vectAdd v w) k = (blockBit v k ^^ blockBit w k) :=
    blockBit_vectAdd (by omega) (by omega)
  have hmul := length_gf2xMulDenseSparse
  have hsum := length_vectAdd (length_vectAdd (hmul (gf2xMulDenseSparse h y) r2)
    (hmul (gf2xMulDenseSparse h r2) y)) (length_vectAdd (hmul (onesAt x) r2) (hmul (onesAt r1) y))
  rw [decryptNoise, blockBit_vectAddSparse e (by omega),
    hadd _ _ (length_vectAdd (hmul _ _) (hmul _ _)) (length_vectAdd (hmul _ _) (hmul _ _)),
    hadd _ _ (hmul _ _) (hmul _ _), hadd _ _ (hmul _ _) (hmul _ _), hbit (hmul _ _),
    hbit (hmul _ _), hbit (length_onesAt _), hbit (length_onesAt _), productBit_masked,
    productBit_masked]
  cases productBit (gf2xMulDenseSparse h y) r2 k <;>
    cases productBit (gf2xMulDenseSparse h r2) y k <;> cases productBit (onesAt x) r2 k <;>
      cases productBit (onesAt r1) y k <;> cases hits e k <;> rfl

theorem block_take (em : List UInt64) {i : Nat} (hi : i < 46) :
    block (em.take 276) i = block em i := by
  have hsix : 2 * multiplicity = 6 := rfl
  have hstart : 2 * i * multiplicity = 6 * i := by
    rw [show multiplicity = 3 from rfl]
    omega
  rw [block, block, hsix, hstart, List.drop_take, List.take_take,
    Nat.min_eq_left (show 6 ≤ 276 - 6 * i by omega)]

theorem codeDecode_take (em : List UInt64) : codeDecode (em.take 276) = codeDecode em := by
  have hblocks : reedMullerDecode (em.take 276) = reedMullerDecode em :=
    List.map_congr_left fun i hi ↦
      congrArg rmDecodeBlock (block_take em (List.mem_range.mp hi))
  rw [codeDecode, codeDecode, hblocks]

/-- Where no window reads beyond the vector, the noise is the one of the scheme. -/
theorem blockBit_decryptNoise_inside {h : List UInt64} (hh : h.length = 277)
    (x y r1 r2 e : List UInt16) {k : Nat} (hk : k < 17669) (hin : k ∉ beyondAll (y ++ r2)) :
    blockBit (decryptNoise h x y r1 r2 e) k =
      ((productBit (onesAt x) r2 k ^^ productBit (onesAt r1) y k) ^^ hits e k) := by
  rw [blockBit_decryptNoise h x y r1 r2 e hk, productBit_masked, productBit_masked,
    productBit_comm hh (by omega) hin]
  cases productBit (gf2xMulDenseSparse h r2) y k <;> cases productBit (onesAt x) r2 k <;>
    cases productBit (onesAt r1) y k <;> cases hits e k <;> rfl

theorem noise_subset {h : List UInt64} (hh : h.length = 277) (x y r1 r2 e : List UInt16) :
    (Finset.range 17664).filter (fun k ↦ blockBit (decryptNoise h x y r1 r2 e) k ≠
      ((productBit (onesAt x) r2 k ^^ productBit (onesAt r1) y k) ^^ hits e k)) ⊆
        beyondAll (y ++ r2) := by
  intro k hk
  obtain ⟨hlt, hne⟩ := Finset.mem_filter.mp hk
  by_contra hout
  exact hne (blockBit_decryptNoise_inside hh x y r1 r2 e
    ((Finset.mem_range.mp hlt).trans (by decide)) hout)

theorem blockBit_take (v : List UInt64) {n k : Nat} (hk : k < 64 * n) :
    blockBit (v.take n) k = blockBit v k := by
  rw [blockBit, blockBit, List.getD_eq_getElem?_getD, List.getElem?_take_of_lt (by omega),
    ← List.getD_eq_getElem?_getD]

theorem blockBit_append_left {v : List UInt64} (w : List UInt64) {k : Nat}
    (hk : k < 64 * v.length) : blockBit (v ++ w) k = blockBit v k := by
  rw [blockBit, blockBit, List.getD_append _ _ _ _ (by omega)]

theorem length_cipher {c : List UInt64} (hc : c.length = 276) (s : List UInt64)
    (r2 e : List UInt16) : ((vectAdd (c ++ [0]) (masked s r2 e)).take 276).length = 276 := by
  have hlen : (c ++ [0]).length = 277 := by
    rw [List.length_append, hc]
    rfl
  rw [List.length_take, length_vectAdd hlen (length_masked _ _ _)]
  rfl

theorem take_decoded {c : List UInt64} (hc : c.length = 276) (h : List UInt64)
    (x y r1 r2 e : List UInt16) :
    (vectAdd ((vectAdd (c ++ [0]) (masked (masked h y x) r2 e)).take 276 ++ [0])
      (gf2xMulDenseSparse (masked h r2 r1) y)).take 276 =
        vectAdd c (decryptNoise h x y r1 r2 e) := by
  have hlenc : (c ++ [(0 : UInt64)]).length = 277 := by
    rw [List.length_append, hc]
    rfl
  have hv := length_cipher hc (masked h y x) r2 e
  have hlenv : ((vectAdd (c ++ [0]) (masked (masked h y x) r2 e)).take 276 ++
      [(0 : UInt64)]).length = 277 := by
    rw [List.length_append, hv]
    rfl
  have hmul := length_gf2xMulDenseSparse (masked h r2 r1) y
  have hmask := length_masked (masked h y x) r2 e
  have hnoise := length_decryptNoise h x y r1 r2 e
  have hleft := length_vectAdd hlenv hmul
  have hright : (vectAdd c (decryptNoise h x y r1 r2 e)).length = 276 := by
    rw [vectAdd, List.length_zipWith, hc, hnoise]
    rfl
  have hsize : ((vectAdd ((vectAdd (c ++ [0]) (masked (masked h y x) r2 e)).take 276 ++ [0])
      (gf2xMulDenseSparse (masked h r2 r1) y)).take 276).length = 276 := by
    rw [List.length_take, hleft]
    rfl
  refine blockBit_ext (hsize.trans hright.symm) fun k hk ↦ ?_
  rw [hsize] at hk
  rw [blockBit_take _ hk, blockBit_vectAdd (by omega) (by omega),
    blockBit_append_left _ (by omega), blockBit_take _ hk, blockBit_vectAdd (by omega) (by omega),
    blockBit_append_left _ (by omega), blockBit_vectAdd (by omega) (by omega),
    blockBit_masked _ _ _ (by omega),
    blockBit_gf2xMulDenseSparse (length_masked h y x) _ (by omega),
    blockBit_gf2xMulDenseSparse (length_masked h r2 r1) _ (by omega),
    blockBit_decryptNoise _ _ _ _ _ _ (by omega), decide_eq_true (show k < 17669 by omega),
    Bool.true_and, Bool.true_and, Bool.xor_assoc]

end KemtlsMavlink.Hqc
