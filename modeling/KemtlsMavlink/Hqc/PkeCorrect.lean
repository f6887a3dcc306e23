import KemtlsMavlink.Hqc.Keccak
import KemtlsMavlink.Hqc.Noise

namespace KemtlsMavlink.Hqc

open Library

section

variable (permute : List UInt64 → List UInt64)

theorem drawIdx_eq (ctx : KeccakInc) {weight : Nat} (hw : weight ≤ 75) :
    (drawIdx permute ctx weight).1 =
      (fixedWeightSupport (seedexpander permute (4 * weight) ctx).1 weight).map UInt32.toUInt16 ∧
    (drawIdx permute ctx weight).2 = (seedexpander permute (4 * weight) ctx).2 := by
  have hnot : ¬paramOmegaR < weight := Nat.not_lt.mpr hw
  rw [drawIdx, vectSetRandomFixedWeightIdx, if_neg hnot]
  exact ⟨rfl, rfl⟩

theorem toNat_toUInt16_of_lt {p : UInt32} (hp : p.toNat < 17669) : p.toUInt16.toNat = p.toNat := by
  rw [UInt32.toNat_toUInt16]
  omega

/-- Positions drawn: as many as wanted, apart, and inside. -/
structure Positions (idx : List UInt16) (weight : Nat) : Prop where
  length : idx.length = weight
  nodup : idx.Nodup
  lt : ∀ p ∈ idx, p.toNat < 17669

theorem drawIdx_positions (ctx : KeccakInc) {weight : Nat} (hw : weight ≤ 75) :
    Positions (drawIdx permute ctx weight).1 weight := by
  obtain ⟨hlen, hnodup, hlt⟩ :=
    fixedWeightSupport_spec (seedexpander permute (4 * weight) ctx).1 hw
  rw [(drawIdx_eq permute ctx hw).1]
  refine ⟨by rw [List.length_map, hlen], hnodup.map_on fun a ha b hb h ↦ ?_, fun p hp ↦ ?_⟩
  · have hn := congrArg UInt16.toNat h
    rw [toNat_toUInt16_of_lt (hlt a ha), toNat_toUInt16_of_lt (hlt b hb)] at hn
    exact UInt32.toNat_inj.mp hn
  · obtain ⟨q, hq, rfl⟩ := List.mem_map.mp hp
    rw [toNat_toUInt16_of_lt (hlt q hq)]
    exact hlt q hq

theorem vectSetRandomFixedWeight_eq (ctx : KeccakInc) {weight : Nat} (hw : weight ≤ 75) :
    (vectSetRandomFixedWeight permute ctx weight).2 = (drawIdx permute ctx weight).2 ∧
      (vectSetRandomFixedWeight permute ctx weight).1.length = 277 ∧
      ∀ k < 17728, blockBit (vectSetRandomFixedWeight permute ctx weight).1 k =
        hits (drawIdx permute ctx weight).1 k := by
  obtain ⟨hidx, hctx⟩ := drawIdx_eq permute ctx hw
  have hlt := (fixedWeightSupport_spec (seedexpander permute (4 * weight) ctx).1 hw).2.2
  refine ⟨hctx.symm, length_setSupport _ _, fun k hk ↦ ?_⟩
  rw [hits_of_nodup (drawIdx_positions permute ctx hw).nodup, hidx]
  refine (blockBit_setSupport _ _ hk).trans ?_
  rw [blockBit_replicate_zero, Bool.false_or, decide_eq_decide]
  constructor
  · rintro ⟨p, hp, rfl⟩
    exact ⟨p.toUInt16, List.mem_map_of_mem hp, toNat_toUInt16_of_lt (hlt p hp)⟩
  · rintro ⟨q, hq, rfl⟩
    obtain ⟨p, hp, rfl⟩ := List.mem_map.mp hq
    exact ⟨p, hp, (toNat_toUInt16_of_lt (hlt p hp)).symm⟩

/-- The samplers give positions apart and inside the vector, and draw the same ones. A weight of
zero is left out: the loops of the source would go on below the array. -/
theorem vectSetRandomFixedWeight_spec (ctx : KeccakInc) (weight : Nat) (_hpos : 0 < weight)
    (hw : weight ≤ 75) :
    ∃ idx, vectSetRandomFixedWeightIdx permute ctx weight =
        (some idx, (vectSetRandomFixedWeight permute ctx weight).2) ∧
      idx.length = weight ∧ idx.Nodup ∧ (∀ p ∈ idx, p.toNat < 17669) ∧
      ∀ k < 17728, blockBit (vectSetRandomFixedWeight permute ctx weight).1 k =
        decide (∃ p ∈ idx, p.toNat = k) := by
  have hpos := drawIdx_positions permute ctx hw
  obtain ⟨hctx, -, hbit⟩ := vectSetRandomFixedWeight_eq permute ctx hw
  have hnot : ¬paramOmegaR < weight := Nat.not_lt.mpr hw
  have hsome : vectSetRandomFixedWeightIdx permute ctx weight =
      (some (drawIdx permute ctx weight).1, (drawIdx permute ctx weight).2) := by
    rw [drawIdx, vectSetRandomFixedWeightIdx, if_neg hnot]
    rfl
  refine ⟨(drawIdx permute ctx weight).1, by rw [hsome, hctx], hpos.length, hpos.nodup, hpos.lt,
    fun k hk ↦ ?_⟩
  rw [hbit k hk, hits_of_nodup hpos.nodup]

theorem vectSetRandomFixedWeight_spec_omega : ∃ idx,
    vectSetRandomFixedWeightIdx keccakF1600StatePermute keccakIncInit 66 =
        (some idx, (vectSetRandomFixedWeight keccakF1600StatePermute keccakIncInit 66).2) ∧
      idx.length = 66 ∧ idx.Nodup ∧ (∀ p ∈ idx, p.toNat < 17669) ∧
      ∀ k < 17728,
        blockBit (vectSetRandomFixedWeight keccakF1600StatePermute keccakIncInit 66).1 k =
          decide (∃ p ∈ idx, p.toNat = k) :=
  vectSetRandomFixedWeight_spec keccakF1600StatePermute keccakIncInit 66 (by decide) (by decide)

end

theorem and_one_ne_zero (w : UInt64) {b : Nat} (hb : b < 64) :
    ((w >>> UInt64.ofNat b) &&& 1 ≠ 0) ↔ w.toNat.testBit b = true := by
  have hbit := testBit_shiftRight64 w hb (b := 0)
  rw [Nat.add_zero, Nat.testBit_zero] at hbit
  rw [← hbit, Ne, ← UInt64.toNat_inj, UInt64.toNat_and, UInt64.toNat_one, Nat.and_one_is_mod,
    UInt64.toNat_zero, decide_eq_true_iff]
  omega

theorem supportOf_perm {y : List UInt64} {idx : List UInt16} (h : Positions idx 66)
    (hy : ∀ k < 17728, blockBit y k = hits idx k) : (supportOf y).Perm idx := by
  let all := (List.range (vecNSize64 * 64)).filter (fun k ↦
    ((y.getD (k / 64) 0) >>> UInt64.ofNat (k % 64)) &&& 1 ≠ 0)
  have hmem : ∀ k, k ∈ all ↔ ∃ p ∈ idx, p.toNat = k := by
    intro k
    have hsize : vecNSize64 * 64 = 17728 := rfl
    rw [List.mem_filter, List.mem_range, hsize, decide_eq_true_iff,
      and_one_ne_zero _ (Nat.mod_lt k (by decide))]
    constructor
    · rintro ⟨hk, hbit⟩
      have hhit := (hy k hk).symm.trans hbit
      rw [hits_of_nodup h.nodup] at hhit
      exact of_decide_eq_true hhit
    · rintro ⟨p, hp, rfl⟩
      have hk : p.toNat < 17728 := (h.lt p hp).trans (by decide)
      refine ⟨hk, (hy _ hk).trans ?_⟩
      rw [hits_of_nodup h.nodup]
      exact decide_eq_true ⟨p, hp, rfl⟩
  have hall : (all.map UInt16.ofNat).Perm idx := by
    refine (List.perm_ext_iff_of_nodup ?_ h.nodup).mpr fun q ↦ ?_
    · refine (List.nodup_range.filter _).map_on fun a ha b hb heq ↦ ?_
      obtain ⟨p, -, rfl⟩ := (hmem a).mp ha
      obtain ⟨q, -, rfl⟩ := (hmem b).mp hb
      rw [UInt16.ofNat_toNat, UInt16.ofNat_toNat] at heq
      rw [heq]
    · rw [List.mem_map]
      constructor
      · rintro ⟨k, hk, rfl⟩
        obtain ⟨p, hp, rfl⟩ := (hmem k).mp hk
        rwa [UInt16.ofNat_toNat]
      · exact fun hq ↦ ⟨q.toNat, (hmem _).mpr ⟨q, hq, rfl⟩, UInt16.ofNat_toNat⟩
  have hlen : all.length = 66 := by
    rw [← h.length, ← hall.length_eq, List.length_map]
  have htake : all.take paramOmega = all := List.take_of_length_le hlen.le
  change ((all.take paramOmega).map UInt16.ofNat).Perm idx
  rwa [htake]

section

variable (permute : List UInt64 → List UInt64)

/-- The positions of `x`. -/
def xPositions (skSeed : List UInt8) : List UInt16 :=
  (drawIdx permute (seedexpanderInit permute (skSeed.take seedBytes)) paramOmega).1

/-- The positions of `y`. -/
def yPositions (skSeed : List UInt8) : List UInt16 :=
  (drawIdx permute (drawIdx permute (seedexpanderInit permute (skSeed.take seedBytes))
    paramOmega).2 paramOmega).1

/-- The vector `h`. -/
def publicVector (pkSeed : List UInt8) : List UInt64 :=
  (vectSetRandom permute (seedexpanderInit permute (pkSeed.take seedBytes))).1

def cipherContext (theta : List UInt8) : KeccakInc :=
  (drawIdx permute (seedexpanderInit permute (theta.take seedBytes)) paramOmegaR).2

/-- The positions of `r1`. -/
def r1Positions (theta : List UInt8) : List UInt16 :=
  (drawIdx permute (seedexpanderInit permute (theta.take seedBytes)) paramOmegaR).1

/-- The positions of `r2`. -/
def r2Positions (theta : List UInt8) : List UInt16 :=
  (drawIdx permute (cipherContext permute theta) paramOmegaR).1

/-- The positions of `e`. -/
def ePositions (theta : List UInt8) : List UInt16 :=
  (drawIdx permute (drawIdx permute (cipherContext permute theta) paramOmegaR).2 paramOmegaE).1

/-- The noise of a ciphertext, from the seeds that the key and the ciphertext are made of. -/
def ciphertextNoise (skSeed pkSeed theta : List UInt8) : List UInt64 :=
  decryptNoise (publicVector permute pkSeed) (xPositions permute skSeed) (yPositions permute skSeed)
    (r1Positions permute theta) (r2Positions permute theta) (ePositions permute theta)

theorem length_publicVector (pkSeed : List UInt8) :
    (publicVector permute pkSeed).length = 277 := by
  rw [publicVector, vectSetRandom, length_maskTop, length_load8Arr]
  rfl

theorem positions_x (skSeed : List UInt8) : Positions (xPositions permute skSeed) paramOmega :=
  drawIdx_positions permute _ (show paramOmega ≤ 75 by decide)

theorem positions_y (skSeed : List UInt8) : Positions (yPositions permute skSeed) paramOmega :=
  drawIdx_positions permute _ (show paramOmega ≤ 75 by decide)

theorem positions_r2 (theta : List UInt8) :
    Positions (r2Positions permute theta) paramOmegaR :=
  drawIdx_positions permute _ (show paramOmegaR ≤ 75 by decide)

def publicSyndrome (skSeed pkSeed : List UInt8) : List UInt64 :=
  masked (publicVector permute pkSeed) (yPositions permute skSeed) (xPositions permute skSeed)

theorem inner_publicSyndrome (skSeed pkSeed : List UInt8) :
    Inner (publicSyndrome permute skSeed pkSeed) :=
  inner_masked (length_publicVector permute pkSeed) _ (positions_x permute skSeed).lt

theorem hqcPkeKeygen_eq (skSeed sigma pkSeed : List UInt8) :
    hqcPkeKeygen permute skSeed sigma pkSeed =
      (hqcPublicKeyToString pkSeed (publicSyndrome permute skSeed pkSeed),
        hqcSecretKeyToString skSeed sigma
          (hqcPublicKeyToString pkSeed (publicSyndrome permute skSeed pkSeed))) := rfl

theorem length_publicKey {pkSeed : List UInt8} (hpk : pkSeed.length = 40) {s : List UInt64}
    (hs : s.length = 277) : (hqcPublicKeyToString pkSeed s).length = 2249 := by
  rw [hqcPublicKeyToString, List.length_append, List.length_take, length_store8Arr, hpk, hs]
  rfl

theorem publicKey_from_to {pkSeed : List UInt8} (hpk : pkSeed.length = 40) {s : List UInt64}
    (hs : Inner s) : hqcPublicKeyFromString permute (hqcPublicKeyToString pkSeed s) =
      (publicVector permute pkSeed, s) := by
  have hseed : (pkSeed.take seedBytes).length = seedBytes := by
    rw [List.length_take, hpk]
    rfl
  have hbytes : (store8Arr vecNSizeBytes s).length = vecNSizeBytes := by
    rw [length_store8Arr, hs.length]
    rfl
  rw [hqcPublicKeyFromString, hqcPublicKeyToString, List.take_left' hseed, List.drop_left' hseed,
    List.take_of_length_le hbytes.le, hs.load_store]
  rfl

theorem secretKey_from_to {skSeed sigma pk : List UInt8} (hsk : skSeed.length = 40)
    (hsigma : sigma.length = 16) (hpk : pk.length = 2249) :
    let key := hqcSecretKeyFromString permute (hqcSecretKeyToString skSeed sigma pk)
    (∀ k < 17728, blockBit key.x k = hits (xPositions permute skSeed) k) ∧
      (∀ k < 17728, blockBit key.y k = hits (yPositions permute skSeed) k) ∧
      key.sigma = sigma ∧ key.pk = pk := by
  have hseed : (skSeed.take seedBytes).length = seedBytes := by
    rw [List.length_take, hsk]
    rfl
  have htake : skSeed.take seedBytes = skSeed := List.take_of_length_le hsk.le
  have hsig : sigma.take vecKSizeBytes = sigma := List.take_of_length_le hsigma.le
  have hpub : pk.take publicKeyBytes = pk := List.take_of_length_le hpk.le
  have hK : vecKSizeBytes = 16 := rfl
  obtain ⟨hmid, hlast⟩ := drop_append_append (c := pk.take publicKeyBytes) hseed
    (show (sigma.take vecKSizeBytes).length = vecKSizeBytes by rw [hsig, hsigma, hK])
  obtain ⟨hctx, -, hx⟩ := vectSetRandomFixedWeight_eq permute
    (seedexpanderInit permute skSeed) (show paramOmega ≤ 75 by decide)
  obtain ⟨-, -, hy⟩ := vectSetRandomFixedWeight_eq permute
    (drawIdx permute (seedexpanderInit permute skSeed) paramOmega).2
    (show paramOmega ≤ 75 by decide)
  rw [hqcSecretKeyFromString, hqcSecretKeyToString, take_append_append hseed, hmid, hlast, htake,
    hsig, hpub, hpub, xPositions, yPositions, htake]
  dsimp only
  rw [hctx]
  exact ⟨hx, hy, rfl, rfl⟩

theorem hqcPkeEncrypt_eq {m theta pk : List UInt8} {h s : List UInt64} (hm : m.length = 16)
    (hpk : hqcPublicKeyFromString permute pk = (h, s)) :
    hqcPkeEncrypt permute m theta pk =
      (masked h (r2Positions permute theta) (r1Positions permute theta),
        (vectAdd (codeEncode m ++ [0])
          (masked s (r2Positions permute theta) (ePositions permute theta))).take 276) := by
  have hlen := length_codeEncode hm
  rw [hqcPkeEncrypt, hpk]
  dsimp only
  rw [vectResize_up hlen, vectResize_down hlen]
  rfl

theorem length_hqcPkeEncrypt {m : List UInt8} (theta pk : List UInt8) (hm : m.length = 16) :
    (hqcPkeEncrypt permute m theta pk).1.length = 277 ∧
      (hqcPkeEncrypt permute m theta pk).2.length = 276 := by
  cases hpk : hqcPublicKeyFromString permute pk with
  | mk h s =>
    rw [hqcPkeEncrypt_eq permute hm hpk]
    dsimp only
    exact ⟨length_masked _ _ _, length_cipher (length_codeEncode hm) _ _ _⟩

/-- Decryption gives what the code makes of the codeword and the noise. -/
theorem hqcPkeDecrypt_encrypt {skSeed sigma pkSeed m : List UInt8} (theta : List UInt8)
    (hsk : skSeed.length = 40) (hsigma : sigma.length = 16) (hpk : pkSeed.length = 40)
    (hm : m.length = 16) :
    let keys := hqcPkeKeygen permute skSeed sigma pkSeed
    let uv := hqcPkeEncrypt permute m theta keys.1
    hqcPkeDecrypt permute uv.1 uv.2 keys.2 =
      (codeDecode (vectAdd (codeEncode m) (ciphertextNoise permute skSeed pkSeed theta)),
        sigma) := by
  have hs := inner_publicSyndrome permute skSeed pkSeed
  have hlen := length_codeEncode hm
  obtain ⟨-, hy, hsig, -⟩ := secretKey_from_to permute hsk hsigma (length_publicKey hpk hs.length)
  have hperm := supportOf_perm (positions_y permute skSeed) hy
  have hsize : (supportOf (hqcSecretKeyFromString permute (hqcSecretKeyToString skSeed sigma
      (hqcPublicKeyToString pkSeed (publicSyndrome permute skSeed pkSeed)))).y).length =
        paramOmega :=
    hperm.length_eq.trans (positions_y permute skSeed).length
  rw [hqcPkeKeygen_eq]
  dsimp only
  rw [hqcPkeEncrypt_eq permute hm (publicKey_from_to permute hpk hs), hqcPkeDecrypt]
  dsimp only
  rw [hsig, hsize, Nat.sub_self, List.replicate_zero, List.append_nil,
    gf2xMulDenseSparse_perm (length_masked _ _ _) hperm, vectResize_up (length_cipher hlen _ _ _),
    ← codeDecode_take, publicSyndrome, take_decoded hlen]
  rfl

/-- Decryption hands the codeword and a noise to the code. At all but a few places the noise is the
one of the scheme, of `x`, `y`, `r1`, `r2` and `e` alone. -/
theorem hqcPke_noise (skSeed sigma pkSeed m theta : List UInt8) (hsk : skSeed.length = 40)
    (hsigma : sigma.length = 16) (hpk : pkSeed.length = 40) (hm : m.length = 16) :
    let keys := hqcPkeKeygen permute skSeed sigma pkSeed
    let uv := hqcPkeEncrypt permute m theta keys.1
    let noise := ciphertextNoise permute skSeed pkSeed theta
    hqcPkeDecrypt permute uv.1 uv.2 keys.2 =
        (codeDecode (vectAdd (codeEncode m) noise), sigma) ∧
      ((Finset.range 17664).filter (fun k ↦ blockBit noise k ≠
        ((productBit (onesAt (xPositions permute skSeed)) (r2Positions permute theta) k ^^
          productBit (onesAt (r1Positions permute theta)) (yPositions permute skSeed) k) ^^
            hits (ePositions permute theta) k))).card ≤ 59 * (66 + 75) := by
  have hlen : (yPositions permute skSeed ++ r2Positions permute theta).length = 66 + 75 := by
    rw [List.length_append, (positions_y permute skSeed).length,
      (positions_r2 permute theta).length]
    rfl
  have hsub := noise_subset (length_publicVector permute pkSeed) (xPositions permute skSeed)
    (yPositions permute skSeed) (r1Positions permute theta) (r2Positions permute theta)
      (ePositions permute theta)
  have hcard := (Finset.card_le_card hsub).trans (card_beyondAll_le _)
  rw [hlen] at hcard
  exact ⟨hqcPkeDecrypt_encrypt permute theta hsk hsigma hpk hm, hcard⟩

theorem hqcPke_noise_keccak :
    hqcPkeDecrypt keccakF1600StatePermute
      (hqcPkeEncrypt keccakF1600StatePermute (List.replicate 16 1) (List.replicate 64 2)
        (hqcPkeKeygen keccakF1600StatePermute (List.replicate 40 3) (List.replicate 16 4)
          (List.replicate 40 5)).1).1
      (hqcPkeEncrypt keccakF1600StatePermute (List.replicate 16 1) (List.replicate 64 2)
        (hqcPkeKeygen keccakF1600StatePermute (List.replicate 40 3) (List.replicate 16 4)
          (List.replicate 40 5)).1).2
      (hqcPkeKeygen keccakF1600StatePermute (List.replicate 40 3) (List.replicate 16 4)
        (List.replicate 40 5)).2 =
    (codeDecode (vectAdd (codeEncode (List.replicate 16 1)) (ciphertextNoise
      keccakF1600StatePermute (List.replicate 40 3) (List.replicate 40 5) (List.replicate 64 2))),
      List.replicate 16 4) :=
  (hqcPke_noise keccakF1600StatePermute (List.replicate 40 3) (List.replicate 16 4)
    (List.replicate 40 5) (List.replicate 16 1) (List.replicate 64 2) List.length_replicate
      List.length_replicate List.length_replicate List.length_replicate).1

/-- Public keys and ciphertexts are read as they were written, and a ciphertext of the right length
is written as it was read. -/
theorem hqcStrings_round_trip (pkSeed salt ct : List UInt8) (s u v : List UInt64)
    (hpk : pkSeed.length = 40) (hs : Inner s) (hu : Inner u) (hv : v.length = 276)
    (hsalt : salt.length = 16) (hct : ct.length = 4433) :
    hqcPublicKeyFromString permute (hqcPublicKeyToString pkSeed s) =
        (publicVector permute pkSeed, s) ∧
      hqcCiphertextFromString (hqcCiphertextToString u v salt) = ⟨u, v, salt⟩ ∧
      hqcCiphertextToString (hqcCiphertextFromString ct).u (hqcCiphertextFromString ct).v
        (hqcCiphertextFromString ct).salt = ct :=
  ⟨publicKey_from_to permute hpk hs, ciphertext_from_to hu hv hsalt, ciphertext_to_from hct⟩

theorem inner_zeros : Inner (List.replicate 277 0) :=
  ⟨List.length_replicate, fun k _ _ ↦ blockBit_replicate_zero 277 k⟩

theorem hqcStrings_round_trip_zeros :
    hqcPublicKeyFromString keccakF1600StatePermute
        (hqcPublicKeyToString (List.replicate 40 1) (List.replicate 277 0)) =
        (publicVector keccakF1600StatePermute (List.replicate 40 1), List.replicate 277 0) ∧
      hqcCiphertextFromString (hqcCiphertextToString (List.replicate 277 0) (List.replicate 276 7)
        (List.replicate 16 2)) =
          ⟨List.replicate 277 0, List.replicate 276 7, List.replicate 16 2⟩ ∧
      hqcCiphertextToString (hqcCiphertextFromString (List.replicate 4433 9)).u
        (hqcCiphertextFromString (List.replicate 4433 9)).v
          (hqcCiphertextFromString (List.replicate 4433 9)).salt = List.replicate 4433 9 :=
  hqcStrings_round_trip keccakF1600StatePermute (List.replicate 40 1) (List.replicate 16 2)
    (List.replicate 4433 9) (List.replicate 277 0) (List.replicate 277 0) (List.replicate 276 7)
      List.length_replicate inner_zeros inner_zeros List.length_replicate List.length_replicate
        List.length_replicate

end

end KemtlsMavlink.Hqc
