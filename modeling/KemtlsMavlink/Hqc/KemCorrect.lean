import KemtlsMavlink.Hqc.Incremental
import KemtlsMavlink.Hqc.PkeCorrect

namespace KemtlsMavlink.Hqc

open Library

theorem vectCompare_loop (v1 v2 : List UInt8) (n : Nat) :
    let r := (List.range n).foldl (fun (r : UInt16) i ↦
      r ||| (v1.getD i 0 ^^^ v2.getD i 0).toUInt16) 0x0100
    ∃ x : UInt8, r.toNat = 256 + x.toNat ∧ (x = 0 ↔ ∀ i < n, v1.getD i 0 = v2.getD i 0) := by
  induction n with
  | zero => exact ⟨0, rfl, fun _ i hi ↦ absurd hi (Nat.not_lt_zero i), fun _ ↦ rfl⟩
  | succ n ih =>
    obtain ⟨x, hr, hx⟩ := ih
    refine ⟨x ||| (v1.getD n 0 ^^^ v2.getD n 0), ?_, ?_⟩
    · have hpow : 256 + x.toNat = 2 ^ 8 * 1 + x.toNat := rfl
      rw [List.range_succ, List.foldl_concat, UInt16.toNat_or, hr, UInt8.toNat_toUInt16, hpow,
        Nat.two_pow_add_eq_or_of_lt x.toNat_lt, Nat.or_assoc, ← UInt8.toNat_or,
        ← Nat.two_pow_add_eq_or_of_lt (UInt8.toNat_lt _)]
    · have hor (a b : UInt8) : a ||| b = 0 ↔ a = 0 ∧ b = 0 := by
        rw [← UInt8.toNat_inj, ← UInt8.toNat_inj, ← UInt8.toNat_inj, UInt8.toNat_or]
        exact Nat.or_eq_zero_iff
      rw [hor, hx, UInt8.xor_eq_zero_iff]
      exact ⟨fun ⟨h, hn⟩ i hi ↦ (Nat.lt_succ_iff_lt_or_eq.mp hi).elim (h i) fun e ↦ e ▸ hn,
        fun h ↦ ⟨fun i hi ↦ h i (hi.trans n.lt_succ_self), h n n.lt_succ_self⟩⟩

theorem vectCompare_eq (v1 v2 : List UInt8) (n : Nat) :
    vectCompare v1 v2 n = if ∀ i < n, v1.getD i 0 = v2.getD i 0 then 0 else 1 := by
  obtain ⟨x, hr, hx⟩ := vectCompare_loop v1 v2 n
  have hlt := x.toNat_lt
  have h1 : (1 : UInt16).toNat = 1 := rfl
  have h8 : (8 : UInt16).toNat % 16 = 8 := rfl
  rw [vectCompare]
  generalize (List.range n).foldl (fun (r : UInt16) i ↦
    r ||| (v1.getD i 0 ^^^ v2.getD i 0).toUInt16) 0x0100 = r at hr ⊢
  have hsub : (r - 1).toNat = 255 + x.toNat := by
    rw [UInt16.toNat_sub_of_le _ _ (UInt16.le_iff_toNat_le.mpr (by omega)), hr, h1]
    omega
  rw [← UInt8.toNat_inj, UInt16.toNat_toUInt8, UInt16.toNat_shiftRight, hsub, h8,
    Nat.shiftRight_eq_div_pow]
  by_cases h : x = 0
  · rw [if_pos (hx.mp h), h]
    rfl
  · have hpos : x.toNat ≠ 0 := fun e ↦ h (UInt8.toNat_inj.mp e)
    rw [if_neg (fun e ↦ h (hx.mpr e)), UInt8.toNat_one]
    omega

theorem getD_store64 (w : UInt64) {k : Nat} (hk : k < 8) :
    (store64 w).getD k 0 = (w >>> UInt64.ofNat (8 * k)).toUInt8 := by
  rw [store64, List.getD_eq_getElem?_getD, List.getElem?_map, List.getElem?_range hk]
  rfl

theorem getD_wordBytes {v : List UInt64} {n k : Nat} (hn : n ≤ 8 * v.length) (hk : k < n) :
    (wordBytes v).getD k 0 = (store8Arr n v).getD k 0 := by
  have hstore : (store8Arr n v).getD k 0 =
      (v.getD (k / 8) 0 >>> UInt64.ofNat (k % 8 * 8)).toUInt8 := by
    rw [store8Arr, List.getD_eq_getElem?_getD, List.getElem?_map,
      List.getElem?_range (show k < min n (8 * v.length) by omega)]
    rfl
  rw [hstore]
  have hk8 : k < 8 * v.length := by omega
  clear hstore hn hk
  induction v generalizing k with
  | nil => exact absurd hk8 (Nat.not_lt_zero k)
  | cons w v ih =>
    have hlen : (store64 w).length = 8 := rfl
    rw [wordBytes, List.flatMap_cons]
    by_cases h : k < 8
    · have hd : k / 8 = 0 := by omega
      have hm : k % 8 = k := by omega
      rw [List.getD_append _ _ _ _ (by omega), getD_store64 w h, hd, hm, List.getD_cons_zero,
        Nat.mul_comm]
    · have hd : k / 8 = (k - 8) / 8 + 1 := by omega
      have hm : k % 8 = (k - 8) % 8 := by omega
      rw [List.length_cons] at hk8
      rw [List.getD_append_right _ _ _ _ (by omega), hlen, hd, hm, List.getD_cons_succ]
      exact ih (k := k - 8) (by omega)

theorem vectCompare_wordBytes {v w : List UInt64} {n : Nat} (hl : v.length = w.length)
    (hn : n ≤ 8 * v.length) : vectCompare (wordBytes v) (wordBytes w) n =
      if store8Arr n v = store8Arr n w then 0 else 1 := by
  have hv : (store8Arr n v).length = n := by
    rw [length_store8Arr]
    omega
  have hw : (store8Arr n w).length = n := by
    rw [length_store8Arr]
    omega
  have hiff : (∀ i < n, (wordBytes v).getD i 0 = (wordBytes w).getD i 0) ↔
      store8Arr n v = store8Arr n w := by
    refine ⟨fun h ↦ List.ext_getElem (hv.trans hw.symm) fun i h₁ h₂ ↦ ?_, fun h i hi ↦ ?_⟩
    · have hi := h i (by omega)
      rwa [getD_wordBytes hn (by omega), getD_wordBytes (hl ▸ hn) (by omega),
        List.getD_eq_getElem _ _ h₁, List.getD_eq_getElem _ _ h₂] at hi
    · rw [getD_wordBytes hn hi, getD_wordBytes (hl ▸ hn) hi, h]
  rw [vectCompare_eq]
  exact if_congr hiff rfl rfl

theorem length_codeDecode (em : List UInt64) : (codeDecode em).length = 16 := by
  have hlen : ∀ e, (correctErrors (reedMullerDecode em) e).length = 46 := fun e ↦ by
    rw [correctErrors, List.length_mapIdx, length_reedMullerDecode]
  rw [codeDecode, reedSolomonDecode, correctCodeword, List.length_take, List.length_drop, hlen]
  rfl

section

variable (permute : List UInt64 → List UInt64)

/-- The public key inside a secret key. -/
def publicKeyOf (sk : List UInt8) : List UInt8 :=
  (sk.drop (seedBytes + vecKSizeBytes)).take publicKeyBytes

theorem ciphertextToString_eq_iff {u u' : List UInt64} (v v' : List UInt64) (salt : List UInt8)
    (hu : u.length = 277) (hu' : u'.length = 277) :
    hqcCiphertextToString u v salt = hqcCiphertextToString u' v' salt ↔
      store8Arr vecNSizeBytes u = store8Arr vecNSizeBytes u' ∧
        store8Arr vecN1N2SizeBytes v = store8Arr vecN1N2SizeBytes v' := by
  have hlen : (store8Arr vecNSizeBytes u).length = (store8Arr vecNSizeBytes u').length := by
    rw [length_store8Arr, length_store8Arr, hu, hu']
  rw [hqcCiphertextToString, hqcCiphertextToString, List.append_left_inj]
  exact ⟨fun h ↦ List.append_inj h hlen, fun h ↦ by rw [h.1, h.2]⟩

theorem select_bytes (m s : List UInt8) (h : m.length = s.length) :
    List.zipWith (fun m s : UInt8 ↦ (m &&& 255) ^^^ (s &&& ~~~255)) m s = m ∧
      List.zipWith (fun m s : UInt8 ↦ (m &&& 0) ^^^ (s &&& ~~~0)) m s = s := by
  have hall (a b : UInt8) : (a &&& 255) ^^^ (b &&& ~~~255) = a := by
    have h0 : ~~~(255 : UInt8) = 0 := rfl
    have h1 : (255 : UInt8) = -1 := rfl
    rw [h0, h1, UInt8.and_neg_one, UInt8.and_zero, UInt8.xor_zero]
  have hnone (a b : UInt8) : (a &&& 0) ^^^ (b &&& ~~~0) = b := by
    have h1 : ~~~(0 : UInt8) = -1 := rfl
    rw [h1, UInt8.and_neg_one, UInt8.and_zero, UInt8.zero_xor]
  induction m generalizing s with
  | nil =>
    cases s with
    | nil => exact ⟨rfl, rfl⟩
    | cons b s => cases h
  | cons a m ih =>
    cases s with
    | nil => cases h
    | cons b s =>
      obtain ⟨h₁, h₂⟩ := ih s (Nat.succ_injective h)
      rw [List.zipWith_cons_cons, List.zipWith_cons_cons, h₁, h₂, hall, hnone]
      exact ⟨rfl, rfl⟩

theorem length_hqcPkeDecrypt (u v : List UInt64) {sk : List UInt8} (hsk : sk.length = 2305) :
    (hqcPkeDecrypt permute u v sk).1.length = 16 ∧
      (hqcPkeDecrypt permute u v sk).2.length = 16 := by
  rw [hqcPkeDecrypt]
  dsimp only
  refine ⟨length_codeDecode _, ?_⟩
  rw [hqcSecretKeyFromString, List.length_take, List.length_drop, hsk]
  rfl

theorem select_secret {u u' v v' : List UInt64} {m sigma : List UInt8} (hu : u.length = 277)
    (hu' : u'.length = 277) (hv : v.length = 276) (hv' : v'.length = 276)
    (hm : m.length = sigma.length) (salt : List UInt8) :
    let result := ((0 : UInt8) ||| vectCompare (wordBytes u) (wordBytes u') vecNSizeBytes |||
      vectCompare (wordBytes v) (wordBytes v') vecN1N2SizeBytes) - 1
    (sharedSecret permute
        (List.zipWith (fun m s ↦ (m &&& result) ^^^ (s &&& ~~~result)) m sigma) u v,
        ((result &&& 1).toNat : Int) - 1) =
      if hqcCiphertextToString u' v' salt = hqcCiphertextToString u v salt then
        (sharedSecret permute m u' v', 0)
      else (sharedSecret permute sigma u v, -1) := by
  have hcmpu := vectCompare_wordBytes (hu.trans hu'.symm) (n := vecNSizeBytes) (by rw [hu]; decide)
  have hcmpv := vectCompare_wordBytes (hv.trans hv'.symm) (n := vecN1N2SizeBytes)
    (by rw [hv]; decide)
  obtain ⟨hall, hnone⟩ := select_bytes m sigma hm
  have hiff := ciphertextToString_eq_iff v' v salt hu' hu
  have hone : ((0 : UInt8) ||| 1 ||| 0) - 1 = 0 ∧ ((0 : UInt8) ||| 0 ||| 1) - 1 = 0 ∧
      ((0 : UInt8) ||| 1 ||| 1) - 1 = 0 ∧ ((0 : UInt8) ||| 0 ||| 0) - 1 = 255 := by decide
  rw [hcmpu, hcmpv]
  dsimp only
  by_cases h₁ : store8Arr vecNSizeBytes u = store8Arr vecNSizeBytes u'
  · by_cases h₂ : store8Arr vecN1N2SizeBytes v = store8Arr vecN1N2SizeBytes v'
    · rw [if_pos h₁, if_pos h₂, if_pos (hiff.mpr ⟨h₁.symm, h₂.symm⟩), hone.2.2.2, hall,
        sharedSecret, sharedSecret, h₁, h₂]
      rfl
    · rw [if_pos h₁, if_neg h₂, if_neg fun h ↦ h₂ (hiff.mp h).2.symm, hone.2.1, hnone]
      rfl
  · rw [if_neg h₁, if_neg (fun h ↦ h₁ (hiff.mp h).1.symm)]
    split_ifs
    · rw [hone.1, hnone]
      rfl
    · rw [hone.2.2.1, hnone]
      rfl

/-- Decapsulation accepts the encapsulation of what it decrypts, and no other ciphertext. What it
does not accept gives a secret made of `sigma`. -/
theorem cryptoKemDec_eq {ct sk : List UInt8} (hct : ct.length = 4433) (hsk : sk.length = 2305) :
    let c := hqcCiphertextFromString ct
    let msigma := hqcPkeDecrypt permute c.u c.v sk
    let again := cryptoKemEnc permute msigma.1 c.salt (publicKeyOf sk)
    cryptoKemDec permute ct sk =
      if again.1 = ct then (again.2, 0) else (sharedSecret permute msigma.2 c.u c.v, -1) := by
  have hu : (hqcCiphertextFromString ct).u.length = 277 := length_load8Arr _ _
  have hv : (hqcCiphertextFromString ct).v.length = 276 := length_load8Arr _ _
  have hback := ciphertext_to_from hct
  obtain ⟨hm, hsigma⟩ := length_hqcPkeDecrypt permute (hqcCiphertextFromString ct).u
    (hqcCiphertextFromString ct).v hsk
  rw [cryptoKemDec]
  dsimp only
  rw [cryptoKemEnc, ← publicKeyOf]
  dsimp only
  generalize hqcCiphertextFromString ct = c at hu hv hback hm hsigma ⊢
  generalize hqcPkeDecrypt permute c.u c.v sk = msigma at hm hsigma ⊢
  obtain ⟨hu', hv'⟩ := length_hqcPkeEncrypt permute
    (shake256_512Ds permute (msigma.1 ++ publicKeyOf sk ++ c.salt) gFctDomain) (publicKeyOf sk) hm
  generalize hqcPkeEncrypt permute msigma.1
    (shake256_512Ds permute (msigma.1 ++ publicKeyOf sk ++ c.salt) gFctDomain)
      (publicKeyOf sk) = uv at hu' hv' ⊢
  have h := select_secret permute hu hu' hv hv' (hm.trans hsigma.symm) c.salt
  rwa [hback] at h

theorem accepts_iff {d : List UInt8 × Int} {p : Prop} [Decidable p] {s t : List UInt8}
    (h : d = if p then (s, 0) else (t, -1)) :
    (d.2 = 0 ↔ p) ∧ (p → d.1 = s) ∧ (¬p → d = (t, -1)) := by
  by_cases hp : p
  · rw [if_pos hp] at h
    rw [h]
    exact ⟨iff_of_true rfl hp, fun _ ↦ rfl, fun hn ↦ absurd hp hn⟩
  · rw [if_neg hp] at h
    rw [h]
    exact ⟨iff_of_false (show ¬(-1 : Int) = 0 by decide) hp, fun h ↦ absurd h hp, fun _ ↦ rfl⟩

/-- A ciphertext is accepted exactly when the message that it decrypts to encapsulates to it, with
the salt that it brings. A ciphertext that is not gives a secret made of `sigma`. -/
theorem cryptoKemDec_accepts_iff (ct sk : List UInt8) (hct : ct.length = 4433)
    (hsk : sk.length = 2305) :
    let c := hqcCiphertextFromString ct
    let msigma := hqcPkeDecrypt permute c.u c.v sk
    let again := cryptoKemEnc permute msigma.1 c.salt (publicKeyOf sk)
    ((cryptoKemDec permute ct sk).2 = 0 ↔ again.1 = ct) ∧
      (again.1 = ct → (cryptoKemDec permute ct sk).1 = again.2) ∧
      (¬again.1 = ct →
        cryptoKemDec permute ct sk = (sharedSecret permute msigma.2 c.u c.v, -1)) :=
  accepts_iff (cryptoKemDec_eq permute hct hsk)

theorem cryptoKemDec_accepts_iff_sevens :
    (cryptoKemDec keccakF1600StatePermute (List.replicate 4433 7) (List.replicate 2305 7)).2 = 0 ↔
      (cryptoKemEnc keccakF1600StatePermute
        (hqcPkeDecrypt keccakF1600StatePermute (hqcCiphertextFromString (List.replicate 4433 7)).u
          (hqcCiphertextFromString (List.replicate 4433 7)).v (List.replicate 2305 7)).1
        (hqcCiphertextFromString (List.replicate 4433 7)).salt
        (publicKeyOf (List.replicate 2305 7))).1 = List.replicate 4433 7 :=
  (cryptoKemDec_accepts_iff keccakF1600StatePermute (List.replicate 4433 7)
    (List.replicate 2305 7) List.length_replicate List.length_replicate).1

end

end KemtlsMavlink.Hqc
