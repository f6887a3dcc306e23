import KemtlsMavlink.Hqc.ReedMuller
import KemtlsMavlink.Hqc.Vector

namespace KemtlsMavlink.Hqc

def vecKSizeBytes : Nat := paramK
def seedBytes : Nat := 40
def saltSizeBytes : Nat := 16
def publicKeyBytes : Nat := 2249
def gFctDomain : UInt8 := 3
def kFctDomain : UInt8 := 4

section

variable (permute : List UInt64 → List UInt64)

def hqcSecretKeyToString (skSeed sigma pk : List UInt8) : List UInt8 :=
  skSeed.take seedBytes ++ sigma.take vecKSizeBytes ++ pk.take publicKeyBytes

structure SecretKey where
  x : List UInt64
  y : List UInt64
  sigma : List UInt8
  pk : List UInt8

def hqcSecretKeyFromString (sk : List UInt8) : SecretKey :=
  let skSeedexpander := seedexpanderInit permute (sk.take seedBytes)
  let x := vectSetRandomFixedWeight permute skSeedexpander paramOmega
  let y := vectSetRandomFixedWeight permute x.2 paramOmega
  ⟨x.1, y.1, (sk.drop seedBytes).take vecKSizeBytes,
    (sk.drop (seedBytes + vecKSizeBytes)).take publicKeyBytes⟩

def hqcPublicKeyToString (pkSeed : List UInt8) (s : List UInt64) : List UInt8 :=
  pkSeed.take seedBytes ++ store8Arr vecNSizeBytes s

/-- `PQCLEAN_HQC128_CLEAN_hqc_public_key_from_string`: `h` and `s`. -/
def hqcPublicKeyFromString (pk : List UInt8) : List UInt64 × List UInt64 :=
  let pkSeedexpander := seedexpanderInit permute (pk.take seedBytes)
  ((vectSetRandom permute pkSeedexpander).1,
    load8Arr vecNSize64 ((pk.drop seedBytes).take vecNSizeBytes))

def hqcCiphertextToString (u v : List UInt64) (salt : List UInt8) : List UInt8 :=
  store8Arr vecNSizeBytes u ++ store8Arr vecN1N2SizeBytes v ++ salt.take saltSizeBytes

structure Ciphertext where
  u : List UInt64
  v : List UInt64
  salt : List UInt8

def hqcCiphertextFromString (ct : List UInt8) : Ciphertext :=
  ⟨load8Arr vecNSize64 (ct.take vecNSizeBytes),
    load8Arr vecN1N2Size64 ((ct.drop vecNSizeBytes).take vecN1N2SizeBytes),
    (ct.drop (vecNSizeBytes + vecN1N2SizeBytes)).take saltSizeBytes⟩

/-- `vect_set_random_fixed_weight_idx` as its callers use it: the array is zero before the call, and
the result of the call is not looked at. -/
def drawIdx (ctx : KeccakInc) (weight : Nat) : List UInt16 × KeccakInc :=
  let idx := vectSetRandomFixedWeightIdx permute ctx weight
  (idx.1.getD (List.replicate weight 0), idx.2)

/-- `PQCLEAN_HQC128_CLEAN_hqc_pke_keygen`, with what `randombytes` gives: the public key and the
secret key. -/
def hqcPkeKeygen (skSeed sigma pkSeed : List UInt8) : List UInt8 × List UInt8 :=
  let skSeedexpander := seedexpanderInit permute (skSeed.take seedBytes)
  let pkSeedexpander := seedexpanderInit permute (pkSeed.take seedBytes)
  let xIdx := drawIdx permute skSeedexpander paramOmega
  let yIdx := drawIdx permute xIdx.2 paramOmega
  let h := (vectSetRandom permute pkSeedexpander).1
  let s := vectAddSparse (gf2xMulDenseSparse h yIdx.1) xIdx.1
  let pk := hqcPublicKeyToString pkSeed s
  (pk, hqcSecretKeyToString skSeed sigma pk)

/-- `PQCLEAN_HQC128_CLEAN_hqc_pke_encrypt`: `u` and `v`. -/
def hqcPkeEncrypt (m theta pk : List UInt8) : List UInt64 × List UInt64 :=
  let vecSeedexpander := seedexpanderInit permute (theta.take seedBytes)
  let hs := hqcPublicKeyFromString permute pk
  let r1Idx := drawIdx permute vecSeedexpander paramOmegaR
  let r2Idx := drawIdx permute r1Idx.2 paramOmegaR
  let eIdx := drawIdx permute r2Idx.2 paramOmegaE
  let u := vectAddSparse (gf2xMulDenseSparse hs.1 r2Idx.1) r1Idx.1
  let v := codeEncode m
  let tmp1 := vectResize (List.replicate vecNSize64 0) paramN v paramN1N2
  let tmp2 := vectAddSparse (gf2xMulDenseSparse hs.2 r2Idx.1) eIdx.1
  let tmp2 := vectAdd tmp1 tmp2
  (u, vectResize v paramN1N2 tmp2 paramN)

def supportOf (y : List UInt64) : List UInt16 :=
  ((List.range (vecNSize64 * 64)).filter (fun k ↦
    ((y.getD (k / 64) 0) >>> UInt64.ofNat (k % 64)) &&& 1 ≠ 0)).take paramOmega |>.map UInt16.ofNat

/-- `PQCLEAN_HQC128_CLEAN_hqc_pke_decrypt`: the message and `sigma`. -/
def hqcPkeDecrypt (u v : List UInt64) (sk : List UInt8) : List UInt8 × List UInt8 :=
  let key := hqcSecretKeyFromString permute sk
  let tmp1 := vectResize (List.replicate vecNSize64 0) paramN v paramN1N2
  let yIdx := supportOf key.y
  let yIdx := yIdx ++ List.replicate (paramOmega - yIdx.length) 0
  let tmp2 := vectAdd tmp1 (gf2xMulDenseSparse u yIdx)
  (codeDecode tmp2, key.sigma)

/-- The shared secret: the hash of `mc`. -/
def sharedSecret (m : List UInt8) (u v : List UInt64) : List UInt8 :=
  shake256_512Ds permute (m ++ store8Arr vecNSizeBytes u ++ store8Arr vecN1N2SizeBytes v) kFctDomain

/-- `PQCLEAN_HQC128_CLEAN_crypto_kem_enc`, with what `randombytes` gives: the ciphertext and the
shared secret. -/
def cryptoKemEnc (m salt pk : List UInt8) : List UInt8 × List UInt8 :=
  let theta := shake256_512Ds permute (m ++ pk ++ salt) gFctDomain
  let uv := hqcPkeEncrypt permute m theta pk
  (hqcCiphertextToString uv.1 uv.2 salt, sharedSecret permute m uv.1 uv.2)

/-- `PQCLEAN_HQC128_CLEAN_crypto_kem_dec`: the shared secret and the result. -/
def cryptoKemDec (ct sk : List UInt8) : List UInt8 × Int :=
  let c := hqcCiphertextFromString ct
  let pk := (sk.drop (seedBytes + vecKSizeBytes)).take publicKeyBytes
  let msigma := hqcPkeDecrypt permute c.u c.v sk
  let theta := shake256_512Ds permute (msigma.1 ++ pk ++ c.salt) gFctDomain
  let uv := hqcPkeEncrypt permute msigma.1 theta pk
  let result := (0 : UInt8) ||| vectCompare (wordBytes c.u) (wordBytes uv.1) vecNSizeBytes |||
    vectCompare (wordBytes c.v) (wordBytes uv.2) vecN1N2SizeBytes
  let result := result - 1
  let mc := List.zipWith (fun m s ↦ (m &&& result) ^^^ (s &&& ~~~result)) msigma.1 msigma.2
  (sharedSecret permute mc c.u c.v, ((result &&& 1).toNat : Int) - 1)

end

end KemtlsMavlink.Hqc
