import KemtlsMavlink.Hqc.Fips202

namespace KemtlsMavlink.Hqc

def paramN : Nat := 17669
def paramN1N2 : Nat := 17664
def paramOmega : Nat := 66
def paramOmegaE : Nat := 75
def paramOmegaR : Nat := 75
def vecNSizeBytes : Nat := (paramN + 8 - 1) / 8
def vecN1N2SizeBytes : Nat := (paramN1N2 + 8 - 1) / 8
def vecNSize64 : Nat := (paramN + 64 - 1) / 64
def vecN1N2Size64 : Nat := (paramN1N2 + 64 - 1) / 64
def redMask : UInt64 := 0x1f

def loadBytes (l : List UInt8) : UInt64 :=
  match l.reverse with
  | [] => 0
  | b :: bs => bs.foldl (fun ret b ↦ (ret <<< 8) ||| b.toUInt64) b.toUInt64

/-- `PQCLEAN_HQC128_CLEAN_load8_arr`, to an array of zeros. -/
def load8Arr : Nat → List UInt8 → List UInt64
  | 0, _ => []
  | outlen + 1, in8 =>
    if 8 ≤ in8.length then loadBytes (in8.take 8) :: load8Arr outlen (in8.drop 8)
    else loadBytes in8 :: List.replicate outlen 0

/-- `PQCLEAN_HQC128_CLEAN_store8_arr`: what it writes. -/
def store8Arr (outlen : Nat) (in64 : List UInt64) : List UInt8 :=
  (List.range (min outlen (8 * in64.length))).map (fun k ↦
    (in64.getD (k / 8) 0 >>> UInt64.ofNat (k % 8 * 8)).toUInt8)

def mVal : List UInt32 :=
  [243079, 243093, 243106, 243120, 243134, 243148, 243161, 243175, 243189, 243203, 243216, 243230,
    243244, 243258, 243272, 243285, 243299, 243313, 243327, 243340, 243354, 243368, 243382, 243396,
    243409, 243423, 243437, 243451, 243465, 243478, 243492, 243506, 243520, 243534, 243547, 243561,
    243575, 243589, 243603, 243616, 243630, 243644, 243658, 243672, 243686, 243699, 243713, 243727,
    243741, 243755, 243769, 243782, 243796, 243810, 243824, 243838, 243852, 243865, 243879, 243893,
    243907, 243921, 243935, 243949, 243962, 243976, 243990, 244004, 244018, 244032, 244046, 244059,
    244073, 244087, 244101]

def compareU32 (v1 v2 : UInt32) : UInt32 :=
  (1 : UInt32) ^^^ (((v1 - v2) ||| (v2 - v1)) >>> 31)

def singleBitMask (pos : UInt32) : UInt64 :=
  ((List.range 64).foldl (fun (s : UInt64 × UInt64) i ↦
    let tmp := pos.toUInt64 - UInt64.ofNat i
    let tmp := (0 : UInt64) - ((1 : UInt64) - ((tmp ||| (0 - tmp)) >>> 63))
    (s.1 ||| (s.2 &&& tmp), s.2 <<< 1)) (0, 1)).1

def condSub (r n : UInt32) : UInt32 :=
  let r := r - n
  let mask := (0 : UInt32) - (r >>> 31)
  r + (n &&& mask)

def reduce (a : UInt32) (i : Nat) : UInt32 :=
  let q := ((a.toUInt64 * (mVal.getD i 0).toUInt64) >>> 32).toUInt32
  let n := UInt32.ofNat (paramN - i)
  condSub (a - q * n) n

def randomWord (rand : List UInt8) (i : Nat) : UInt32 :=
  (rand.getD (4 * i) 0).toUInt32 ||| ((rand.getD (4 * i + 1) 0).toUInt32 <<< 8) |||
    ((rand.getD (4 * i + 2) 0).toUInt32 <<< 16) ||| ((rand.getD (4 * i + 3) 0).toUInt32 <<< 24)

def drawSupport (rand : List UInt8) (weight : Nat) : List UInt32 :=
  (List.range weight).map (fun i ↦ UInt32.ofNat i + reduce (randomWord rand i) i)

/-- A position that stands again behind itself is replaced by its place. -/
def replaceRepeated (weight : Nat) (support : List UInt32) (i : Nat) : List UInt32 :=
  let found := (List.range' (i + 1) (weight - (i + 1))).foldl (fun found j ↦
    found ||| compareU32 (support.getD j 0) (support.getD i 0)) 0
  let mask32 := (0 : UInt32) - found
  support.set i ((mask32 &&& UInt32.ofNat i) ^^^ (~~~mask32 &&& support.getD i 0))

/-- The positions of a random vector, from the last place to the first. The loop is the one of the
source for a weight that is not zero. -/
def fixedWeightSupport (rand : List UInt8) (weight : Nat) : List UInt32 :=
  (List.range (weight - 1)).reverse.foldl (replaceRepeated weight) (drawSupport rand weight)

def setSupport (support : List UInt32) (v : List UInt64) : List UInt64 :=
  (List.range vecNSize64).map (fun i ↦
    v.getD i 0 ||| support.foldl (fun (val : UInt64) (p : UInt32) ↦
      let tmp := UInt32.ofNat i - (p >>> (6 : UInt32))
      let tmp := (1 : UInt32) ^^^ ((tmp ||| ((0 : UInt32) - tmp)) >>> 31)
      let mask64 := (0 : UInt64) - tmp.toUInt64
      val ||| (singleBitMask (p &&& (0x3f : UInt32)) &&& mask64)) 0)

def vectAddSparse (u : List UInt64) (idx : List UInt16) : List UInt64 :=
  idx.foldl (fun (u : List UInt64) (p : UInt16) ↦
    u.modify (p.toUInt32 >>> (6 : UInt32)).toNat
      (· ^^^ singleBitMask (p.toUInt32 &&& (63 : UInt32)))) u

def vectAdd (v1 v2 : List UInt64) : List UInt64 := List.zipWith (· ^^^ ·) v1 v2

def wordBytes (v : List UInt64) : List UInt8 := v.flatMap store64

def vectCompare (v1 v2 : List UInt8) (size : Nat) : UInt8 :=
  let r := (List.range size).foldl (fun (r : UInt16) i ↦
    r ||| (v1.getD i 0 ^^^ v2.getD i 0).toUInt16) 0x0100
  ((r - 1) >>> 8).toUInt8

def copyWords (o v : List UInt64) (n : Nat) : List UInt64 := v.take n ++ o.drop n

def vectResize (o : List UInt64) (sizeO : Nat) (v : List UInt64) (sizeV : Nat) : List UInt64 :=
  if sizeO < sizeV then
    let val := if sizeO % 64 ≠ 0 then 64 - sizeO % 64 else 0
    (List.range val).foldl (fun o i ↦
      o.modify (vecN1N2Size64 - 1) (· &&& ((0x7FFFFFFFFFFFFFFF : UInt64) >>> UInt64.ofNat i)))
        (copyWords o v (vecN1N2SizeBytes / 8))
  else copyWords o v ((sizeV + 64 - 1) / 64)

def maskTop (a : List UInt64) : List UInt64 := a.modify (vecNSize64 - 1) (· &&& redMask)

def rotlExtractWindow (src : List UInt64) (rBits : Nat) : List UInt64 :=
  let r := rBits % paramN
  let s := r &&& 63
  let woff := r >>> 6
  let once := maskTop (src.take vecNSize64)
  let twice := once ++ once ++ [once.getD 0 0]
  maskTop ((List.range vecNSize64).map (fun i ↦
    if s = 0 then twice.getD (woff + i) 0
    else (twice.getD (woff + i) 0 <<< UInt64.ofNat s) |||
      (twice.getD (woff + i + 1) 0 >>> UInt64.ofNat (64 - s))))

def gf2xMulDenseSparse (u : List UInt64) (idx : List UInt16) : List UInt64 :=
  maskTop (idx.foldl (fun o r ↦ vectAdd o (rotlExtractWindow u r.toNat))
    (List.replicate vecNSize64 0))

section

variable (permute : List UInt64 → List UInt64)

/-- `PQCLEAN_HQC128_CLEAN_vect_set_random_fixed_weight`, to an array of zeros. -/
def vectSetRandomFixedWeight (ctx : KeccakInc) (weight : Nat) : List UInt64 × KeccakInc :=
  let (rand, ctx) := seedexpander permute (4 * weight) ctx
  (setSupport (fixedWeightSupport rand weight) (List.replicate vecNSize64 0), ctx)

def vectSetRandomFixedWeightIdx (ctx : KeccakInc) (weight : Nat) :
    Option (List UInt16) × KeccakInc :=
  if paramOmegaR < weight then (none, ctx)
  else
    let (rnd, ctx) := seedexpander permute (4 * weight) ctx
    (some ((fixedWeightSupport rnd weight).map UInt32.toUInt16), ctx)

def vectSetRandom (ctx : KeccakInc) : List UInt64 × KeccakInc :=
  let (rand, ctx) := seedexpander permute vecNSizeBytes ctx
  (maskTop (load8Arr vecNSize64 rand), ctx)

end

end KemtlsMavlink.Hqc
