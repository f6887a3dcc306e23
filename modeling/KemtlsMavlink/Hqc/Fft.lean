import KemtlsMavlink.Hqc.Gf

namespace KemtlsMavlink.Hqc

def paramFft : Nat := 4
def paramGfMulOrder : Nat := 255

def computeFftBetas : List UInt16 :=
  (List.range (paramM - 1)).map (fun i ↦ 1 <<< UInt16.ofNat (paramM - 1 - i))

def computeSubsetSums (set : List UInt16) : List UInt16 :=
  set.foldl (fun sums a ↦ sums ++ sums.map (a ^^^ ·)) [0]

/-- `radix`, and `radix_big` from `m_f = 5` on. -/
def radix : Nat → List UInt16 → List UInt16 × List UInt16
  | 4, f =>
    let f := fun i ↦ f.getD i 0
    let f04 := f 8 ^^^ f 12
    let f06 := f 12 ^^^ f 14
    let f07 := f 14 ^^^ f 15
    let f15 := f 11 ^^^ f 13
    let f16 := f 13 ^^^ f 14
    let f17 := f 15
    let f05 := f 10 ^^^ f 12 ^^^ f15
    let f14 := f 9 ^^^ f 13 ^^^ f05
    let f00 := f 0
    let f13 := f 7 ^^^ f 11 ^^^ f 15
    let f03 := f 6 ^^^ f 10 ^^^ f 14 ^^^ f13
    let f02 := f 4 ^^^ f04 ^^^ f03 ^^^ f13
    let f11 := f 3 ^^^ f 5 ^^^ f 9 ^^^ f 13 ^^^ f13
    let f12 := f 3 ^^^ f11 ^^^ f03
    let f01 := f 2 ^^^ f02 ^^^ f11
    let f10 := f 1 ^^^ f01
    ([f00, f01, f02, f03, f04, f05, f06, f07], [f10, f11, f12, f13, f14, f15, f16, f17])
  | 3, f =>
    let f := fun i ↦ f.getD i 0
    let f00 := f 0
    let f02 := f 4 ^^^ f 6
    let f03 := f 6 ^^^ f 7
    let f11 := f 3 ^^^ f 5 ^^^ f 7
    let f12 := f 5 ^^^ f 6
    let f13 := f 7
    let f01 := f 2 ^^^ f02 ^^^ f11
    let f10 := f 1 ^^^ f01
    ([f00, f01, f02, f03], [f10, f11, f12, f13])
  | 2, f =>
    let f := fun i ↦ f.getD i 0
    let f01 := f 2 ^^^ f 3
    ([f 0, f01], [f 1 ^^^ f01, f 3])
  | 1, f => ([f.getD 0 0], [f.getD 1 0])
  | 0, _ => ([], [])
  | m + 1, f =>
    let n := 2 ^ (m - 1)
    let part := fun i ↦ (f.drop (i * n)).take n
    let q := List.zipWith (· ^^^ ·) (part 3) (part 2)
    let r := List.zipWith (· ^^^ ·) (part 1) q
    let (q0, q1) := radix m (q ++ part 3)
    let (r0, r1) := radix m (part 0 ++ r)
    (r0 ++ q0, r1 ++ q1)

def twistFrom (beta : UInt16) : UInt16 → List UInt16 → List UInt16
  | _, [] => []
  | betaMPow, a :: f =>
    let betaMPow := gfMul betaMPow beta
    gfMul betaMPow a :: twistFrom beta betaMPow f

def twist (beta : UInt16) (f : List UInt16) : List UInt16 :=
  if beta ≠ 1 then f.take 1 ++ twistFrom beta 1 (f.drop 1) else f

/-- Step 6: the values at the sums and at the sums with the last element added. -/
def fftCombine (gammasSums u v : List UInt16) : List UInt16 :=
  let w := (List.range gammasSums.length).map (fun i ↦
    if i = 0 then u.getD 0 0 else u.getD i 0 ^^^ gfMul (gammasSums.getD i 0) (v.getD i 0))
  w ++ List.zipWith (· ^^^ ·) v w

def fftCombineConst (gammasSums u : List UInt16) (c : UInt16) : List UInt16 :=
  let w := (List.range gammasSums.length).map (fun i ↦
    if i = 0 then u.getD 0 0 else u.getD i 0 ^^^ gfMul (gammasSums.getD i 0) c)
  w ++ w.map (· ^^^ c)

/-- `fft_rec`, on as many `betas` as `m` says. -/
def fftRec : Nat → List UInt16 → Nat → List UInt16 → List UInt16
  | 0, _, _, _ => []
  | 1, f, _, betas =>
    (betas.map (gfMul · (f.getD 1 0))).foldl (fun w t ↦ w ++ w.map (· ^^^ t)) [f.getD 0 0]
  | mf + 1, f, fCoeffs, betas =>
    let last := betas.getLastD 0
    let (f0, f1) := radix (mf + 1) (twist last f)
    let gammas := betas.dropLast.map (fun b ↦ gfMul b (gfInverse last))
    let deltas := gammas.map (fun g ↦ gfSquare g ^^^ g)
    let gammasSums := computeSubsetSums gammas
    let u := fftRec mf f0 ((fCoeffs + 1) / 2) deltas
    if fCoeffs ≤ 3 then fftCombineConst gammasSums u (f1.getD 0 0)
    else fftCombine gammasSums u (fftRec mf f1 (fCoeffs / 2) deltas)

def fft (f : List UInt16) (fCoeffs : Nat) : List UInt16 :=
  let betas := computeFftBetas
  let (f0, f1) := radix paramFft f
  let deltas := betas.map (fun b ↦ gfSquare b ^^^ b)
  let u := fftRec (paramFft - 1) f0 ((fCoeffs + 1) / 2) deltas
  let v := fftRec (paramFft - 1) f1 (fCoeffs / 2) deltas
  fftCombine (computeSubsetSums betas) u v

def isRoot (w : UInt16) : UInt8 := ((1 : UInt16) ^^^ ((0 : UInt16) - w) >>> 15).toUInt8

/-- The places that `fft_retrieve_error_poly` flips, each with the bit added to it. -/
def errorFlips (w : List UInt16) : List (Nat × UInt8) :=
  let gammasSums := computeSubsetSums computeFftBetas
  let k := 2 ^ (paramM - 1)
  [(0, isRoot (w.getD 0 0)), (0, isRoot (w.getD k 0))] ++
    (List.range' 1 (k - 1)).flatMap (fun i ↦
      let gamma := gammasSums.getD i 0
      [(paramGfMulOrder - (gfLog.getD gamma.toNat 0).toNat, isRoot (w.getD i 0)),
        (paramGfMulOrder - (gfLog.getD (gamma ^^^ 1).toNat 0).toNat, isRoot (w.getD (k + i) 0))])

def fftRetrieveErrorPoly (error : List UInt8) (w : List UInt16) : List UInt8 :=
  (errorFlips w).foldl (fun error flip ↦ error.modify flip.1 (· ^^^ flip.2)) error

end KemtlsMavlink.Hqc
