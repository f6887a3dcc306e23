import KemtlsMavlink.Library.ConstantTime
import KemtlsMavlink.Library.Gf2
import Mathlib.Logic.Function.Iterate

namespace KemtlsMavlink.Hqc

open Library

def paramM : Nat := 8
def paramGfPoly : UInt16 := 0x11D
def paramGfPolyWt : Nat := 5
def paramGfPolyM2 : Nat := 4

/-- `gf_exp`: the powers of 2. -/
def gfExp : List UInt16 :=
  [1, 2, 4, 8, 16, 32, 64, 128, 29, 58, 116, 232, 205, 135, 19, 38, 76, 152, 45, 90, 180, 117,
    234, 201, 143, 3, 6, 12, 24, 48, 96, 192, 157, 39, 78, 156, 37, 74, 148, 53, 106, 212, 181,
    119, 238, 193, 159, 35, 70, 140, 5, 10, 20, 40, 80, 160, 93, 186, 105, 210, 185, 111, 222,
    161, 95, 190, 97, 194, 153, 47, 94, 188, 101, 202, 137, 15, 30, 60, 120, 240, 253, 231, 211,
    187, 107, 214, 177, 127, 254, 225, 223, 163, 91, 182, 113, 226, 217, 175, 67, 134, 17, 34, 68,
    136, 13, 26, 52, 104, 208, 189, 103, 206, 129, 31, 62, 124, 248, 237, 199, 147, 59, 118, 236,
    197, 151, 51, 102, 204, 133, 23, 46, 92, 184, 109, 218, 169, 79, 158, 33, 66, 132, 21, 42, 84,
    168, 77, 154, 41, 82, 164, 85, 170, 73, 146, 57, 114, 228, 213, 183, 115, 230, 209, 191, 99,
    198, 145, 63, 126, 252, 229, 215, 179, 123, 246, 241, 255, 227, 219, 171, 75, 150, 49, 98,
    196, 149, 55, 110, 220, 165, 87, 174, 65, 130, 25, 50, 100, 200, 141, 7, 14, 28, 56, 112, 224,
    221, 167, 83, 166, 81, 162, 89, 178, 121, 242, 249, 239, 195, 155, 43, 86, 172, 69, 138, 9,
    18, 36, 72, 144, 61, 122, 244, 245, 247, 243, 251, 235, 203, 139, 11, 22, 44, 88, 176, 125,
    250, 233, 207, 131, 27, 54, 108, 216, 173, 71, 142, 1, 2, 4]

/-- `gf_log`, with 0 at 0. -/
def gfLog : List UInt16 :=
  [0, 0, 1, 25, 2, 50, 26, 198, 3, 223, 51, 238, 27, 104, 199, 75, 4, 100, 224, 14, 52, 141,
    239, 129, 28, 193, 105, 248, 200, 8, 76, 113, 5, 138, 101, 47, 225, 36, 15, 33, 53, 147, 142,
    218, 240, 18, 130, 69, 29, 181, 194, 125, 106, 39, 249, 185, 201, 154, 9, 120, 77, 228, 114,
    166, 6, 191, 139, 98, 102, 221, 48, 253, 226, 152, 37, 179, 16, 145, 34, 136, 54, 208, 148,
    206, 143, 150, 219, 189, 241, 210, 19, 92, 131, 56, 70, 64, 30, 66, 182, 163, 195, 72, 126,
    110, 107, 58, 40, 84, 250, 133, 186, 61, 202, 94, 155, 159, 10, 21, 121, 43, 78, 212, 229,
    172, 115, 243, 167, 87, 7, 112, 192, 247, 140, 128, 99, 13, 103, 74, 222, 237, 49, 197, 254,
    24, 227, 165, 153, 119, 38, 184, 180, 124, 17, 68, 146, 217, 35, 32, 137, 46, 55, 63, 209, 91,
    149, 188, 207, 205, 144, 135, 151, 178, 220, 252, 190, 97, 242, 86, 211, 171, 20, 42, 93, 158,
    132, 60, 57, 83, 71, 109, 65, 162, 31, 45, 67, 216, 183, 123, 164, 118, 196, 23, 73, 236, 127,
    12, 111, 246, 108, 161, 59, 82, 41, 157, 85, 170, 251, 96, 134, 177, 187, 204, 62, 90, 203,
    89, 95, 176, 156, 169, 160, 81, 11, 245, 22, 235, 122, 117, 44, 215, 79, 174, 213, 233, 230,
    231, 173, 232, 116, 214, 244, 234, 168, 80, 88, 175]

def trailingZeroBitsCount (a : UInt16) : UInt16 :=
  ((List.range 14).foldl (fun (s : UInt16 × UInt16) i ↦
    let clear := 1 - ((a >>> UInt16.ofNat i) &&& 0x0001)
    (s.1 + (clear &&& s.2), s.2 &&& (0 - clear))) (0, 0xFFFF)).1

structure GfReduction where
  x : UInt64
  mod : UInt64
  rmdr : UInt16
  z1 : UInt16

def GfReduction.next (s : GfReduction) : GfReduction :=
  let z2 := trailingZeroBitsCount s.rmdr
  let mod := s.mod <<< (z2 - s.z1).toUInt64
  ⟨s.x ^^^ mod, mod, s.rmdr ^^^ (1 <<< z2), z2⟩

def gfReduceStep (x : UInt64) : UInt64 :=
  let mod := x >>> UInt64.ofNat paramM
  let s : GfReduction :=
    ⟨(x &&& ((1 <<< UInt64.ofNat paramM) - 1)) ^^^ mod, mod, paramGfPoly ^^^ 1, 0⟩
  (GfReduction.next^[paramGfPolyWt - 2] s).x

def gfReduce (x : UInt64) (degX : Nat) : UInt16 :=
  let steps := (degX - (paramM - 1) + paramGfPolyM2 - 1) / paramGfPolyM2
  (gfReduceStep^[steps] x).toUInt16

/-- The multiples of `b`, without its highest bit, by the polynomials of degree 1. -/
def gfWindow (b : UInt8) : List UInt16 :=
  let u1 := (b &&& 0x7F).toUInt16
  let u2 := u1 <<< 1
  [0, u1, u2, u2 ^^^ u1]

def gfSelect (u : List UInt16) (tmp1 : UInt32) : UInt16 :=
  (List.range 4).foldl (fun g i ↦
    let tmp2 := tmp1 - UInt32.ofNat i
    let sign : UInt32 := (tmp2 ||| (0 - tmp2)) >>> 31
    let mask := 0 - (1 - sign)
    g ^^^ ((u.getD i 0).toUInt32 &&& mask).toUInt16) 0

/-- `gf_carryless_mul`: the low byte of the product and the high one. -/
def gfCarrylessMul (a b : UInt8) : UInt8 × UInt8 :=
  let u := gfWindow b
  let g := gfSelect u (a &&& 3).toUInt32
  let (l, h) := [2, 4, 6].foldl (fun (s : UInt16 × UInt16) i ↦
    let g := gfSelect u ((a >>> UInt8.ofNat i) &&& 3).toUInt32
    (s.1 ^^^ (g <<< UInt16.ofNat i), s.2 ^^^ (g >>> UInt16.ofNat (8 - i)))) (g, 0)
  let top : UInt16 := b.toUInt16 >>> 7
  let mask := 0 - (top &&& 1)
  let l := l ^^^ ((a.toUInt16 <<< 7) &&& mask)
  let h := h ^^^ ((a.toUInt16 >>> 1) &&& mask)
  (l.toUInt8, h.toUInt8)

def gfMul (a b : UInt16) : UInt16 :=
  let c := gfCarrylessMul a.toUInt8 b.toUInt8
  let tmp := c.1.toUInt16 ^^^ (c.2.toUInt16 <<< 8)
  gfReduce tmp.toUInt64 (2 * (paramM - 1))

def gfSquare (a : UInt16) : UInt16 :=
  let b := a.toUInt32
  let (_, s) := (List.range' 1 (paramM - 1)).foldl (fun (t : UInt32 × UInt32) i ↦
    let b := t.1 <<< 1
    (b, t.2 ^^^ (b &&& (1 <<< UInt32.ofNat (2 * i))))) (b, b &&& 1)
  gfReduce s.toUInt64 (2 * (paramM - 1))

def gfInverse (a : UInt16) : UInt16 :=
  let inv := gfSquare a
  let tmp1 := gfMul inv a
  let inv := gfSquare inv
  let tmp2 := gfMul inv tmp1
  let tmp1 := gfMul inv tmp2
  let inv := gfMul tmp1 inv
  let inv := gfSquare inv
  let inv := gfSquare inv
  let inv := gfSquare inv
  let inv := gfMul inv tmp2
  gfSquare inv

end KemtlsMavlink.Hqc
