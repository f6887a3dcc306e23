import KemtlsMavlink.Session.Crypto

namespace KemtlsMavlink.Sha256

def rotr32 (x c : UInt32) : UInt32 := (x >>> c) ||| (x <<< (32 - c))

def ch (x y z : UInt32) : UInt32 := (x &&& y) ^^^ (~~~x &&& z)
def maj (x y z : UInt32) : UInt32 := (x &&& y) ^^^ (x &&& z) ^^^ (y &&& z)

def bigSigma0 (x : UInt32) : UInt32 := rotr32 x 2 ^^^ rotr32 x 13 ^^^ rotr32 x 22
def bigSigma1 (x : UInt32) : UInt32 := rotr32 x 6 ^^^ rotr32 x 11 ^^^ rotr32 x 25
def sigma0 (x : UInt32) : UInt32 := rotr32 x 7 ^^^ rotr32 x 18 ^^^ (x >>> 3)
def sigma1 (x : UInt32) : UInt32 := rotr32 x 17 ^^^ rotr32 x 19 ^^^ (x >>> 10)

structure Working where
  a : UInt32
  b : UInt32
  c : UInt32
  d : UInt32
  e : UInt32
  f : UInt32
  g : UInt32
  h : UInt32

def round (s : Working) (w k : UInt32) : Working :=
  let t1 := s.h + bigSigma1 s.e + ch s.e s.f s.g + k + w
  let t2 := bigSigma0 s.a + maj s.a s.b s.c
  ⟨t1 + t2, s.a, s.b, s.c, s.d + t1, s.e, s.f, s.g⟩

def roundConstants : List UInt32 :=
  [0x428a2f98, 0x71374491, 0xb5c0fbcf, 0xe9b5dba5, 0x3956c25b, 0x59f111f1, 0x923f82a4, 0xab1c5ed5,
    0xd807aa98, 0x12835b01, 0x243185be, 0x550c7dc3, 0x72be5d74, 0x80deb1fe, 0x9bdc06a7, 0xc19bf174,
    0xe49b69c1, 0xefbe4786, 0x0fc19dc6, 0x240ca1cc, 0x2de92c6f, 0x4a7484aa, 0x5cb0a9dc, 0x76f988da,
    0x983e5152, 0xa831c66d, 0xb00327c8, 0xbf597fc7, 0xc6e00bf3, 0xd5a79147, 0x06ca6351, 0x14292967,
    0x27b70a85, 0x2e1b2138, 0x4d2c6dfc, 0x53380d13, 0x650a7354, 0x766a0abb, 0x81c2c92e, 0x92722c85,
    0xa2bfe8a1, 0xa81a664b, 0xc24b8b70, 0xc76c51a3, 0xd192e819, 0xd6990624, 0xf40e3585, 0x106aa070,
    0x19a4c116, 0x1e376c08, 0x2748774c, 0x34b0bcb5, 0x391c0cb3, 0x4ed8aa4a, 0x5b9cca4f, 0x682e6ff3,
    0x748f82ee, 0x78a5636f, 0x84c87814, 0x8cc70208, 0x90befffa, 0xa4506ceb, 0xbef9a3f7, 0xc67178f2]

/-- The rounds over a window of 16 schedule words: each round uses the first
word and pushes the one that `EXPAND_32` puts in its place. -/
def rounds : List UInt32 → Working → List UInt32 → Working
  | k :: ks, s, w :: ws =>
    let next := sigma1 (ws.getD 13 0) + ws.getD 8 0 + sigma0 (ws.getD 0 0) + w
    rounds ks (round s w k) (ws ++ [next])
  | _, s, _ => s

def loadBigendian32 : List UInt8 → List UInt32
  | x0 :: x1 :: x2 :: x3 :: xs =>
    (x3.toUInt32 ||| (x2.toUInt32 <<< 8) ||| (x1.toUInt32 <<< 16) ||| (x0.toUInt32 <<< 24)) ::
      loadBigendian32 xs
  | _ => []

def hashblock (s : Working) (block : List UInt8) : Working :=
  let t := rounds roundConstants s (loadBigendian32 block)
  ⟨t.a + s.a, t.b + s.b, t.c + s.c, t.d + s.d, t.e + s.e, t.f + s.f, t.g + s.g, t.h + s.h⟩

def hashblocks : Nat → Working → List UInt8 → Working
  | 0, s, _ => s
  | n + 1, s, bytes => hashblocks n (hashblock s (bytes.take 64)) (bytes.drop 64)

def iv256 : Working :=
  ⟨0x6a09e667, 0xbb67ae85, 0x3c6ef372, 0xa54ff53a, 0x510e527f, 0x9b05688c, 0x1f83d9ab, 0x5be0cd19⟩

/-- The last block or two: the rest of the message, `0x80`, zeros and the
length in bits. -/
def padded (rest : List UInt8) (bytes : UInt64) : List UInt8 :=
  let zeros := if rest.length < 56 then 55 - rest.length else 119 - rest.length
  let len := [(bytes >>> 53).toUInt8, (bytes >>> 45).toUInt8, (bytes >>> 37).toUInt8,
    (bytes >>> 29).toUInt8, (bytes >>> 21).toUInt8, (bytes >>> 13).toUInt8, (bytes >>> 5).toUInt8,
    (bytes <<< 3).toUInt8]
  rest ++ 0x80 :: List.replicate zeros 0 ++ len

def Working.bytes (s : Working) : Bytes 32 :=
  let words := #v[s.a, s.b, s.c, s.d, s.e, s.f, s.g, s.h]
  Vector.ofFn fun i ↦
    (words.get ⟨i.val / 4, by omega⟩ >>> UInt32.ofNat (24 - 8 * (i.val % 4))).toUInt8

end Sha256

open Sha256

/-- The vendored hash function; the model of the session takes it as a
parameter. -/
def sha256 (msg : List UInt8) : Bytes 32 :=
  let n := msg.length / 64
  let tail := padded (msg.drop (64 * n)) (UInt64.ofNat msg.length)
  (hashblocks (tail.length / 64) (hashblocks n iv256 msg) tail).bytes

end KemtlsMavlink
