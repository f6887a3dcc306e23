import KemtlsMavlink.Hqc.ReedSolomon

namespace KemtlsMavlink.Hqc

def paramN2 : Nat := 384

def multiplicity : Nat := (paramN2 + 128 - 1) / 128

def bit0Mask (x : UInt8) : UInt32 := 0 - (x &&& 1).toUInt32

def rmEncode (message : UInt8) : List UInt64 :=
  let firstWord := bit0Mask (message >>> 7)
  let firstWord := firstWord ^^^ (bit0Mask (message >>> 0) &&& 0xaaaaaaaa)
  let firstWord := firstWord ^^^ (bit0Mask (message >>> 1) &&& 0xcccccccc)
  let firstWord := firstWord ^^^ (bit0Mask (message >>> 2) &&& 0xf0f0f0f0)
  let firstWord := firstWord ^^^ (bit0Mask (message >>> 3) &&& 0xff00ff00)
  let firstWord := firstWord ^^^ (bit0Mask (message >>> 4) &&& 0xffff0000)
  let cword0 := firstWord.toUInt64
  let firstWord := firstWord ^^^ bit0Mask (message >>> 5)
  let cword0 := cword0 ||| (firstWord.toUInt64 <<< 32)
  let firstWord := firstWord ^^^ bit0Mask (message >>> 6)
  let cword1 := firstWord.toUInt64 <<< 32
  let firstWord := firstWord ^^^ bit0Mask (message >>> 5)
  let cword1 := cword1 ||| firstWord.toUInt64
  [cword0, cword1]

def hadamardPass (p1 : List UInt16) : List UInt16 :=
  (List.range 64).map (fun i ↦ p1.getD (2 * i) 0 + p1.getD (2 * i + 1) 0) ++
    (List.range 64).map (fun i ↦ p1.getD (2 * i) 0 - p1.getD (2 * i + 1) 0)

def hadamard (src : List UInt16) : List UInt16 := hadamardPass^[7] src

def wordBit (src : List UInt64) (word bit : Nat) : UInt16 :=
  ((src.getD word 0 >>> UInt64.ofNat bit) &&& 1).toUInt16

def expandAndSum (src : List UInt64) : List UInt16 :=
  (List.range' 1 (multiplicity - 1)).foldl (fun dest copy ↦
    dest.mapIdx (fun i d ↦ d + wordBit src (2 * copy + i / 64) (i % 64)))
      ((List.range 128).map (fun i ↦ wordBit src (i / 64) (i % 64)))

structure Peak where
  peakAbs : UInt16
  peak : UInt16
  pos : UInt16

def Peak.next (s : Peak) (t : UInt16) (i : Nat) : Peak :=
  let abs := t ^^^ (((0 : UInt16) - (t >>> 15)) &&& (t ^^^ ((0 : UInt16) - t)))
  let mask := (0 : UInt16) - ((s.peakAbs - abs) >>> 15)
  ⟨s.peakAbs ^^^ (mask &&& (s.peakAbs ^^^ abs)), s.peak ^^^ (mask &&& (s.peak ^^^ t)),
    s.pos ^^^ (mask &&& (s.pos ^^^ UInt16.ofNat i))⟩

def findPeaks (transform : List UInt16) : UInt8 :=
  let s := (List.range 128).foldl (fun s i ↦ Peak.next s (transform.getD i 0) i) ⟨0, 0, 0⟩
  (s.pos ||| ((128 : UInt16) &&& ((s.peak >>> 15) - (1 : UInt16)))).toUInt8

def rmEncodeBlock (message : UInt8) : List UInt64 :=
  (List.replicate multiplicity (rmEncode message)).flatten

/-- The byte that a block of `reed_muller_decode` gives. -/
def rmDecodeBlock (src : List UInt64) : UInt8 :=
  let transform := hadamard (expandAndSum src)
  findPeaks (transform.set 0 (transform.getD 0 0 - UInt16.ofNat (64 * multiplicity)))

def reedMullerEncode (msg : List UInt8) : List UInt64 := msg.flatMap rmEncodeBlock

def reedMullerDecode (cdw : List UInt64) : List UInt8 :=
  (List.range paramN1).map (fun i ↦
    rmDecodeBlock ((cdw.drop (2 * i * multiplicity)).take (2 * multiplicity)))

def codeEncode (m : List UInt8) : List UInt64 := reedMullerEncode (reedSolomonEncode m)

def codeDecode (em : List UInt64) : List UInt8 := reedSolomonDecode (reedMullerDecode em)

end KemtlsMavlink.Hqc
