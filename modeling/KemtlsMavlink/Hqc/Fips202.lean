import Mathlib.Data.List.Basic

namespace KemtlsMavlink.Hqc

def load64 (x : List UInt8) : UInt64 :=
  (List.range 8).foldl (fun r i ↦ r ||| ((x.getD i 0).toUInt64 <<< UInt64.ofNat (8 * i))) 0

def store64 (u : UInt64) : List UInt8 :=
  (List.range 8).map (fun i ↦ (u >>> UInt64.ofNat (8 * i)).toUInt8)

def xorByte (s : List UInt64) (j : Nat) (b : UInt8) : List UInt64 :=
  s.modify (j >>> 3) (· ^^^ (b.toUInt64 <<< UInt64.ofNat (8 * (j &&& 7))))

def byteAt (s : List UInt64) (j : Nat) : UInt8 :=
  (s.getD (j >>> 3) 0 >>> UInt64.ofNat (8 * (j &&& 7))).toUInt8

def xorBytes (s : List UInt64) (pos n : Nat) (m : List UInt8) : List UInt64 :=
  (List.range n).foldl (fun s i ↦ xorByte s (pos + i) (m.getD i 0)) s

/-- `s_inc`, with its 26th word apart. -/
structure KeccakInc where
  s : List UInt64
  pos : Nat

def keccakIncInit : KeccakInc := ⟨List.replicate 25 0, 0⟩

def keccakIncFinalize (r : Nat) (p : UInt8) (t : KeccakInc) : KeccakInc :=
  ⟨xorByte (xorByte t.s t.pos p) (r - 1) 128, 0⟩

def xorBlock (r : Nat) (s : List UInt64) (m : List UInt8) : List UInt64 :=
  (List.range (r / 8)).foldl (fun s i ↦ s.modify i (· ^^^ load64 (m.drop (8 * i)))) s

def shake256Rate : Nat := 136

section

variable (permute : List UInt64 → List UInt64)

def keccakIncAbsorb (r : Nat) (t : KeccakInc) (m : List UInt8) : KeccakInc :=
  if 0 < r ∧ r ≤ m.length + t.pos then
    keccakIncAbsorb r ⟨permute (xorBytes t.s t.pos (r - t.pos) m), 0⟩ (m.drop (r - t.pos))
  else ⟨xorBytes t.s t.pos m.length m, t.pos + m.length⟩
termination_by m.length + t.pos
decreasing_by
  rw [List.length_drop]
  omega

def keccakIncSqueezeBlocks (r outlen : Nat) (t : KeccakInc) : List UInt8 × KeccakInc :=
  if 0 < r ∧ 0 < outlen then
    let s := permute t.s
    let i := min outlen r
    let rest := keccakIncSqueezeBlocks r (outlen - i) ⟨s, r - i⟩
    ((List.range i).map (byteAt s) ++ rest.1, rest.2)
  else ([], t)
termination_by outlen

def keccakIncSqueeze (r outlen : Nat) (t : KeccakInc) : List UInt8 × KeccakInc :=
  let i := min outlen t.pos
  let rest := keccakIncSqueezeBlocks permute r (outlen - i) ⟨t.s, t.pos - i⟩
  ((List.range i).map (fun i ↦ byteAt t.s (r - t.pos + i)) ++ rest.1, rest.2)

def keccakAbsorbBlocks (r : Nat) (s : List UInt64) (m : List UInt8) : List UInt64 × List UInt8 :=
  if 0 < r ∧ r ≤ m.length then
    keccakAbsorbBlocks r (permute (xorBlock r s m)) (m.drop r)
  else (s, m)
termination_by m.length
decreasing_by
  rw [List.length_drop]
  omega

def keccakAbsorb (r : Nat) (m : List UInt8) (p : UInt8) : List UInt64 :=
  let (s, m) := keccakAbsorbBlocks permute r (List.replicate 25 0) m
  let t := (m ++ List.replicate (r - m.length) 0).set m.length p
  xorBlock r s (t.modify (r - 1) (· ||| 128))

def keccakSqueezeblocks (r : Nat) : Nat → List UInt64 → List UInt8 × List UInt64
  | 0, s => ([], s)
  | nblocks + 1, s =>
    let s := permute s
    let rest := keccakSqueezeblocks r nblocks s
    ((List.range (r >>> 3)).flatMap (fun i ↦ store64 (s.getD i 0)) ++ rest.1, rest.2)

def shake256 (outlen : Nat) (input : List UInt8) : List UInt8 :=
  let nblocks := outlen / shake256Rate
  let s := keccakAbsorb permute shake256Rate input 0x1F
  let (output, s) := keccakSqueezeblocks permute shake256Rate nblocks s
  let outlen := outlen - nblocks * shake256Rate
  if outlen = 0 then output
  else output ++ (keccakSqueezeblocks permute shake256Rate 1 s).1.take outlen

def shake256IncAbsorb (t : KeccakInc) (input : List UInt8) : KeccakInc :=
  keccakIncAbsorb permute shake256Rate t input

def shake256IncFinalize (t : KeccakInc) : KeccakInc := keccakIncFinalize shake256Rate 0x1F t

def shake256IncSqueeze (outlen : Nat) (t : KeccakInc) : List UInt8 × KeccakInc :=
  keccakIncSqueeze permute shake256Rate outlen t

def shake256_512Ds (input : List UInt8) (domain : UInt8) : List UInt8 :=
  let state := shake256IncAbsorb permute keccakIncInit input
  let state := shake256IncAbsorb permute state [domain]
  (shake256IncSqueeze permute (512 / 8) (shake256IncFinalize state)).1

def seedexpanderDomain : UInt8 := 2

def seedexpanderInit (seed : List UInt8) : KeccakInc :=
  let state := shake256IncAbsorb permute keccakIncInit seed
  shake256IncFinalize (shake256IncAbsorb permute state [seedexpanderDomain])

def seedexpander (outlen : Nat) (state : KeccakInc) : List UInt8 × KeccakInc :=
  let bsize := 8
  let remainder := outlen % bsize
  let (output, state) := shake256IncSqueeze permute (outlen - remainder) state
  if remainder ≠ 0 then
    let (tmp, state) := shake256IncSqueeze permute bsize state
    (output ++ tmp.take remainder, state)
  else (output, state)

end

end KemtlsMavlink.Hqc
