import KemtlsMavlink.Library.XorStream
import KemtlsMavlink.Session.Crypto
import Mathlib.Logic.Function.Iterate
import Mathlib.Tactic.SplitIfs

namespace KemtlsMavlink

open Library

def rotl32 (x n : UInt32) : UInt32 := (x <<< n) ||| (x >>> (32 - n))

abbrev ChaChaState := Vector UInt32 16

def quarterRound (s : ChaChaState) (a b c d : Fin 16) : ChaChaState :=
  let s := s.set a (s[a] + s[b])
  let s := s.set d (s[d] ^^^ s[a])
  let s := s.set d (rotl32 s[d] 16)
  let s := s.set c (s[c] + s[d])
  let s := s.set b (s[b] ^^^ s[c])
  let s := s.set b (rotl32 s[b] 12)
  let s := s.set a (s[a] + s[b])
  let s := s.set d (s[d] ^^^ s[a])
  let s := s.set d (rotl32 s[d] 8)
  let s := s.set c (s[c] + s[d])
  let s := s.set b (s[b] ^^^ s[c])
  s.set b (rotl32 s[b] 7)

def loadLe32 (p : List UInt8) (off : Nat) : UInt32 :=
  (p.getD off 0).toUInt32 ||| ((p.getD (off + 1) 0).toUInt32 <<< 8) |||
    ((p.getD (off + 2) 0).toUInt32 <<< 16) ||| ((p.getD (off + 3) 0).toUInt32 <<< 24)

def storeLe32 (v : UInt32) : List UInt8 :=
  [v.toUInt8, (v >>> 8).toUInt8, (v >>> 16).toUInt8, (v >>> 24).toUInt8]

def chachaState (key : Bytes 32) (nonce : Bytes 12) (counter : UInt32) : ChaChaState :=
  (#v[0x61707865, 0x3320646e, 0x79622d32, 0x6b206574] : Vector UInt32 4) ++
    (Vector.range 8).map (fun i ↦ loadLe32 key.toList (4 * i)) ++ #v[counter] ++
    (Vector.range 3).map (fun i ↦ loadLe32 nonce.toList (4 * i))

def doubleRound (s : ChaChaState) : ChaChaState :=
  let s := quarterRound s 0 4 8 12
  let s := quarterRound s 1 5 9 13
  let s := quarterRound s 2 6 10 14
  let s := quarterRound s 3 7 11 15
  let s := quarterRound s 0 5 10 15
  let s := quarterRound s 1 6 11 12
  let s := quarterRound s 2 7 8 13
  quarterRound s 3 4 9 14

@[irreducible] def chacha20Block (key : Bytes 32) (nonce : Bytes 12) (counter : UInt32) :
    List UInt8 :=
  let state := chachaState key nonce counter
  let working := doubleRound^[10] state
  (List.finRange 16).flatMap fun i ↦ storeLe32 (working[i] + state[i])

example : (chacha20Block (Bytes.zeros 32) (Bytes.zeros 12) 0).take 8 =
    [0x76, 0xb8, 0xe0, 0xad, 0xa0, 0xf1, 0x3d, 0x90] := by decide +kernel

variable (key : Bytes 32) (nonce : Bytes 12)

/-- The loop of `chacha20_xor`; `out` holds the first `off` bytes of the output. -/
def chacha20XorLoop (input out : List UInt8) (off : Nat) (counter : UInt32) : List UInt8 :=
  if _h : off < input.length then
    let block := chacha20Block key nonce counter
    let chunk := if input.length - off < 64 then input.length - off else 64
    chacha20XorLoop input
      (out ++ (List.range chunk).map fun i ↦ input.getD (off + i) 0 ^^^ block.getD i 0)
      (off + chunk) (counter + 1)
  else out
termination_by input.length - off
decreasing_by split_ifs <;> omega

def chacha20Xor (counter : UInt32) (input : List UInt8) : List UInt8 :=
  chacha20XorLoop key nonce input [] 0 counter

def blockCounterForOffset (byteOffsetInMessage : UInt32) : UInt32 := byteOffsetInMessage / 64

def keystream (counter : UInt32) (o : Nat) : UInt8 :=
  (chacha20Block key nonce (counter + UInt32.ofNat (o / 64))).getD (o % 64) 0

variable {key nonce}

theorem keystream_add (counter : UInt32) (k o : Nat) :
    keystream key nonce counter (64 * k + o) =
      keystream key nonce (counter + UInt32.ofNat k) o := by
  have hdiv : (64 * k + o) / 64 = k + o / 64 := by omega
  have hmod : (64 * k + o) % 64 = o % 64 := by omega
  rw [keystream, keystream, hdiv, hmod, UInt32.ofNat_add, UInt32.add_assoc]

theorem chunk_eq (input : List UInt8) (off : Nat) (counter : UInt32) {chunk : Nat}
    (h : chunk ≤ 64) (hl : chunk ≤ input.length - off) :
    ((List.range chunk).map fun i ↦
        input.getD (off + i) 0 ^^^ (chacha20Block key nonce counter).getD i 0) =
      xorStream (keystream key nonce counter) ((input.drop off).take chunk) := by
  apply List.ext_getElem?
  intro i
  rw [getElem?_xorStream, List.getElem?_take, List.getElem?_drop, List.getElem?_map]
  split_ifs with hi
  · have hdiv : i / 64 = 0 := Nat.div_eq_of_lt (by omega)
    have hmod : i % 64 = i := Nat.mod_eq_of_lt (by omega)
    have hin : off + i < input.length := by omega
    rw [List.getElem?_range hi, List.getElem?_eq_getElem hin, Option.map_some, Option.map_some,
      List.getD_eq_getElem?_getD, List.getElem?_eq_getElem hin, keystream, hdiv, hmod]
    simp
  · simp [Nat.not_lt.mp hi]

/-- What the loop has still to do is the rest of the message under the keystream from the
present counter on. -/
theorem chacha20XorLoop_eq (input out : List UInt8) (off : Nat) (counter : UInt32) :
    chacha20XorLoop key nonce input out off counter =
      out ++ xorStream (keystream key nonce counter) (input.drop off) := by
  induction out, off, counter using chacha20XorLoop.induct key nonce input with
  | case1 out off counter hlt block chunk ih =>
    have hchunk : chunk ≤ 64 ∧ chunk ≤ input.length - off ∧
        (chunk = 64 ∨ chunk = input.length - off) := by
      dsimp only [chunk]
      split_ifs <;> omega
    rw [chacha20XorLoop, dif_pos hlt]
    refine ih.trans ?_
    obtain ⟨hle, hin, hend⟩ := hchunk
    rw [chunk_eq input off counter hle hin, List.append_assoc]
    congr 1
    have hcut : input.drop off = (input.drop off).take chunk ++ input.drop (off + chunk) := by
      rw [← List.drop_drop, List.take_append_drop]
    have hlen : ((input.drop off).take chunk).length = chunk := by
      rw [List.length_take, List.length_drop, Nat.min_eq_left hin]
    conv_rhs => rw [hcut, xorStream_append, hlen]
    congr 1
    rcases hend with h64 | hrest
    · apply xorStream_congr
      intro o
      rw [h64]
      exact (keystream_add counter 1 o).symm
    · have hnil : input.drop (off + chunk) = [] := List.drop_of_length_le (by omega)
      rw [hnil, xorStream_nil, xorStream_nil]
  | case2 out off counter hge =>
    rw [chacha20XorLoop, dif_neg hge, List.drop_of_length_le (Nat.not_lt.mp hge), xorStream_nil,
      List.append_nil]

theorem chacha20Xor_eq (counter : UInt32) (input : List UInt8) :
    chacha20Xor key nonce counter input = xorStream (keystream key nonce counter) input := by
  rw [chacha20Xor, chacha20XorLoop_eq, List.nil_append, List.drop_zero]

theorem chacha20Xor_cut (counter : UInt32) (input : List UInt8) (k : Nat) :
    chacha20Xor key nonce counter input =
      chacha20Xor key nonce counter (input.take (64 * k)) ++
        chacha20Xor key nonce (counter + UInt32.ofNat k) (input.drop (64 * k)) := by
  simp only [chacha20Xor_eq]
  conv_lhs => rw [← List.take_append_drop (64 * k) input, xorStream_append]
  congr 1
  by_cases h : input.length ≤ 64 * k
  · rw [List.drop_of_length_le h, xorStream_nil, xorStream_nil]
  · rw [List.length_take, Nat.min_eq_left (Nat.le_of_not_le h)]
    exact xorStream_congr (keystream_add counter k)

/-- `chacha20_xor` works on every byte alone, is undone by itself, and may begin at any block;
and the counter of a block is the one that the nonce module has for its bytes. -/
theorem chacha20Xor_seekable (key : Bytes 32) (nonce : Bytes 12) (counter : UInt32)
    (input : List UInt8) :
    (∀ o, (chacha20Xor key nonce counter input)[o]? = input[o]?.map (· ^^^
        (chacha20Block key nonce (UInt32.ofNat (counter.toNat + o / 64))).getD (o % 64) 0)) ∧
      chacha20Xor key nonce counter (chacha20Xor key nonce counter input) = input ∧
      (∀ k, chacha20Xor key nonce counter input =
        chacha20Xor key nonce counter (input.take (64 * k)) ++
          chacha20Xor key nonce (counter + UInt32.ofNat k) (input.drop (64 * k))) ∧
      ∀ o : UInt32, (chacha20Xor key nonce 0 input)[o.toNat]? = input[o.toNat]?.map (· ^^^
        (chacha20Block key nonce (blockCounterForOffset o)).getD (o.toNat % 64) 0) := by
  refine ⟨fun o ↦ ?_, ?_, chacha20Xor_cut counter input, fun o ↦ ?_⟩
  · rw [chacha20Xor_eq, getElem?_xorStream, keystream, UInt32.ofNat_add, UInt32.ofNat_toNat]
  · rw [chacha20Xor_eq, chacha20Xor_eq, xorStream_xorStream]
  · have hblock : 0 + UInt32.ofNat (o.toNat / 64) = blockCounterForOffset o := by
      rw [UInt32.zero_add, blockCounterForOffset, ← UInt32.toNat_inj, UInt32.toNat_div]
      exact UInt32.toNat_ofNat_of_lt' (Nat.lt_of_le_of_lt (Nat.div_le_self ..) o.toNat_lt)
    rw [chacha20Xor_eq, getElem?_xorStream, keystream, hblock]

end KemtlsMavlink
