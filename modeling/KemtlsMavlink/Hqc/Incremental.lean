import KemtlsMavlink.Hqc.Fips202
import KemtlsMavlink.Library.Sponge
import Mathlib.Data.Nat.Bitwise

namespace KemtlsMavlink.Hqc

open Library

def keccakSponge (permute : List UInt64 → List UInt64) (r : Nat) : Sponge (List UInt64) :=
  ⟨r, permute, xorByte, byteAt⟩

theorem shiftRight_word (i : Nat) {k : Nat} (hk : k < 8) : (8 * i + k) >>> 3 = i := by
  rw [Nat.shiftRight_eq_div_pow]
  omega

theorem and_seven (i : Nat) {k : Nat} (hk : k < 8) : (8 * i + k) &&& 7 = k := by
  have h := Nat.and_two_pow_sub_one_eq_mod (8 * i + k) 3
  refine h.trans ?_
  omega

theorem xorByte_word (s : List UInt64) (i : Nat) {k : Nat} (hk : k < 8) (b : UInt8) :
    xorByte s (8 * i + k) b = s.modify i (· ^^^ (b.toUInt64 <<< UInt64.ofNat (8 * k))) := by
  rw [xorByte, shiftRight_word i hk, and_seven i hk]

theorem byteAt_word (s : List UInt64) (i : Nat) {k : Nat} (hk : k < 8) :
    byteAt s (8 * i + k) = (s.getD i 0 >>> UInt64.ofNat (8 * k)).toUInt8 := by
  rw [byteAt, shiftRight_word i hk, and_seven i hk]

theorem modify_xor_zero (s : List UInt64) (i : Nat) : s.modify i (· ^^^ 0) = s := by
  have h : (fun w : UInt64 ↦ w ^^^ 0) = id := funext fun w ↦ UInt64.xor_zero
  rw [h, List.modify_id]

theorem modify_xor_xor (s : List UInt64) (i : Nat) (a b : UInt64) :
    (s.modify i (· ^^^ a)).modify i (· ^^^ b) = s.modify i (· ^^^ (a ^^^ b)) := by
  rw [List.modify_modify_eq]
  congr 1
  funext w
  exact UInt64.xor_assoc w a b

theorem or_eq_xor_byte {w : UInt64} {k : Nat} (hk : k < 8) (hw : w.toNat < 2 ^ (8 * k))
    (b : UInt8) : w ||| (b.toUInt64 <<< UInt64.ofNat (8 * k)) =
      w ^^^ (b.toUInt64 <<< UInt64.ofNat (8 * k)) ∧
    (w ||| (b.toUInt64 <<< UInt64.ofNat (8 * k))).toNat < 2 ^ (8 * (k + 1)) := by
  have hb := b.toNat_lt
  have hshift : (UInt64.ofNat (8 * k)).toNat % 64 = 8 * k := by
    rw [UInt64.toNat_ofNat']
    omega
  have hpow : 2 ^ (8 * (k + 1)) = 2 ^ 8 * 2 ^ (8 * k) := by rw [← Nat.pow_add]; congr 1; omega
  have hlt : b.toNat <<< (8 * k) < 2 ^ (8 * (k + 1)) := by
    rw [Nat.shiftLeft_eq, hpow]
    exact Nat.mul_lt_mul_of_pos_right hb (Nat.two_pow_pos _)
  have h64 : 2 ^ (8 * (k + 1)) ≤ 2 ^ 64 := Nat.pow_le_pow_right (by decide) (by omega)
  have hval : (b.toUInt64 <<< UInt64.ofNat (8 * k)).toNat = b.toNat <<< (8 * k) := by
    rw [UInt64.toNat_shiftLeft, hshift, UInt8.toNat_toUInt64, Nat.mod_eq_of_lt (hlt.trans_le h64)]
  have hk1 : 2 ^ (8 * k) ≤ 2 ^ (8 * (k + 1)) := Nat.pow_le_pow_right (by decide) (by omega)
  constructor
  · rw [← UInt64.toNat_inj, UInt64.toNat_or, UInt64.toNat_xor, hval]
    refine Nat.eq_of_testBit_eq fun j ↦ ?_
    rw [Nat.testBit_or, Nat.testBit_xor, Nat.testBit_shiftLeft]
    by_cases hj : 8 * k ≤ j
    · rw [Nat.testBit_lt_two_pow (hw.trans_le (Nat.pow_le_pow_right Nat.two_pos hj)),
        Bool.false_or, Bool.false_xor]
    · rw [decide_eq_false hj, Bool.false_and, Bool.or_false, Bool.xor_false]
  · rw [UInt64.toNat_or, hval]
    exact Nat.or_lt_two_pow (hw.trans_le hk1) hlt

theorem load64_bytes (x : List UInt8) {n : Nat} (hn : n ≤ 8) : ∀ (s : List UInt64) (i : Nat),
    (List.range n).foldl (fun s k ↦ xorByte s (8 * i + k) (x.getD k 0)) s =
      s.modify i (· ^^^ (List.range n).foldl (fun r k ↦
        r ||| ((x.getD k 0).toUInt64 <<< UInt64.ofNat (8 * k))) 0) ∧
    ((List.range n).foldl (fun r k ↦
      r ||| ((x.getD k 0).toUInt64 <<< UInt64.ofNat (8 * k))) (0 : UInt64)).toNat <
        2 ^ (8 * n) := by
  induction n with
  | zero => exact fun s i ↦ ⟨(modify_xor_zero s i).symm, Nat.one_pos⟩
  | succ n ih =>
    intro s i
    obtain ⟨hs, hlt⟩ := ih (by omega) s i
    obtain ⟨hor, hlt'⟩ := or_eq_xor_byte (show n < 8 by omega) hlt (x.getD n 0)
    rw [List.range_succ, List.foldl_append, List.foldl_append, hs]
    refine ⟨?_, hlt'⟩
    rw [List.foldl_cons, List.foldl_nil, xorByte_word _ _ (by omega), modify_xor_xor,
      List.foldl_cons, List.foldl_nil, hor]

theorem map_store64 (s : List UInt64) (i : Nat) :
    store64 (s.getD i 0) = (List.range 8).map (fun k ↦ byteAt s (8 * i + k)) :=
  List.map_congr_left fun _ hk ↦ (byteAt_word s i (List.mem_range.mp hk)).symm

section

variable (permute : List UInt64 → List UInt64) (r : Nat)

theorem xorBytes_eq (s : List UInt64) (pos : Nat) {n : Nat} {m : List UInt8} (hn : n ≤ m.length) :
    xorBytes s pos n m = (keccakSponge permute r).xorBytes s pos (m.take n) := by
  induction n with
  | zero => rfl
  | succ n ih =>
    have hlen : (m.take n).length = n := List.length_take_of_le (by omega)
    have hget : m.getD n 0 = m[n] := List.getD_eq_getElem _ _ hn
    rw [xorBytes, List.range_succ, List.foldl_append, List.foldl_cons, List.foldl_nil,
      ← xorBytes, ih (by omega), List.take_succ_eq_append_getElem hn, Sponge.xorBytes_append, hlen,
      hget]
    rfl

theorem xorBlock_words (s : List UInt64) {n : Nat} {m : List UInt8} (hn : 8 * n ≤ m.length) :
    (List.range n).foldl (fun s i ↦ s.modify i (· ^^^ load64 (m.drop (8 * i)))) s =
      (keccakSponge permute r).xorBytes s 0 (m.take (8 * n)) := by
  induction n with
  | zero => rfl
  | succ n ih =>
    have hlen : (m.take (8 * n)).length = 8 * n := List.length_take_of_le (by omega)
    have htake : m.take (8 * (n + 1)) = m.take (8 * n) ++ (m.drop (8 * n)).take 8 := by
      rw [Nat.mul_succ, List.take_add]
    have hdrop : 8 ≤ (m.drop (8 * n)).length := by
      rw [List.length_drop]
      omega
    rw [List.range_succ, List.foldl_append, ih (by omega), List.foldl_cons, List.foldl_nil, htake,
      Sponge.xorBytes_append, hlen, Nat.zero_add, ← xorBytes_eq permute r _ _ hdrop]
    exact ((load64_bytes (m.drop (8 * n)) le_rfl _ n).1).symm

theorem xorBlock_eq (s : List UInt64) {m : List UInt8} (hr : 8 ∣ r) (hm : r ≤ m.length) :
    xorBlock r s m = (keccakSponge permute r).xorBytes s 0 (m.take r) := by
  obtain ⟨n, rfl⟩ := hr
  have hdiv : 8 * n / 8 = n := by omega
  rw [xorBlock, hdiv, xorBlock_words permute (8 * n) s hm]

theorem keccakIncAbsorb_eq {t : KeccakInc} (ht : t.pos < r) (m : List UInt8) :
    keccakIncAbsorb permute r t m =
      ⟨((keccakSponge permute r).absorb (t.s, t.pos) m).1,
        ((keccakSponge permute r).absorb (t.s, t.pos) m).2⟩ := by
  induction t, m using keccakIncAbsorb.induct permute r with
  | case1 t m h ih =>
    have hn : r - t.pos ≤ m.length := by omega
    have hlen : (m.take (r - t.pos)).length = r - t.pos := List.length_take_of_le hn
    have hne : m.take (r - t.pos) ≠ [] := by
      intro h0
      rw [h0, List.length_nil] at hlen
      omega
    have hblock := (keccakSponge permute r).absorb_block t.s t.pos hne (by
      rw [hlen]
      exact Nat.add_sub_cancel' ht.le)
    rw [keccakIncAbsorb, if_pos h, ih (by exact h.1), xorBytes_eq permute r _ _ hn]
    conv_rhs => rw [← List.take_append_drop (r - t.pos) m, Sponge.absorb_append, hblock]
    rfl
  | case2 t m h =>
    have hlt : t.pos + m.length < r := by omega
    rw [keccakIncAbsorb, if_neg h, (keccakSponge permute r).absorb_of_lt t.s t.pos hlt,
      xorBytes_eq permute r _ _ le_rfl, List.take_length]

theorem keccakAbsorbBlocks_eq (hr : 8 ∣ r) (h0 : 0 < r) (s : List UInt64) (m : List UInt8) :
    (keccakAbsorbBlocks permute r s m).2.length < r ∧
      (keccakSponge permute r).absorb (s, 0) m = (keccakSponge permute r).absorb
        ((keccakAbsorbBlocks permute r s m).1, 0) (keccakAbsorbBlocks permute r s m).2 := by
  induction s, m using keccakAbsorbBlocks.induct permute r with
  | case1 s m h ih =>
    have hlen : (m.take r).length = r := List.length_take_of_le h.2
    have hne : m.take r ≠ [] := by
      intro h0
      rw [h0, List.length_nil] at hlen
      omega
    have hblock := (keccakSponge permute r).absorb_block s 0 hne (by
      rw [hlen]
      exact Nat.zero_add r)
    have hstep : (keccakSponge permute r).absorb (s, 0) m =
        (keccakSponge permute r).absorb (permute (xorBlock r s m), 0) (m.drop r) := by
      rw [xorBlock_eq permute r s hr h.2]
      conv_lhs => rw [← List.take_append_drop r m, Sponge.absorb_append, hblock]
      rfl
    rw [keccakAbsorbBlocks, if_pos h, hstep]
    exact ih
  | case2 s m h =>
    rw [keccakAbsorbBlocks, if_neg h]
    exact ⟨Nat.lt_of_not_le fun hle ↦ h ⟨h0, hle⟩, rfl⟩

theorem xorByte_zero (s : List UInt64) (j : Nat) : xorByte s j 0 = s := by
  have h0 : (0 : UInt8).toUInt64 = 0 := rfl
  rw [xorByte, h0, UInt64.zero_shiftLeft, modify_xor_zero]

theorem xorByte_or (s : List UInt64) (j : Nat) {p : UInt8} (hp : p.toNat < 128) :
    xorByte s j (p ||| 128) = xorByte (xorByte s j p) j 128 := by
  have hor : p ||| 128 = p ^^^ 128 := by
    rw [← UInt8.toNat_inj, UInt8.toNat_or, UInt8.toNat_xor]
    refine Nat.eq_of_testBit_eq fun i ↦ ?_
    have h128 : (128 : UInt8).toNat = 2 ^ 7 := rfl
    rw [Nat.testBit_or, Nat.testBit_xor, h128, Nat.testBit_two_pow]
    by_cases hi : 7 = i
    · rw [← hi, Nat.testBit_lt_two_pow hp, Bool.false_or, Bool.false_xor]
    · rw [decide_eq_false hi, Bool.or_false, Bool.xor_false]
  have hshift : ∀ n : UInt64, (p ^^^ 128).toUInt64 <<< n =
      (p.toUInt64 <<< n) ^^^ ((128 : UInt8).toUInt64 <<< n) := fun n ↦ by
    rw [UInt8.toUInt64_xor, UInt64.shiftLeft_xor]
  rw [xorByte, xorByte, xorByte, modify_xor_xor, hor, hshift]

theorem xorBytes_zeros (s : List UInt64) (pos n : Nat) :
    (keccakSponge permute r).xorBytes s pos (List.replicate n 0) = s := by
  induction n generalizing pos with
  | zero => rfl
  | succ n ih =>
    rw [List.replicate_succ, Sponge.xorBytes]
    exact (congrArg (fun s ↦ (keccakSponge permute r).xorBytes s (pos + 1) _)
      (xorByte_zero s pos)).trans (ih (pos + 1))

theorem modify_concat (l : List UInt8) (a : UInt8) (f : UInt8 → UInt8) :
    (l ++ [a]).modify l.length f = l ++ [f a] := by
  induction l with
  | nil => rfl
  | cons b l ih => rw [List.cons_append, List.length_cons, List.modify_succ_cons, ih,
      List.cons_append]

theorem xorBytes_padded (s : List UInt64) {m : List UInt8} (hm : m.length < r) {p : UInt8}
    (hp : p.toNat < 128) : (keccakSponge permute r).xorBytes s 0
      (((m ++ List.replicate (r - m.length) 0).set m.length p).modify (r - 1) (· ||| 128)) =
        xorByte (xorByte ((keccakSponge permute r).xorBytes s 0 m) m.length p) (r - 1) 128 := by
  obtain ⟨k, hk⟩ : ∃ k, r = m.length + (k + 1) := ⟨r - m.length - 1, by omega⟩
  have hset : (m ++ List.replicate (r - m.length) 0).set m.length p =
      m ++ p :: List.replicate k 0 := by
    rw [show r - m.length = k + 1 by omega, List.set_append_right _ _ le_rfl, Nat.sub_self,
      List.replicate_succ, List.set_cons_zero]
  rw [hset]
  cases k with
  | zero =>
    have hlast : r - 1 = m.length := by omega
    rw [List.replicate_zero, hlast, modify_concat, Sponge.xorBytes_append, Nat.zero_add]
    exact xorByte_or _ _ hp
  | succ k =>
    have hlist : m ++ p :: List.replicate (k + 1) 0 = (m ++ p :: List.replicate k 0) ++ [0] := by
      rw [List.replicate_succ', List.append_assoc, List.cons_append]
    have hlast : r - 1 = (m ++ p :: List.replicate k 0).length := by
      rw [List.length_append, List.length_cons, List.length_replicate]
      omega
    have hzero : (0 : UInt8) ||| 128 = 128 := rfl
    have hmid : (keccakSponge permute r).xorBytes ((keccakSponge permute r).xorBytes s 0 m)
        m.length (p :: List.replicate k 0) =
          xorByte ((keccakSponge permute r).xorBytes s 0 m) m.length p :=
      xorBytes_zeros permute r _ (m.length + 1) k
    rw [hlist, hlast, modify_concat, hzero, Sponge.xorBytes_append, Sponge.xorBytes_append,
      Nat.zero_add, Nat.zero_add, hmid]
    rfl

/-- The message absorbed and padded, in both ways. -/
theorem keccakAbsorb_eq (hr : 8 ∣ r) (h0 : 0 < r) (m : List UInt8) {p : UInt8}
    (hp : p.toNat < 128) : keccakAbsorb permute r m p =
      (keccakIncFinalize r p (keccakIncAbsorb permute r keccakIncInit m)).s := by
  obtain ⟨hlt, habs⟩ := keccakAbsorbBlocks_eq permute r hr h0 (List.replicate 25 0) m
  have hrest := (keccakSponge permute r).absorb_of_lt
    (keccakAbsorbBlocks permute r (List.replicate 25 0) m).1 0
    (m := (keccakAbsorbBlocks permute r (List.replicate 25 0) m).2) (by rwa [Nat.zero_add])
  have hinit : (keccakSponge permute r).absorb (keccakIncInit.s, keccakIncInit.pos) m =
      (keccakSponge permute r).absorb (List.replicate 25 0, 0) m := rfl
  have hlen : r ≤ (((keccakAbsorbBlocks permute r (List.replicate 25 0) m).2 ++ List.replicate
      (r - (keccakAbsorbBlocks permute r (List.replicate 25 0) m).2.length) 0).set
        (keccakAbsorbBlocks permute r (List.replicate 25 0) m).2.length p |>.modify (r - 1)
          (· ||| 128)).length := by
    rw [List.length_modify, List.length_set, List.length_append, List.length_replicate]
    omega
  rw [keccakIncAbsorb_eq permute r h0, hinit, habs, hrest, keccakAbsorb, keccakIncFinalize]
  dsimp only
  rw [xorBlock_eq permute r _ hr hlen, List.take_of_length_le (by
    rw [List.length_modify, List.length_set, List.length_append, List.length_replicate]
    omega), xorBytes_padded permute r _ hlt hp, Nat.zero_add]

theorem keccakIncSqueezeBlocks_eq (h0 : 0 < r) (outlen : Nat) (t : KeccakInc)
    (h : outlen = 0 ∨ t.pos = 0) : keccakIncSqueezeBlocks permute r outlen t =
      (((keccakSponge permute r).squeeze outlen (t.s, t.pos)).1,
        ⟨((keccakSponge permute r).squeeze outlen (t.s, t.pos)).2.1,
          ((keccakSponge permute r).squeeze outlen (t.s, t.pos)).2.2⟩) := by
  induction outlen, t using keccakIncSqueezeBlocks.induct permute r with
  | case1 outlen t hout s i ih =>
    have hpos : t.pos = 0 := h.resolve_left (by omega)
    have hsum : outlen = i + (outlen - i) := by omega
    have hblock := (keccakSponge permute r).squeeze_block t.s (n := i) (by omega)
      (Nat.min_le_right _ _)
    have hrest : outlen - i = 0 ∨ (KeccakInc.mk s (r - i)).pos = 0 := by
      change outlen - i = 0 ∨ r - i = 0
      omega
    have hadd := (keccakSponge permute r).squeeze_add i (outlen - i) (t.s, 0)
    rw [hblock, ← hsum] at hadd
    rw [keccakIncSqueezeBlocks, if_pos hout, hpos, hadd]
    dsimp only
    rw [ih hrest]
    rfl
  | case2 outlen t hout =>
    have hzero : outlen = 0 := by omega
    rw [keccakIncSqueezeBlocks, if_neg hout, hzero]
    rfl

/-- Calls of `keccak_inc_squeeze` give the bytes of the sponge. -/
theorem keccakIncSqueeze_eq (h0 : 0 < r) (outlen : Nat) {t : KeccakInc} (ht : t.pos ≤ r) :
    keccakIncSqueeze permute r outlen t =
      (((keccakSponge permute r).squeeze outlen (t.s, t.pos)).1,
        ⟨((keccakSponge permute r).squeeze outlen (t.s, t.pos)).2.1,
          ((keccakSponge permute r).squeeze outlen (t.s, t.pos)).2.2⟩) := by
  have hsum : outlen = min outlen t.pos + (outlen - min outlen t.pos) := by omega
  have hleft := (keccakSponge permute r).squeeze_of_le t.s (n := min outlen t.pos)
    (Nat.min_le_right _ _) ht
  have hadd := (keccakSponge permute r).squeeze_add (min outlen t.pos)
    (outlen - min outlen t.pos) (t.s, t.pos)
  rw [hleft, ← hsum] at hadd
  rw [keccakIncSqueeze, hadd]
  dsimp only
  rw [keccakIncSqueezeBlocks_eq permute r h0 _ _ (by
    change outlen - min outlen t.pos = 0 ∨ t.pos - min outlen t.pos = 0
    omega)]
  rfl

theorem flatMap_store64 (s : List UInt64) (n : Nat) :
    (List.range n).flatMap (fun i ↦ store64 (s.getD i 0)) =
      (List.range (8 * n)).map (byteAt s) := by
  induction n with
  | zero => rfl
  | succ n ih =>
    rw [List.range_succ, List.flatMap_append, ih, List.flatMap_singleton, map_store64,
      Nat.mul_succ, List.range_add, List.map_append, List.map_map]
    rfl

theorem keccakSqueezeblocks_eq (hr : 8 ∣ r) (h0 : 0 < r) (n : Nat) (s : List UInt64) :
    (keccakSponge permute r).squeeze (n * r) (s, 0) =
      ((keccakSqueezeblocks permute r n s).1, ((keccakSqueezeblocks permute r n s).2, 0)) := by
  induction n generalizing s with
  | zero =>
    rw [Nat.zero_mul]
    rfl
  | succ n ih =>
    have hwords : 8 * (r >>> 3) = r := by
      rw [Nat.shiftRight_eq_div_pow]
      exact Nat.mul_div_cancel' hr
    have hblock := (keccakSponge permute r).squeeze_block s (n := r) (by omega) le_rfl
    have hsub : (keccakSponge permute r).rate - r = 0 := Nat.sub_self r
    rw [hsub] at hblock
    rw [Nat.succ_mul, Nat.add_comm, Sponge.squeeze_add, hblock, keccakSqueezeblocks,
      flatMap_store64, hwords]
    dsimp only
    have hnext := ih (permute s)
    rw [show (keccakSponge permute r).permute s = permute s from rfl, hnext]
    rfl

end

section

variable (permute : List UInt64 → List UInt64)

def sponge256 (t : KeccakInc) (n : Nat) : List UInt8 × (List UInt64 × Nat) :=
  (keccakSponge permute shake256Rate).squeeze n (t.s, t.pos)

theorem shake256IncSqueeze_eq (n : Nat) {t : KeccakInc} (ht : t.pos ≤ shake256Rate) :
    shake256IncSqueeze permute n t =
      ((sponge256 permute t n).1, ⟨(sponge256 permute t n).2.1, (sponge256 permute t n).2.2⟩) :=
  keccakIncSqueeze_eq permute shake256Rate (by decide) n ht

theorem foldl_shake256IncAbsorb (ms : List (List UInt8)) :
    ms.foldl (shake256IncAbsorb permute) keccakIncInit =
      shake256IncAbsorb permute keccakIncInit ms.flatten := by
  have h0 : 0 < shake256Rate := by decide
  have habs : ∀ (t : KeccakInc), t.pos < shake256Rate → ∀ ms : List (List UInt8),
      ms.foldl (shake256IncAbsorb permute) t = shake256IncAbsorb permute t ms.flatten := by
    intro t ht ms
    induction ms generalizing t with
    | nil =>
      rw [shake256IncAbsorb, keccakIncAbsorb_eq permute _ ht]
      rfl
    | cons m ms ih =>
      have hstep := keccakIncAbsorb_eq permute _ ht m
      have hlt := (keccakSponge permute shake256Rate).absorb_lt (t := (t.s, t.pos)) ht m
      rw [List.foldl_cons, shake256IncAbsorb, hstep, ih _ hlt, shake256IncAbsorb,
        keccakIncAbsorb_eq permute _ hlt, shake256IncAbsorb, keccakIncAbsorb_eq permute _ ht,
        List.flatten_cons, Sponge.absorb_append]
  exact habs keccakIncInit h0 ms

theorem shake256_eq (outlen : Nat) (input : List UInt8) : shake256 permute outlen input =
    (sponge256 permute (shake256IncFinalize
      (shake256IncAbsorb permute keccakIncInit input)) outlen).1 := by
  have hr : 8 ∣ shake256Rate := by decide
  have h0 : 0 < shake256Rate := by decide
  have hsum : outlen = outlen / shake256Rate * shake256Rate + outlen % shake256Rate := by
    rw [Nat.mul_comm, Nat.div_add_mod]
  have hrem : outlen - outlen / shake256Rate * shake256Rate = outlen % shake256Rate := by omega
  let s := (shake256IncFinalize (shake256IncAbsorb permute keccakIncInit input)).s
  have habs : keccakAbsorb permute shake256Rate input 0x1F = s :=
    keccakAbsorb_eq permute shake256Rate hr h0 input (by decide)
  have hblocks := keccakSqueezeblocks_eq permute shake256Rate hr h0 (outlen / shake256Rate) s
  have hadd := (keccakSponge permute shake256Rate).squeeze_add
    (outlen / shake256Rate * shake256Rate) (outlen % shake256Rate) (s, 0)
  rw [← hsum, hblocks] at hadd
  have hsponge : (sponge256 permute (shake256IncFinalize
      (shake256IncAbsorb permute keccakIncInit input)) outlen).1 =
        ((keccakSponge permute shake256Rate).squeeze outlen (s, 0)).1 := rfl
  rw [hsponge, hadd, shake256]
  dsimp only
  rw [habs, hrem]
  by_cases h : outlen % shake256Rate = 0
  · rw [if_pos h, h, Sponge.squeeze, List.append_nil]
  · have hlast := (keccakSponge permute shake256Rate).take_squeeze (outlen % shake256Rate)
      (shake256Rate - outlen % shake256Rate)
      ((keccakSqueezeblocks permute shake256Rate (outlen / shake256Rate) s).2, 0)
    have hone := keccakSqueezeblocks_eq permute shake256Rate hr h0 1
      (keccakSqueezeblocks permute shake256Rate (outlen / shake256Rate) s).2
    have hfull : outlen % shake256Rate + (shake256Rate - outlen % shake256Rate) =
        1 * shake256Rate := by
      rw [Nat.add_sub_cancel' (Nat.mod_lt _ h0).le, Nat.one_mul]
    rw [hfull, hone] at hlast
    rw [if_neg h, ← hlast]

/-- Calls of `shake256_inc_squeeze`, one after another. -/
def shake256IncSqueezes : List Nat → KeccakInc → List (List UInt8)
  | [], _ => []
  | n :: ns, t =>
    (shake256IncSqueeze permute n t).1 :: shake256IncSqueezes ns (shake256IncSqueeze permute n t).2

/-- However the input and the output are cut, the incremental interface gives the bytes of
`shake256`. -/
theorem shake256_incremental (ms : List (List UInt8)) (ns : List Nat) :
    (shake256IncSqueezes permute ns (shake256IncFinalize
        (ms.foldl (shake256IncAbsorb permute) keccakIncInit))).flatten =
          shake256 permute ns.sum ms.flatten ∧
      (shake256IncSqueezes permute ns (shake256IncFinalize
        (ms.foldl (shake256IncAbsorb permute) keccakIncInit))).map List.length = ns := by
  have hrun : ∀ (ns : List Nat) (t : KeccakInc), t.pos ≤ shake256Rate →
      (shake256IncSqueezes permute ns t).flatten = (sponge256 permute t ns.sum).1 ∧
        (shake256IncSqueezes permute ns t).map List.length = ns := by
    intro ns
    induction ns with
    | nil => exact fun _ _ ↦ ⟨rfl, rfl⟩
    | cons n ns ih =>
      intro t ht
      have hstep := shake256IncSqueeze_eq permute n ht
      have hpos := (keccakSponge permute shake256Rate).squeeze_le n (t := (t.s, t.pos)) ht
      have hadd := (keccakSponge permute shake256Rate).squeeze_add n ns.sum (t.s, t.pos)
      obtain ⟨hout, hlen⟩ := ih (shake256IncSqueeze permute n t).2 (by rw [hstep]; exact hpos)
      refine ⟨?_, ?_⟩
      · have hcons : (sponge256 permute t (n :: ns).sum).1 = _ := congrArg Prod.fst hadd
        rw [shake256IncSqueezes, List.flatten_cons, hout, hstep, hcons]
        rfl
      · rw [shake256IncSqueezes, List.map_cons, hlen, hstep, sponge256, Sponge.length_squeeze]
  obtain ⟨hout, hlen⟩ := hrun ns (shake256IncFinalize
    (ms.foldl (shake256IncAbsorb permute) keccakIncInit)) (Nat.zero_le _)
  refine ⟨?_, hlen⟩
  rw [hout, foldl_shake256IncAbsorb, shake256_eq]

/-- The bytes that a draw takes from the stream. -/
def drawn (n : Nat) : Nat := 8 * ((n + 7) / 8)

theorem seedexpander_eq (n : Nat) {t : KeccakInc} (ht : t.pos ≤ shake256Rate) :
    seedexpander permute n t = ((sponge256 permute t (drawn n)).1.take n,
      ⟨(sponge256 permute t (drawn n)).2.1, (sponge256 permute t (drawn n)).2.2⟩) := by
  have hpos := (keccakSponge permute shake256Rate).squeeze_le (n - n % 8) (t := (t.s, t.pos)) ht
  have hfirst := shake256IncSqueeze_eq permute (n - n % 8) ht
  have hlen := (keccakSponge permute shake256Rate).length_squeeze (n - n % 8) (t.s, t.pos)
  rw [seedexpander]
  dsimp only
  rw [hfirst]
  by_cases h : n % 8 = 0
  · have hdrawn : drawn n = n - n % 8 := by
      rw [drawn]
      omega
    rw [if_neg (not_not.mpr h), hdrawn, List.take_of_length_le (by rw [sponge256, hlen]; omega)]
  · have hdrawn : drawn n = n - n % 8 + 8 := by
      rw [drawn]
      omega
    have hadd : sponge256 permute t (drawn n) = _ :=
      (congrArg (sponge256 permute t) hdrawn).trans
        ((keccakSponge permute shake256Rate).squeeze_add (n - n % 8) 8 (t.s, t.pos))
    have hsecond := shake256IncSqueeze_eq permute 8
      (t := ⟨(sponge256 permute t (n - n % 8)).2.1, (sponge256 permute t (n - n % 8)).2.2⟩) hpos
    have htake : n = (sponge256 permute t (n - n % 8)).1.length + n % 8 := by
      rw [sponge256, hlen]
      omega
    have hout : ((sponge256 permute t (drawn n)).1.take n) = (sponge256 permute t (n - n % 8)).1 ++
        ((keccakSponge permute shake256Rate).squeeze 8
          (sponge256 permute t (n - n % 8)).2).1.take (n % 8) := by
      rw [hadd, ← List.take_length_add_append, ← htake]
      rfl
    rw [if_pos h, hsecond, hout, hadd]
    rfl

/-- Draws from a seed expander, one after another. -/
def seedexpanders : List Nat → KeccakInc → List (List UInt8)
  | [], _ => []
  | n :: ns, t => (seedexpander permute n t).1 :: seedexpanders ns (seedexpander permute n t).2

/-- Every draw gives bytes of one stream, from the next multiple of 8 on. -/
theorem seedexpander_draws (seed : List UInt8) (ns : List Nat) (k : Nat) :
    (seedexpanders permute ns (seedexpanderInit permute seed)).getD k [] =
      ((shake256 permute (ns.map drawn).sum (seed ++ [seedexpanderDomain])).drop
        ((ns.take k).map drawn).sum).take (ns.getD k 0) := by
  have hrun : ∀ (ns : List Nat) (k : Nat) (t : KeccakInc), t.pos ≤ shake256Rate →
      (seedexpanders permute ns t).getD k [] =
        ((sponge256 permute t (ns.map drawn).sum).1.drop ((ns.take k).map drawn).sum).take
          (ns.getD k 0) := by
    intro ns
    induction ns with
    | nil =>
      intro k t _
      rw [seedexpanders, List.getD_nil, List.getD_nil, List.take_zero]
    | cons n ns ih =>
      intro k t ht
      have hstep := seedexpander_eq permute n ht
      cases k with
      | zero =>
        have hle : n ≤ drawn n := by
          rw [drawn]
          omega
        have htake := (keccakSponge permute shake256Rate).take_squeeze (drawn n)
          (ns.map drawn).sum (t.s, t.pos)
        rw [seedexpanders, List.getD_cons_zero, List.getD_cons_zero, hstep, List.take_zero,
          List.map_nil, List.sum_nil, List.drop_zero, List.map_cons, List.sum_cons, sponge256,
          ← htake, List.take_take, Nat.min_eq_left hle, sponge256]
      | succ k =>
        have hdrop := (keccakSponge permute shake256Rate).drop_squeeze (drawn n)
          (ns.map drawn).sum (t.s, t.pos)
        have hpos := (keccakSponge permute shake256Rate).squeeze_le (drawn n)
          (t := (t.s, t.pos)) ht
        rw [seedexpanders, List.getD_cons_succ, List.getD_cons_succ,
          ih k _ (by rw [hstep]; exact hpos), List.take_succ_cons, List.map_cons, List.sum_cons,
          List.map_cons, List.sum_cons, ← List.drop_drop, hstep]
        exact congrArg (fun l : List UInt8 ↦
          (l.drop ((ns.take k).map drawn).sum).take (ns.getD k 0)) hdrop.symm
  have habs := foldl_shake256IncAbsorb permute [seed, [seedexpanderDomain]]
  rw [List.foldl_cons, List.foldl_cons, List.foldl_nil, List.flatten_cons, List.flatten_cons,
    List.flatten_nil, List.append_nil] at habs
  rw [hrun ns k (seedexpanderInit permute seed) (Nat.zero_le _), shake256_eq, ← habs,
    seedexpanderInit]

end

end KemtlsMavlink.Hqc
