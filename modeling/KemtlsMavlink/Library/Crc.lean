import Mathlib.Data.List.Basic
import Mathlib.Logic.Function.Iterate

namespace KemtlsMavlink.Library.Crc

/-! Cyclic redundancy checks with a reflected register: bits enter, and leave, at the
least significant end. -/

variable {w k : Nat} (p : BitVec w)

/-- The register moves down one place, and `p` is added for a bit that leaves it. -/
def shift (r : BitVec w) : BitVec w := if r.getLsbD 0 then (r >>> 1) ^^^ p else r >>> 1

def feed (r : BitVec w) (b : Bool) : BitVec w :=
  if r.getLsbD 0 ^^ b then (r >>> 1) ^^^ p else r >>> 1

def bits (b : BitVec k) : List Bool := (List.range k).map b.getLsbD

def register (r : BitVec w) (msg : List (BitVec k)) : BitVec w :=
  (msg.flatMap bits).foldl (feed p) r

def takeWord (r : BitVec w) (b : BitVec k) : BitVec w :=
  (r >>> k) ^^^ (shift p)^[k] (((r ^^^ b.setWidth w).setWidth k).setWidth w)

variable {p} {n : Nat}

theorem shift_xor (x y : BitVec w) : shift p (x ^^^ y) = shift p x ^^^ shift p y := by
  have hp : ∀ a b : BitVec w, a ^^^ p ^^^ (b ^^^ p) = a ^^^ b := fun a b ↦ by
    rw [BitVec.xor_assoc, ← BitVec.xor_assoc p, BitVec.xor_comm p b, BitVec.xor_assoc b,
      BitVec.xor_self, BitVec.xor_zero]
  unfold shift
  rw [BitVec.getLsbD_xor, BitVec.ushiftRight_xor_distrib]
  cases x.getLsbD 0 <;> cases y.getLsbD 0
  · simp
  · simp [BitVec.xor_assoc]
  · simp [BitVec.xor_assoc, BitVec.xor_comm p]
  · simp [hp]

theorem shift_iterate_xor (n : Nat) (x y : BitVec w) :
    (shift p)^[n] (x ^^^ y) = (shift p)^[n] x ^^^ (shift p)^[n] y := by
  induction n generalizing x y with
  | zero => rfl
  | succ n ih => simp only [Function.iterate_succ_apply, shift_xor, ih]

theorem shift_iterate_of_clear {y : BitVec w} (h : ∀ i < n, y.getLsbD i = false) :
    (shift p)^[n] y = y >>> n := by
  induction n with
  | zero => simp
  | succ n ih =>
    have hlow : (y >>> n).getLsbD 0 = false := by simpa using h n n.lt_succ_self
    rw [Function.iterate_succ_apply', ih fun i hi ↦ h i (Nat.lt_succ_of_lt hi), shift, hlow,
      BitVec.shiftRight_add]
    rfl

theorem feed_eq (r : BitVec w) (b : Bool) (hw : 0 < w) :
    feed p r b = shift p (r ^^^ bif b then BitVec.twoPow w 0 else 0) := by
  cases b with
  | false => simp [feed, shift]
  | true =>
    have hone : BitVec.twoPow w 0 >>> 1 = 0#w := by
      apply BitVec.eq_of_getLsbD_eq
      intro i hi
      simp [BitVec.getLsbD_twoPow]
      omega
    have hbit : (BitVec.twoPow w 0).getLsbD 0 = true := by simp [hw]
    simp only [feed, shift, cond_true, BitVec.getLsbD_xor, hbit, BitVec.ushiftRight_xor_distrib,
      hone, BitVec.xor_zero]

theorem foldl_feed_low (b : BitVec k) (r : BitVec w) (hn : n ≤ w) :
    ((List.range n).map b.getLsbD).foldl (feed p) r =
      (shift p)^[n] (r ^^^ (b.setWidth n).setWidth w) := by
  induction n with
  | zero => simp [BitVec.eq_nil (b.setWidth 0)]
  | succ n ih =>
    have hclear : ∀ i < n, (BitVec.twoPow w n).getLsbD i = false := fun i hi ↦ by
      simp [BitVec.getLsbD_twoPow, Nat.ne_of_gt hi]
    have hdown : BitVec.twoPow w n >>> n = BitVec.twoPow w 0 := by
      apply BitVec.eq_of_getLsbD_eq
      intro i hi
      simp [BitVec.getLsbD_twoPow, Nat.lt_of_succ_le hn, Nat.zero_lt_of_lt hn, eq_comm]
    have hlow : (b.setWidth (n + 1)).setWidth w =
        (b.setWidth n).setWidth w ^^^ bif b.getLsbD n then BitVec.twoPow w n else 0 := by
      apply BitVec.eq_of_getLsbD_eq
      intro i hi
      rcases Nat.lt_trichotomy i n with hlt | rfl | hlt
      · have hne : i ≠ n := Nat.ne_of_lt hlt
        cases b.getLsbD n <;> simp [hi, hlt, hne, Nat.lt_succ_of_lt hlt]
      · cases hb : b.getLsbD i <;> simp [hi, hb]
      · have hne : i ≠ n := Nat.ne_of_gt hlt
        cases b.getLsbD n <;>
          simp [hi, hne, Nat.not_lt.mpr (Nat.le_of_lt hlt), Nat.not_lt.mpr hlt]
    rw [List.range_succ, List.map_append, List.foldl_append, ih (Nat.le_of_succ_le hn),
      List.map_singleton, List.foldl_cons, List.foldl_nil, feed_eq _ _ (Nat.zero_lt_of_lt hn),
      Function.iterate_succ_apply', hlow, ← BitVec.xor_assoc, shift_iterate_xor n (r ^^^ _)]
    cases b.getLsbD n with
    | false => simp [shift_iterate_of_clear]
    | true => rw [cond_true, cond_true, shift_iterate_of_clear hclear, hdown]

theorem shift_iterate_split (x : BitVec w) (n : Nat) :
    (shift p)^[n] x = (x >>> n) ^^^ (shift p)^[n] ((x.setWidth n).setWidth w) := by
  have hlow : ∀ i, ((x.setWidth n).setWidth w).getLsbD i = (decide (i < n) && x.getLsbD i) := by
    intro i
    by_cases hi : i < w
    · simp [hi]
    · simp [hi, BitVec.getLsbD_of_ge x i (Nat.le_of_not_lt hi)]
  have hhigh : (shift p)^[n] (x ^^^ (x.setWidth n).setWidth w) = x >>> n := by
    rw [shift_iterate_of_clear]
    · apply BitVec.eq_of_getLsbD_eq
      intro i hi
      have hge : ¬ n + i < n := Nat.not_lt.mpr (Nat.le_add_right n i)
      simp [hlow, hge]
    · intro i hi
      rw [BitVec.getLsbD_xor, hlow]
      simp [hi]
  rw [← hhigh, ← shift_iterate_xor, BitVec.xor_assoc, BitVec.xor_self, BitVec.xor_zero]

theorem foldl_feed_bits (hk : k ≤ w) (b : BitVec k) (r : BitVec w) :
    (bits b).foldl (feed p) r = takeWord p r b := by
  have hb : b.setWidth w >>> k = 0#w := by
    apply BitVec.eq_of_getLsbD_eq
    intro i hi
    simp
  rw [bits, foldl_feed_low b r hk, BitVec.setWidth_eq, shift_iterate_split,
    BitVec.ushiftRight_xor_distrib, hb, BitVec.xor_zero, takeWord]

theorem register_eq_foldl (hk : k ≤ w) (r : BitVec w) (msg : List (BitVec k)) :
    register p r msg = msg.foldl (takeWord p) r := by
  induction msg generalizing r with
  | nil => rfl
  | cons b msg ih =>
    rw [List.foldl_cons, ← foldl_feed_bits hk, ← ih, register, List.flatMap_cons,
      List.foldl_append, register]

/-- CRC-32: the register starts with ones, and its complement is the check. -/
def crc32 (msg : List (BitVec 8)) : BitVec 32 :=
  ~~~register 0xEDB88320#32 (BitVec.allOnes 32) msg

example : crc32 ([0x31, 0x32, 0x33, 0x34, 0x35, 0x36, 0x37, 0x38, 0x39].map (BitVec.ofNat 8)) =
    0xCBF43926#32 := by decide +kernel

end KemtlsMavlink.Library.Crc
