import Mathlib.Algebra.Group.Nat.Defs
import Mathlib.Data.List.Basic

namespace KemtlsMavlink.Library

/-- The number in `n` bytes, least significant first; what does not fit is lost. -/
def leBytes : Nat → Nat → List UInt8
  | 0, _ => []
  | n + 1, v => UInt8.ofNat v :: leBytes n (v / 256)

def leNat : List UInt8 → Nat
  | [] => 0
  | b :: bs => b.toNat + 256 * leNat bs

@[simp] theorem length_leBytes (n v : Nat) : (leBytes n v).length = n := by
  induction n generalizing v with
  | zero => rfl
  | succ n ih => simp [leBytes, ih]

theorem leNat_leBytes {n v : Nat} (h : v < 256 ^ n) : leNat (leBytes n v) = v := by
  induction n generalizing v with
  | zero =>
    rw [Nat.pow_zero] at h
    simp [leBytes, leNat, Nat.lt_one_iff.mp h]
  | succ n ih =>
    have hv : v / 256 < 256 ^ n := Nat.div_lt_of_lt_mul (by rwa [← Nat.pow_succ'])
    rw [leBytes, leNat, ih hv, UInt8.toNat_ofNat']
    omega

theorem leNat_take_drop {p : List UInt8} {i : Nat} (h : i < p.length) (n : Nat) :
    leNat ((p.drop i).take (n + 1)) =
      (p.getD i 0).toNat + 256 * leNat ((p.drop (i + 1)).take n) := by
  rw [List.drop_eq_getElem_cons h, List.take_succ_cons, leNat]
  simp [List.getD_eq_getElem?_getD, h]

theorem or_shiftLeft {a b n : Nat} (h : a < 2 ^ n) : a ||| (b <<< n) = a + b * 2 ^ n := by
  rw [Nat.or_comm, ← Nat.shiftLeft_add_eq_or_of_lt h, Nat.shiftLeft_eq, Nat.add_comm]

end KemtlsMavlink.Library
