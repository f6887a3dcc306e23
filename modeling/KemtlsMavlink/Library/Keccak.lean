import Mathlib.Algebra.Group.Nat.Defs
import Mathlib.Data.Fin.Basic
import Mathlib.Data.List.Basic

namespace KemtlsMavlink.Library.Keccak

variable {w : Nat}

abbrev Lanes (w : Nat) := Fin 5 → Fin 5 → BitVec w

def parity (a : Lanes w) (x : Fin 5) : BitVec w := a x 0 ^^^ a x 1 ^^^ a x 2 ^^^ a x 3 ^^^ a x 4

/-- The parities of the two columns near by are added to each lane. -/
def theta (a : Lanes w) : Lanes w := fun x y ↦
  a x y ^^^ (parity a (x - 1) ^^^ (parity a (x + 1)).rotateLeft 1)

def walk : Nat → Fin 5 × Fin 5
  | 0 => (1, 0)
  | t + 1 => ((walk t).2, 2 * (walk t).1 + 3 * (walk t).2)

def offset (x y : Fin 5) : Nat :=
  ((List.range 24).find? (fun t ↦ walk t = (x, y))).elim 0 (fun t ↦ (t + 1) * (t + 2) / 2)

def rho (a : Lanes w) : Lanes w := fun x y ↦ (a x y).rotateLeft (offset x y)

def pi (a : Lanes w) : Lanes w := fun x y ↦ a (x + 3 * y) x

def chi (a : Lanes w) : Lanes w := fun x y ↦ a x y ^^^ (~~~a (x + 1) y &&& a (x + 2) y)

def iota (c : BitVec w) (a : Lanes w) : Lanes w := fun x y ↦
  if x = 0 ∧ y = 0 then a x y ^^^ c else a x y

def round (c : BitVec w) (a : Lanes w) : Lanes w := iota c (chi (pi (rho (theta a))))

theorem round_zero {c : BitVec w} {a : Lanes w} :
    round c a 0 0 = chi (pi (rho (theta a))) 0 0 ^^^ c := by
  rw [round, iota, if_pos ⟨rfl, rfl⟩]

theorem round_of_ne {c : BitVec w} {a : Lanes w} {x y : Fin 5} (h : ¬(x = 0 ∧ y = 0)) :
    round c a x y = chi (pi (rho (theta a))) x y := by
  rw [round, iota, if_neg h]

def shift (r : Nat) : Nat := if r < 128 then 2 * r else (2 * r - 256) ^^^ 0x71

def register (t : Nat) : Nat := shift^[t % 255] 1

def constant (r : Nat) : Nat :=
  (List.range 7).foldl (fun c j ↦ c ||| ((register (j + 7 * r) % 2) <<< (2 ^ j - 1))) 0

/-- The rounds from one on. -/
def rounds (n : Nat) (a : Lanes w) : Lanes w :=
  (List.range n).foldl (fun a r ↦ round (BitVec.ofNat w (constant r)) a) a

theorem rounds_succ (n : Nat) (a : Lanes w) :
    rounds (n + 1) a = round (BitVec.ofNat w (constant n)) (rounds n a) := by
  rw [rounds, List.range_succ, List.foldl_concat, rounds]

end KemtlsMavlink.Library.Keccak
