import Mathlib.Logic.Function.Basic

namespace KemtlsMavlink.Library

abbrev Files (κ β : Type*) := κ → Option (List β)

namespace Files

variable {κ β : Type*} [DecidableEq κ] (fs : Files κ β) (p q : κ)

def create : Files κ β := Function.update fs p (some [])

def append (bs : List β) : Files κ β := Function.update fs p ((fs p).map (· ++ bs))

def unlink : Files κ β := Function.update fs p none

def rename : Files κ β := Function.update (Function.update fs p none) q (fs p)

def OnlyAt (fs' : Files κ β) : Prop := ∀ q ≠ p, fs' q = fs q

variable {fs p q} {fs' fs'' : Files κ β} {as bs : List β}

@[simp] theorem create_self (fs : Files κ β) (p : κ) : fs.create p p = some [] :=
  Function.update_self ..

theorem append_self (h : fs p = some as) (bs : List β) : fs.append p bs p = some (as ++ bs) := by
  rw [append, Function.update_self, h, Option.map_some]

@[simp] theorem rename_target : fs.rename p q q = fs p := Function.update_self ..

omit [DecidableEq κ] in
theorem OnlyAt.refl : OnlyAt fs p fs := fun _ _ ↦ rfl

omit [DecidableEq κ] in
theorem OnlyAt.trans (h : OnlyAt fs p fs') (h' : OnlyAt fs' p fs'') : OnlyAt fs p fs'' :=
  fun q hq ↦ (h' q hq).trans (h q hq)

theorem onlyAt_create : OnlyAt fs p (fs.create p) := fun _ hq ↦ Function.update_of_ne hq ..

theorem onlyAt_append : OnlyAt fs p (fs.append p bs) := fun _ hq ↦ Function.update_of_ne hq ..

theorem onlyAt_unlink : OnlyAt fs p (fs.unlink p) := fun _ hq ↦ Function.update_of_ne hq ..

end Files

end KemtlsMavlink.Library
