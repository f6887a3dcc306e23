import Mathlib.Data.List.Basic
import Mathlib.Data.List.Induction

namespace KemtlsMavlink.Library

variable {α β : Type*}

def xorSum (l : List α) (f : α → Bool) : Bool := l.foldl (fun b a ↦ b ^^ f a) false

theorem xorSum_concat (l : List α) (a : α) (f : α → Bool) :
    xorSum (l ++ [a]) f = (xorSum l f ^^ f a) := List.foldl_concat ..

theorem xorSum_congr {l : List α} {f g : α → Bool} (h : ∀ a ∈ l, f a = g a) :
    xorSum l f = xorSum l g := by
  induction l using List.reverseRecOn with
  | nil => rfl
  | append_singleton l a ih =>
    rw [xorSum_concat, xorSum_concat, ih fun b hb ↦ h b (List.mem_append_left _ hb),
      h a (List.mem_append_right _ List.mem_cons_self)]

theorem xorSum_eq_false {l : List α} {f : α → Bool} (h : ∀ a ∈ l, f a = false) :
    xorSum l f = false := by
  induction l using List.reverseRecOn with
  | nil => rfl
  | append_singleton l a ih =>
    rw [xorSum_concat, ih fun b hb ↦ h b (List.mem_append_left _ hb),
      h a (List.mem_append_right _ List.mem_cons_self), Bool.xor_false]

theorem xorSum_xor (l : List α) (f g : α → Bool) :
    xorSum l (fun a ↦ f a ^^ g a) = (xorSum l f ^^ xorSum l g) := by
  induction l using List.reverseRecOn with
  | nil => rfl
  | append_singleton l a ih =>
    rw [xorSum_concat, xorSum_concat, xorSum_concat, ih, Bool.xor_assoc, Bool.xor_assoc,
      Bool.xor_left_comm (f a)]

theorem xorSum_perm {l m : List α} (h : l.Perm m) (f : α → Bool) : xorSum l f = xorSum m f :=
  h.foldl_eq' (fun _ _ _ _ _ ↦ Bool.xor_right_comm _ _ _) false

theorem xorSum_comm (l : List α) (m : List β) (f : α → β → Bool) :
    xorSum l (fun a ↦ xorSum m (f a)) = xorSum m (fun b ↦ xorSum l (fun a ↦ f a b)) := by
  induction l using List.reverseRecOn with
  | nil => exact (xorSum_eq_false fun _ _ ↦ rfl).symm
  | append_singleton l a ih =>
    rw [xorSum_concat, ih, ← xorSum_xor]
    exact xorSum_congr fun b _ ↦ (xorSum_concat l a _).symm

end KemtlsMavlink.Library
