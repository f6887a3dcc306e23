import Mathlib.Algebra.CharP.Two
import Mathlib.Data.List.GetD
import Mathlib.Tactic.FieldSimp
import Mathlib.Tactic.LinearCombination
import Mathlib.Tactic.Ring

namespace KemtlsMavlink.Library

section

variable {M N : Type*} [AddCommMonoid M] [AddCommMonoid N]

def subsetSums (l : List M) : List M := l.foldl (fun sums a ↦ sums ++ sums.map (a + ·)) [0]

theorem subsetSums_concat (l : List M) (a : M) :
    subsetSums (l ++ [a]) = subsetSums l ++ (subsetSums l).map (a + ·) := by
  rw [subsetSums, List.foldl_concat, ← subsetSums]

theorem length_subsetSums (l : List M) : (subsetSums l).length = 2 ^ l.length := by
  induction l using List.reverseRecOn with
  | nil => rfl
  | append_singleton l a ih =>
    rw [subsetSums_concat, List.length_append, List.length_map, ih, List.length_append,
      List.length_singleton]
    ring

theorem subsetSums_map (φ : M →+ N) (l : List M) :
    subsetSums (l.map φ) = (subsetSums l).map φ := by
  induction l using List.reverseRecOn with
  | nil => exact congrArg (fun x ↦ [x]) (map_zero φ).symm
  | append_singleton l a ih =>
    rw [List.map_append, List.map_singleton, subsetSums_concat, ih, subsetSums_concat,
      List.map_append, List.map_map, List.map_map]
    congr 2
    funext x
    exact (map_add φ a x).symm

end

section

variable {F : Type*} [Field F]

theorem last_ne_zero {l : List F} {b : F} (h : (subsetSums (l ++ [b])).Nodup) : b ≠ 0 := by
  rintro rfl
  rw [subsetSums_concat] at h
  have hne : subsetSums l ≠ [] := List.ne_nil_of_length_pos (by
    rw [length_subsetSums]
    exact Nat.two_pow_pos _)
  obtain ⟨x, hx⟩ := List.exists_mem_of_ne_nil _ hne
  exact List.disjoint_of_nodup_append h hx (List.mem_map.mpr ⟨x, hx, zero_add x⟩)

variable [CharP F 2]

def artinSchreier : F →+ F where
  toFun x := x ^ 2 + x
  map_zero' := by simp
  map_add' x y := by
    rw [CharTwo.add_sq]
    ring

theorem artinSchreier_apply (x : F) : artinSchreier x = x ^ 2 + x := rfl

theorem artinSchreier_add_one (x : F) : artinSchreier (x + 1) = artinSchreier x := by
  rw [artinSchreier_apply, artinSchreier_apply, CharTwo.add_sq]
  linear_combination CharTwo.add_self_eq_zero (1 : F)

theorem artinSchreier_eq {x y : F} (h : artinSchreier x = artinSchreier y) : x = y ∨ x = y + 1 := by
  have hm : (x + y) * (x + y + 1) = 0 := by
    rw [artinSchreier_apply, artinSchreier_apply] at h
    linear_combination h + (x * y + y ^ 2 + y) * CharTwo.two_eq_zero (R := F)
  rcases mul_eq_zero.mp hm with h0 | h1
  · exact .inl (CharTwo.add_eq_zero.mp h0)
  · exact .inr (CharTwo.add_eq_zero.mp (by rw [← h1, add_assoc]))

theorem nodup_deltas {l : List F} {b : F} (h : (subsetSums (l ++ [b])).Nodup) :
    (subsetSums (l.map fun c ↦ artinSchreier (c * b⁻¹))).Nodup := by
  have hb := last_ne_zero h
  rw [subsetSums_concat] at h
  have hsums : subsetSums (l.map fun c ↦ artinSchreier (c * b⁻¹)) =
      (subsetSums l).map fun c ↦ artinSchreier (c * b⁻¹) :=
    subsetSums_map (artinSchreier.comp (AddMonoidHom.mulRight b⁻¹)) l
  rw [hsums]
  refine (List.nodup_append.mp h).1.map_on fun x hx y hy hxy ↦ ?_
  rcases artinSchreier_eq hxy with h1 | h1
  · exact mul_right_cancel₀ (inv_ne_zero hb) h1
  · have hxb : x = b + y := by
      field_simp at h1
      rw [h1, add_comm]
    exact (List.disjoint_of_nodup_append h hx (List.mem_map.mpr ⟨y, hy, hxb.symm⟩)).elim

end

end KemtlsMavlink.Library
