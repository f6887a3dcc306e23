import KemtlsMavlink.Library.Machine
import Mathlib.Data.List.Range
import Mathlib.Logic.Function.Basic

namespace KemtlsMavlink.Library

variable {ι : Type*} [DecidableEq ι]

structure Ticket (ι : Type*) where
  owner : ι
  number : Nat

/-- A family of dispensers, each of which hands out `0, 1, 2, ..` as long as the
numbers are below `limit`. An input is a request at one of them. -/
def dispensers (limit : Nat) : Machine (ι → Nat) ι (Ticket ι) :=
  ⟨fun s c ↦ if s c < limit then (Function.update s c (s c + 1), [⟨c, s c⟩]) else (s, [])⟩

def numbersOf (c : ι) (ts : List (Ticket ι)) : List Nat :=
  (ts.filter fun t ↦ t.owner = c).map (·.number)

theorem numbersOf_append (c : ι) (ts ts' : List (Ticket ι)) :
    numbersOf c (ts ++ ts') = numbersOf c ts ++ numbersOf c ts' := by
  simp only [numbersOf, List.filter_append, List.map_append]

theorem dispensers_step (limit : Nat) (s : ι → Nat) (c d : ι) :
    numbersOf d ((dispensers limit).step s c).2 =
        (if c = d ∧ s c < limit then [s c] else []) ∧
      ((dispensers limit).step s c).1 d = s d + (if c = d ∧ s c < limit then 1 else 0) := by
  unfold dispensers
  dsimp only
  by_cases hl : s c < limit
  · by_cases hc : c = d
    · subst hc
      simp [numbersOf, hl]
    · simp [numbersOf, hl, hc, Function.update_of_ne (Ne.symm hc)]
  · simp [numbersOf, hl]

/-- Each dispenser hands out its numbers from 0, one after the other. -/
theorem numbersOf_outputs (limit : Nat) (c : ι) (es : List ι) :
    numbersOf c ((dispensers limit).outputs (fun _ ↦ 0) es) =
      List.range ((dispensers limit).final (fun _ ↦ 0) es c) := by
  induction es using List.reverseRecOn with
  | nil => rfl
  | append_singleton es e ih =>
    obtain ⟨hnum, hfin⟩ := dispensers_step limit ((dispensers limit).final (fun _ ↦ 0) es) e c
    rw [Machine.outputs_snoc, Machine.final_snoc, numbersOf_append, ih, hnum, hfin]
    split_ifs with h
    · rw [h.1, List.range_succ]
    · rw [List.append_nil, Nat.add_zero]

theorem mem_numbersOf {c : ι} {k : Nat} {ts : List (Ticket ι)} :
    k ∈ numbersOf c ts ↔ ⟨c, k⟩ ∈ ts := by
  simp only [numbersOf, List.mem_map, List.mem_filter, decide_eq_true_eq]
  constructor
  · rintro ⟨⟨d, j⟩, ⟨ht, rfl⟩, rfl⟩
    exact ht
  · intro ht
    exact ⟨⟨c, k⟩, ⟨ht, rfl⟩, rfl⟩

theorem mem_outputs_iff {limit : Nat} {c : ι} {k : Nat} {es : List ι} :
    ⟨c, k⟩ ∈ (dispensers limit).outputs (fun _ ↦ 0) es ↔
      k < (dispensers limit).final (fun _ ↦ 0) es c := by
  rw [← mem_numbersOf, numbersOf_outputs, List.mem_range]

theorem final_eq_min (limit : Nat) (es : List ι) (c : ι) :
    (dispensers limit).final (fun _ ↦ 0) es c = min (es.count c) limit := by
  induction es using List.reverseRecOn with
  | nil => exact (Nat.zero_min limit).symm
  | append_singleton es e ih =>
    rw [Machine.final_snoc, (dispensers_step limit _ e c).2, List.count_append,
      List.count_singleton]
    by_cases he : e = c
    · subst he
      rw [ih, beq_self_eq_true, if_pos rfl]
      split_ifs with hlt
      · have hroom := hlt.2
        omega
      · have hfull : ¬min (es.count e) limit < limit := fun h ↦ hlt ⟨rfl, h⟩
        omega
    · rw [ih, if_neg fun h ↦ he h.1, beq_false_of_ne he]
      rfl

theorem final_le_limit (limit : Nat) (es : List ι) (c : ι) :
    (dispensers limit).final (fun _ ↦ 0) es c ≤ limit :=
  final_eq_min limit es c ▸ Nat.min_le_right _ _

theorem outputs_nodup (limit : Nat) (es : List ι) :
    ((dispensers limit).outputs (fun _ ↦ 0) es).Nodup := by
  induction es using List.reverseRecOn with
  | nil => exact List.nodup_nil
  | append_singleton es c ih =>
    rw [Machine.outputs_snoc, List.nodup_append]
    refine ⟨ih, ?_, ?_⟩
    · unfold dispensers
      dsimp only
      split
      · exact List.nodup_cons.mpr ⟨List.not_mem_nil, List.nodup_nil⟩
      · exact List.nodup_nil
    · rintro ⟨d, k⟩ hold _ hnew rfl
      have hlt := mem_outputs_iff.mp hold
      rw [← mem_numbersOf, (dispensers_step limit _ c d).1] at hnew
      split_ifs at hnew with hd
      · rw [List.mem_singleton.mp hnew, hd.1] at hlt
        exact lt_irrefl _ hlt
      · exact absurd hnew List.not_mem_nil

end KemtlsMavlink.Library
