import KemtlsMavlink.Library.Machine
import Mathlib.Data.List.Nodup
import Mathlib.Order.Nat

namespace KemtlsMavlink.Library

/-- `c` is the first number, or the highest so far, or new and less than `w` below the highest. -/
def Admits (w : Nat) (seen : List Nat) (c : Nat) : Prop :=
  seen = [] ∨ (∀ a ∈ seen, a < c) ∨
    (c ∉ seen ∧ ∃ h ∈ seen, (∀ a ∈ seen, a ≤ h) ∧ h < c + w)

instance (w : Nat) (seen : List Nat) (c : Nat) : Decidable (Admits w seen c) :=
  inferInstanceAs (Decidable (_ ∨ _ ∨ (_ ∧ _)))

structure Highest (seen : List Nat) (h : Nat) : Prop where
  mem : h ∈ seen
  le : ∀ a ∈ seen, a ≤ h

theorem highest_singleton (c : Nat) : Highest [c] c :=
  ⟨List.mem_singleton_self c, fun _ ha ↦ (List.mem_singleton.mp ha).le⟩

theorem Highest.ne_nil {seen : List Nat} {h : Nat} (hh : Highest seen h) : seen ≠ [] :=
  List.ne_nil_of_mem hh.mem

theorem Highest.snoc_of_lt {seen : List Nat} {h c : Nat} (hh : Highest seen h) (hc : h < c) :
    Highest (seen ++ [c]) c := by
  refine ⟨List.mem_append_right _ (List.mem_singleton_self c), fun a ha ↦ ?_⟩
  rcases List.mem_append.mp ha with ha | ha
  · exact (hh.le a ha).trans hc.le
  · exact (List.mem_singleton.mp ha).le

theorem Highest.snoc_of_le {seen : List Nat} {h c : Nat} (hh : Highest seen h) (hc : c ≤ h) :
    Highest (seen ++ [c]) h := by
  refine ⟨List.mem_append_left _ hh.mem, fun a ha ↦ ?_⟩
  rcases List.mem_append.mp ha with ha | ha
  · exact hh.le a ha
  · exact (List.mem_singleton.mp ha).trans_le hc

theorem admits_nil (w c : Nat) : Admits w [] c := .inl rfl

theorem Highest.admits_iff {w : Nat} {seen : List Nat} {h c : Nat} (hh : Highest seen h) :
    Admits w seen c ↔ h < c ∨ (c ∉ seen ∧ h < c + w) := by
  constructor
  · rintro (hnil | hlt | ⟨hnew, h', hm, hle, hw⟩)
    · exact absurd hnil hh.ne_nil
    · exact .inl (hlt h hh.mem)
    · exact .inr ⟨hnew, (hle h hh.mem).trans_lt hw⟩
  · rintro (hlt | ⟨hnew, hw⟩)
    · exact .inr (.inl fun a ha ↦ (hh.le a ha).trans_lt hlt)
    · exact .inr (.inr ⟨hnew, h, hh.mem, hh.le, hw⟩)

theorem Admits.not_mem {w : Nat} {seen : List Nat} {c : Nat} (h : Admits w seen c) : c ∉ seen := by
  rcases h with rfl | hlt | ⟨hnew, -⟩
  · exact List.not_mem_nil
  · exact fun hm ↦ lt_irrefl c (hlt c hm)
  · exact hnew

/-- `seen` are the numbers admitted among those offered: the others had been
admitted before, or came too late and would still be too late. -/
structure AdmittedOf (w : Nat) (offered seen : List Nat) : Prop where
  mem : ∀ a ∈ seen, a ∈ offered
  late : ∀ a ∈ offered, a ∈ seen ∨ ∃ h ∈ seen, a + w ≤ h

theorem admittedOf_nil (w : Nat) : AdmittedOf w [] [] := ⟨fun _ ↦ id, fun _ ha ↦ .inl ha⟩

namespace AdmittedOf

variable {w : Nat} {offered seen : List Nat} {c : Nat}

theorem admits_iff (h : AdmittedOf w offered seen) : Admits w offered c ↔ Admits w seen c := by
  constructor
  · rintro (rfl | hlt | ⟨hnew, m, hm, hle, hw⟩)
    · exact .inl (List.eq_nil_iff_forall_not_mem.mpr fun a ha ↦ List.not_mem_nil (h.mem a ha))
    · exact .inr (.inl fun a ha ↦ hlt a (h.mem a ha))
    · have hmem : m ∈ seen := by
        rcases h.late m hm with hm | ⟨m', hm', hmw⟩
        · exact hm
        · have hle' := hle m' (h.mem m' hm')
          have he : m' = m := by omega
          exact he ▸ hm'
      refine .inr (.inr ⟨fun hc ↦ hnew (h.mem c hc), m, hmem, fun a ha ↦ ?_, hw⟩)
      exact hle a (h.mem a ha)
  · rintro (rfl | hlt | ⟨hnew, m, hm, hle, hw⟩)
    · refine .inl (List.eq_nil_iff_forall_not_mem.mpr fun a ha ↦ ?_)
      rcases h.late a ha with ha | ⟨m, hm, -⟩
      · exact List.not_mem_nil ha
      · exact List.not_mem_nil hm
    · refine .inr (.inl fun a ha ↦ ?_)
      rcases h.late a ha with ha | ⟨m, hm, hmw⟩
      · exact hlt a ha
      · have := hlt m hm
        omega
    · refine .inr (.inr ⟨fun hc ↦ ?_, m, h.mem m hm, fun a ha ↦ ?_, hw⟩)
      · rcases h.late c hc with hc | ⟨m', hm', hmw⟩
        · exact hnew hc
        · have := hle m' hm'
          omega
      · rcases h.late a ha with ha | ⟨m', hm', hmw⟩
        · exact hle a ha
        · have := hle m' hm'
          omega

theorem snoc_of_admits (h : AdmittedOf w offered seen) :
    AdmittedOf w (offered ++ [c]) (seen ++ [c]) := by
  constructor
  · intro a ha
    rw [List.mem_append] at ha ⊢
    exact ha.imp_left (h.mem a)
  · intro a ha
    rcases List.mem_append.mp ha with ha | ha
    · refine (h.late a ha).imp (List.mem_append_left _) fun ⟨m, hm, hmw⟩ ↦ ?_
      exact ⟨m, List.mem_append_left _ hm, hmw⟩
    · exact .inl (List.mem_append_right _ ha)

theorem snoc_of_not_admits {h : Nat} (hs : AdmittedOf w offered seen) (hh : Highest seen h)
    (hc : ¬ Admits w seen c) : AdmittedOf w (offered ++ [c]) seen := by
  refine ⟨fun a ha ↦ List.mem_append_left _ (hs.mem a ha), fun a ha ↦ ?_⟩
  rcases List.mem_append.mp ha with ha | ha
  · exact hs.late a ha
  · rw [List.mem_singleton.mp ha]
    obtain ⟨-, hold⟩ := not_or.mp (hh.admits_iff.not.mp hc)
    by_cases hin : c ∈ seen
    · exact .inl hin
    · exact .inr ⟨h, hh.mem, Nat.le_of_not_lt fun hw ↦ hold ⟨hin, hw⟩⟩

end AdmittedOf

/-- Reads numbers, gives a verdict on each and remembers every number it admitted. -/
def seenWindow (w : Nat) : Machine (List Nat) Nat Bool :=
  .answering fun seen c ↦ (decide (Admits w seen c), if Admits w seen c then seen ++ [c] else seen)

theorem seenWindow_step_of_admits {w : Nat} {seen : List Nat} {c : Nat} (h : Admits w seen c) :
    (seenWindow w).step seen c = (seen ++ [c], [true]) := by
  unfold seenWindow
  rw [Machine.answering_step, if_pos h, decide_eq_true h]

theorem seenWindow_step_of_not_admits {w : Nat} {seen : List Nat} {c : Nat}
    (h : ¬ Admits w seen c) : (seenWindow w).step seen c = (seen, [false]) := by
  unfold seenWindow
  rw [Machine.answering_step, if_neg h, decide_eq_false h]

def accepted {α : Type*} (cs : List α) (vs : List Bool) : List α :=
  ((cs.zip vs).filter (·.2)).map (·.1)

theorem accepted_cons {α : Type*} (c : α) (cs : List α) (v : Bool) (vs : List Bool) :
    accepted (c :: cs) (v :: vs) = if v then c :: accepted cs vs else accepted cs vs := by
  cases v <;> rfl

theorem accepted_map {α β : Type*} (g : α → β) (cs : List α) (vs : List Bool) :
    accepted (cs.map g) vs = (accepted cs vs).map g := by
  induction cs generalizing vs with
  | nil => rfl
  | cons c cs ih =>
    cases vs with
    | nil => rfl
    | cons v vs =>
      rw [List.map_cons, accepted_cons, accepted_cons, ih]
      cases v <;> rfl

theorem seenWindow_final (w : Nat) (seen cs : List Nat) :
    (seenWindow w).final seen cs = seen ++ accepted cs ((seenWindow w).outputs seen cs) := by
  induction cs generalizing seen with
  | nil => exact (List.append_nil seen).symm
  | cons c cs ih =>
    rw [Machine.final_cons, ih, Machine.outputs_cons]
    by_cases h : Admits w seen c
    · rw [seenWindow_step_of_admits h, List.singleton_append, accepted_cons, if_pos rfl,
        List.append_assoc, List.singleton_append]
    · rw [seenWindow_step_of_not_admits h, List.singleton_append, accepted_cons,
        if_neg Bool.false_ne_true]

theorem seenWindow_getElem? {w : Nat} {cs : List Nat} {i c : Nat} (hc : cs[i]? = some c) :
    ((seenWindow w).outputs [] cs)[i]? =
      some (decide
        (Admits w (accepted (cs.take i) (((seenWindow w).outputs [] cs).take i)) c)) := by
  have hget := Machine.answering_getElem? (s := []) (fun seen c ↦
    (decide (Admits w seen c), if Admits w seen c then seen ++ [c] else seen)) hc
  have htake := Machine.answering_take (fun seen c ↦
    (decide (Admits w seen c), if Admits w seen c then seen ++ [c] else seen)) [] cs i
  have hfin := seenWindow_final w [] (cs.take i)
  rw [List.nil_append] at hfin
  unfold seenWindow at hfin ⊢
  rw [hget, htake, ← hfin]

theorem accepted_nodup (w : Nat) (cs : List Nat) :
    (accepted cs ((seenWindow w).outputs [] cs)).Nodup := by
  have hkeep : ((seenWindow w).final [] cs).Nodup := by
    apply Machine.invariant (I := List.Nodup) _ List.nodup_nil cs
    intro seen c hseen
    by_cases h : Admits w seen c
    · rw [seenWindow_step_of_admits h, ← List.concat_eq_append]
      exact hseen.concat h.not_mem
    · rw [seenWindow_step_of_not_admits h]
      exact hseen
  rwa [seenWindow_final, List.nil_append] at hkeep

end KemtlsMavlink.Library
