import KemtlsMavlink.Library.Machine

namespace KemtlsMavlink.Library.Machine

/-! Two runs of a machine on the same inputs, and what can be seen of them. -/

variable {σ ε ω β : Type*} (M : Machine σ ε ω)

/-- What `f` shows of every step, of the state that it reaches and of its outputs. -/
def observe (f : σ × List ω → β) : σ → List ε → List β
  | _, [] => []
  | s, e :: es => f (M.step s e) :: observe f (M.step s e).1 es

def twice : Machine (σ × σ) ε (List ω × List ω) :=
  ⟨fun t e ↦ (((M.step t.1 e).1, (M.step t.2 e).1), [((M.step t.1 e).2, (M.step t.2 e).2)])⟩

variable {M} {f : σ × List ω → β}

/-- The two-run rule. When `P` says of related states exactly whether a step shows
the same in both, and then keeps them related, the runs that show the same are
those along which `P` holds. -/
theorem observe_eq_iff {R : σ → σ → Prop} {P : σ × σ → ε → Prop}
    (hstep : ∀ s t e, R s t → (f (M.step s e) = f (M.step t e) ↔ P (s, t) e))
    (hkeep : ∀ s t e, R s t → P (s, t) e → R (M.step s e).1 (M.step t e).1)
    {s t : σ} (h : R s t) (es : List ε) :
    M.observe f s es = M.observe f t es ↔ M.twice.Guarded P (s, t) es := by
  induction es generalizing s t with
  | nil => exact iff_of_true rfl trivial
  | cons e es ih =>
    rw [observe, observe, List.cons.injEq, hstep s t e h]
    exact and_congr_right fun hp ↦ ih (hkeep s t e h hp)

end KemtlsMavlink.Library.Machine
