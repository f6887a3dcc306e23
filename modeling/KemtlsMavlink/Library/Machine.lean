import Mathlib.Data.List.Basic
import Mathlib.Data.List.Induction

namespace KemtlsMavlink.Library

/-- A deterministic machine that reads one input at a time and emits outputs. -/
structure Machine (σ ε ω : Type*) where
  step : σ → ε → σ × List ω

namespace Machine

variable {σ ε ω : Type*} (M : Machine σ ε ω)

def final (s : σ) (es : List ε) : σ := es.foldl (fun s e ↦ (M.step s e).1) s

def outputs : σ → List ε → List ω
  | _, [] => []
  | s, e :: es => (M.step s e).2 ++ outputs (M.step s e).1 es

@[simp] theorem final_nil (s : σ) : M.final s [] = s := rfl

@[simp] theorem final_cons (s : σ) (e : ε) (es : List ε) :
    M.final s (e :: es) = M.final (M.step s e).1 es := rfl

@[simp] theorem outputs_nil (s : σ) : M.outputs s [] = [] := rfl

@[simp] theorem outputs_cons (s : σ) (e : ε) (es : List ε) :
    M.outputs s (e :: es) = (M.step s e).2 ++ M.outputs (M.step s e).1 es := rfl

theorem final_append (s : σ) (as bs : List ε) :
    M.final s (as ++ bs) = M.final (M.final s as) bs := List.foldl_append ..

theorem final_snoc (s : σ) (es : List ε) (e : ε) :
    M.final s (es ++ [e]) = (M.step (M.final s es) e).1 := by
  rw [final_append, final_cons, final_nil]

theorem outputs_append (s : σ) (as bs : List ε) :
    M.outputs s (as ++ bs) = M.outputs s as ++ M.outputs (M.final s as) bs := by
  induction as generalizing s with
  | nil => rfl
  | cons a as ih => simp only [List.cons_append, outputs_cons, ih, List.append_assoc, final_cons]

theorem outputs_snoc (s : σ) (es : List ε) (e : ε) :
    M.outputs s (es ++ [e]) = M.outputs s es ++ (M.step (M.final s es) e).2 := by
  rw [outputs_append, outputs_cons, outputs_nil, List.append_nil]

/-- Every step of the run satisfies `P`, a condition on the state before the
step and on its input. -/
def Guarded (P : σ → ε → Prop) : σ → List ε → Prop
  | _, [] => True
  | s, e :: es => P s e ∧ Guarded P (M.step s e).1 es

variable {M} {P Q : σ → ε → Prop}

theorem guarded_append {s : σ} {as bs : List ε} :
    M.Guarded P s (as ++ bs) ↔ M.Guarded P s as ∧ M.Guarded P (M.final s as) bs := by
  induction as generalizing s with
  | nil => simp [Guarded]
  | cons a as ih => simp only [List.cons_append, Guarded, ih, final_cons, and_assoc]

theorem guarded_snoc {s : σ} {es : List ε} {e : ε} :
    M.Guarded P s (es ++ [e]) ↔ M.Guarded P s es ∧ P (M.final s es) e := by
  simp [guarded_append, Guarded]

theorem guarded_iff {s : σ} {es : List ε} :
    M.Guarded P s es ↔ ∀ as e bs, es = as ++ e :: bs → P (M.final s as) e := by
  constructor
  · rintro h as e bs rfl
    exact (guarded_append.mp h).2.1
  · intro h
    induction es generalizing s with
    | nil => trivial
    | cons e es ih =>
      refine ⟨h [] e es rfl, ih fun as e' bs he ↦ ?_⟩
      exact h (e :: as) e' bs (by rw [he, List.cons_append])

instance decidableGuarded [∀ s e, Decidable (P s e)] : ∀ s es, Decidable (M.Guarded P s es)
  | _, [] => isTrue trivial
  | s, e :: es =>
    have := decidableGuarded (M.step s e).1 es
    inferInstanceAs (Decidable (_ ∧ _))

theorem Guarded.imp {s : σ} {es : List ε} (h : ∀ s e, P s e → Q s e) (hp : M.Guarded P s es) :
    M.Guarded Q s es :=
  guarded_iff.mpr fun as e bs he ↦ h _ _ (guarded_iff.mp hp as e bs he)

theorem Guarded.and {s : σ} {es : List ε} (hp : M.Guarded P s es) (hq : M.Guarded Q s es) :
    M.Guarded (fun s e ↦ P s e ∧ Q s e) s es :=
  guarded_iff.mpr fun as e bs he ↦ ⟨guarded_iff.mp hp as e bs he, guarded_iff.mp hq as e bs he⟩

theorem guarded_of_forall {s : σ} {es : List ε} (h : ∀ e ∈ es, ∀ s, P s e) :
    M.Guarded P s es :=
  guarded_iff.mpr fun as e bs he ↦ h e (by simp [he]) _

/-- The invariant rule for guarded runs: a property that every admissible step
preserves holds at the end of every guarded run. -/
theorem Guarded.invariant {I : σ → Prop} (hstep : ∀ s e, I s → P s e → I (M.step s e).1)
    {s : σ} {es : List ε} (hg : M.Guarded P s es) (hs : I s) : I (M.final s es) := by
  induction es generalizing s with
  | nil => exact hs
  | cons e es ih => exact ih hg.2 (hstep s e hs hg.1)

theorem Guarded.of_invariant {I : σ → Prop}
    (hstep : ∀ s e, I s → P s e → I (M.step s e).1 ∧ Q s e)
    {s : σ} {es : List ε} (hg : M.Guarded P s es) (hs : I s) : M.Guarded Q s es := by
  induction es generalizing s with
  | nil => trivial
  | cons e es ih =>
    obtain ⟨hI, hQ⟩ := hstep s e hs hg.1
    exact ⟨hQ, ih hg.2 hI⟩

theorem invariant {I : σ → Prop} (hstep : ∀ s e, I s → I (M.step s e).1)
    {s : σ} (hs : I s) (es : List ε) : I (M.final s es) :=
  Guarded.invariant (P := fun _ _ ↦ True) (fun s e h _ ↦ hstep s e h)
    (guarded_of_forall fun _ _ _ ↦ trivial) hs

theorem Guarded.outputs {I : σ → Prop} {O : ω → Prop}
    (hstep : ∀ s e, I s → P s e → I (M.step s e).1 ∧ ∀ o ∈ (M.step s e).2, O o)
    {s : σ} {es : List ε} (hg : M.Guarded P s es) (hs : I s) :
    ∀ o ∈ M.outputs s es, O o := by
  induction es generalizing s with
  | nil => simp
  | cons e es ih =>
    obtain ⟨hI, hO⟩ := hstep s e hs hg.1
    simp only [outputs_cons, List.mem_append]
    rintro o (ho | ho)
    · exact hO o ho
    · exact ih hg.2 hI o ho

/-- The projection rule. When `R` relates the machine to another one that takes
the step of `inp e` whenever the machine takes the step of `e`, and none when
`inp e` is `none`, then it relates them after every run. -/
theorem relates {τ ε' ω' : Type*} {N : Machine τ ε' ω'} {R : σ → τ → Prop} {inp : ε → Option ε'}
    (hskip : ∀ s t e, R s t → inp e = none → R (M.step s e).1 t)
    (hstep : ∀ s t e e', R s t → inp e = some e' → R (M.step s e).1 (N.step t e').1)
    {s : σ} {t : τ} (h : R s t) (es : List ε) :
    R (M.final s es) (N.final t (es.filterMap inp)) := by
  induction es generalizing s t with
  | nil => exact h
  | cons e es ih =>
    cases he : inp e with
    | none =>
      rw [List.filterMap_cons_none he]
      exact ih (hskip s t e h he)
    | some e' =>
      rw [List.filterMap_cons_some he]
      exact ih (hstep s t e e' h he)

/-- The refinement rule. When every step of the machine on an input that satisfies `Q`
is a step of `N` under `R`, with `g` on inputs and `f` on outputs, then so is every run. -/
theorem refines {τ ε' ω' : Type*} {N : Machine τ ε' ω'} {R : σ → τ → Prop} {Q : ε → Prop}
    (g : ε → ε') (f : ω → ω') (hstep : ∀ s t e, R s t → Q e →
      R (M.step s e).1 (N.step t (g e)).1 ∧ (M.step s e).2.map f = (N.step t (g e)).2)
    {s : σ} {t : τ} {es : List ε} (h : R s t) (hq : ∀ e ∈ es, Q e) :
    R (M.final s es) (N.final t (es.map g)) ∧
      (M.outputs s es).map f = N.outputs t (es.map g) := by
  induction es generalizing s t with
  | nil => exact ⟨h, rfl⟩
  | cons e es ih =>
    obtain ⟨he, hes⟩ := List.forall_mem_cons.mp hq
    obtain ⟨hR, hout⟩ := hstep s t e h he
    obtain ⟨hfin, houts⟩ := ih hR hes
    refine ⟨hfin, ?_⟩
    rw [List.map_cons, outputs_cons, outputs_cons, List.map_append, hout, houts]

/-- The machine together with all that it has emitted since the last input of a
kind, the outputs of that input included. -/
def since (M : Machine σ ε ω) (p : ε → Prop) [DecidablePred p] : Machine (σ × List ω) ε ω :=
  ⟨fun t e ↦
    (((M.step t.1 e).1, (if p e then [] else t.2) ++ (M.step t.1 e).2), (M.step t.1 e).2)⟩

section Since

variable {p : ε → Prop} [DecidablePred p]

theorem guarded_since {t : σ × List ω} {es : List ε} :
    (M.since p).Guarded (fun t e ↦ P t.1 e) t es ↔ M.Guarded P t.1 es := by
  induction es generalizing t with
  | nil => exact Iff.rfl
  | cons e es ih => exact and_congr_right fun _ ↦ ih

end Since

def answering (f : σ → ε → ω × σ) : Machine σ ε ω := ⟨fun s e ↦ ((f s e).2, [(f s e).1])⟩

section Answering

variable (f : σ → ε → ω × σ)

@[simp] theorem answering_step (s : σ) (e : ε) :
    (answering f).step s e = ((f s e).2, [(f s e).1]) := rfl

theorem answering_length (s : σ) (es : List ε) :
    ((answering f).outputs s es).length = es.length := by
  induction es generalizing s with
  | nil => rfl
  | cons e es ih => simp [ih]

theorem answering_take (s : σ) (es : List ε) (i : Nat) :
    ((answering f).outputs s es).take i = (answering f).outputs s (es.take i) := by
  induction es generalizing s i with
  | nil => simp
  | cons e es ih =>
    cases i with
    | zero => rfl
    | succ i => simp [ih]

theorem answering_getElem? {s : σ} {es : List ε} {i : Nat} {e : ε} (he : es[i]? = some e) :
    ((answering f).outputs s es)[i]? = some (f ((answering f).final s (es.take i)) e).1 := by
  induction es generalizing s i with
  | nil => cases he
  | cons e' es ih =>
    cases i with
    | zero =>
      cases he
      rfl
    | succ i => simpa using ih (by simpa using he)

end Answering

/-- `I` holds of the state, and of all that has been emitted, wherever the run
is cut. -/
def Always (M : Machine σ ε ω) (I : σ → List ω → Prop) (s : σ) (es : List ε) : Prop :=
  ∀ as bs, es = as ++ bs → I (M.final s as) (M.outputs s as)

theorem always_nil {I : σ → List ω → Prop} {s : σ} : M.Always I s [] ↔ I s [] := by
  constructor
  · intro h
    exact h [] [] rfl
  · intro h as bs he
    obtain ⟨rfl, -⟩ := List.append_eq_nil_iff.mp he.symm
    exact h

theorem always_snoc {I : σ → List ω → Prop} {s : σ} {es : List ε} {e : ε} :
    M.Always I s (es ++ [e]) ↔
      M.Always I s es ∧ I (M.final s (es ++ [e])) (M.outputs s (es ++ [e])) := by
  constructor
  · intro h
    exact ⟨fun as bs he ↦ h as (bs ++ [e]) (by rw [he, List.append_assoc]), h _ [] (by simp)⟩
  · rintro ⟨h, hlast⟩ as bs he
    rcases List.eq_nil_or_concat bs with rfl | ⟨bs', b, rfl⟩
    · rw [List.append_nil] at he
      exact he ▸ hlast
    · rw [List.concat_eq_append, ← List.append_assoc] at he
      exact h as bs' (List.append_inj_left' he rfl)

/-- The exactness rule. `J` is what admissible steps keep up and `I` what is
asked for. When `J` gives `I`, and a step from `J` that is not admissible breaks
`I`, then the runs along which `I` holds are the guarded ones. -/
theorem always_iff_guarded {I J : σ → List ω → Prop} {P : σ → ε → Prop} {Q : ε → Prop}
    (hI : ∀ s o, J s o → I s o)
    (hkeep : ∀ s o e, J s o → Q e → P s e → J (M.step s e).1 (o ++ (M.step s e).2))
    (hbreak : ∀ s o e, J s o → Q e → I (M.step s e).1 (o ++ (M.step s e).2) → P s e)
    {s : σ} {es : List ε} (hs : J s []) (hq : ∀ e ∈ es, Q e) :
    M.Always I s es ↔ M.Guarded P s es := by
  have hrun : ∀ es, (∀ e ∈ es, Q e) → M.Guarded P s es → J (M.final s es) (M.outputs s es) := by
    intro es
    induction es using List.reverseRecOn with
    | nil => exact fun _ _ ↦ hs
    | append_singleton es e ih =>
      intro hq hg
      obtain ⟨hg, hp⟩ := guarded_snoc.mp hg
      rw [final_snoc, outputs_snoc]
      exact hkeep _ _ _ (ih (fun e he ↦ hq e (by simp [he])) hg) (hq e (by simp)) hp
  induction es using List.reverseRecOn with
  | nil => simpa [always_nil, Guarded] using hI _ _ hs
  | append_singleton es e ih =>
    have hq' : ∀ e ∈ es, Q e := fun e he ↦ hq e (by simp [he])
    rw [always_snoc, guarded_snoc, final_snoc, outputs_snoc]
    apply (and_congr_left fun _ ↦ ih hq').trans
    apply and_congr_right
    intro hg
    have hJ := hrun es hq' hg
    exact ⟨hbreak _ _ _ hJ (hq e (by simp)), fun hp ↦ hI _ _ (hkeep _ _ _ hJ (hq e (by simp)) hp)⟩

end Machine

theorem exists_last_or {α : Type*} (p : α → Prop) (l : List α) :
    (∀ a ∈ l, ¬ p a) ∨ ∃ as a bs, l = as ++ a :: bs ∧ p a ∧ ∀ b ∈ bs, ¬ p b := by
  induction l with
  | nil => exact .inl fun a ha ↦ absurd ha List.not_mem_nil
  | cons a l ih =>
    rcases ih with hl | ⟨as, b, bs, rfl, hb, hbs⟩
    · by_cases ha : p a
      · exact .inr ⟨[], a, l, rfl, ha, hl⟩
      · exact .inl (List.forall_mem_cons.mpr ⟨ha, hl⟩)
    · exact .inr ⟨a :: as, b, bs, rfl, hb, hbs⟩

end KemtlsMavlink.Library
