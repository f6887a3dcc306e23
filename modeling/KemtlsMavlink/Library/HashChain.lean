import Mathlib.Data.List.Forall2
import Mathlib.Data.List.Induction

namespace KemtlsMavlink.Library

/-- A digest that absorbs one message after another: `input d m` is what is
hashed when the digest `d` absorbs `m`. -/
structure HashChain (δ ι α : Type*) where
  hash : ι → δ
  input : δ → α → ι

namespace HashChain

variable {δ ι α : Type*} (C : HashChain δ ι α)

def run (d : δ) (ms : List α) : δ := ms.foldl (fun d m ↦ C.hash (C.input d m)) d

def hashed : δ → List α → List ι
  | _, [] => []
  | d, m :: ms => C.input d m :: hashed (C.hash (C.input d m)) ms

theorem run_snoc (d : δ) (ms : List α) (m : α) :
    C.run d (ms ++ [m]) = C.hash (C.input (C.run d ms) m) := by
  rw [run, List.foldl_append]
  rfl

theorem hashed_snoc (d : δ) (ms : List α) (m : α) :
    C.hashed d (ms ++ [m]) = C.hashed d ms ++ [C.input (C.run d ms) m] := by
  induction ms generalizing d with
  | nil => rfl
  | cons m' ms ih => exact congrArg (_ :: ·) (ih _)

def Collides (xs : List ι) : Prop := ∃ x ∈ xs, ∃ y ∈ xs, x ≠ y ∧ C.hash x = C.hash y

/-- What two chains that end alike have hashed gives the hash away: two different
inputs with one digest, or one whose digest is the start of the chains. -/
def Broken (start : δ) (xs : List ι) : Prop := C.Collides xs ∨ ∃ x ∈ xs, C.hash x = start

variable {C}

theorem Broken.mono {start : δ} {xs ys : List ι} (hsub : ∀ x ∈ xs, x ∈ ys)
    (h : C.Broken start xs) : C.Broken start ys := by
  rcases h with ⟨x, hx, y, hy, hxy⟩ | ⟨x, hx, he⟩
  · exact .inl ⟨x, hsub x hx, y, hsub y hy, hxy⟩
  · exact .inr ⟨x, hsub x hx, he⟩

/-- Chains with different messages end differently, unless the hash is broken. -/
theorem broken_of_run_eq (hinj : ∀ d m d' m', C.input d m = C.input d' m' → d = d' ∧ m = m')
    {start : δ} {ms ms' : List α} (he : C.run start ms = C.run start ms') (hne : ms ≠ ms') :
    C.Broken start (C.hashed start ms ++ C.hashed start ms') := by
  induction ms using List.reverseRecOn generalizing ms' with
  | nil =>
    rcases List.eq_nil_or_concat ms' with rfl | ⟨ms', m', rfl⟩
    · exact absurd rfl hne
    · rw [List.concat_eq_append, run_snoc] at he
      rw [List.concat_eq_append, hashed_snoc]
      exact .inr ⟨_, by simp, he.symm⟩
  | append_singleton ms m ih =>
    rcases List.eq_nil_or_concat ms' with rfl | ⟨ms', m', rfl⟩
    · rw [run_snoc] at he
      rw [hashed_snoc]
      exact .inr ⟨_, by simp, he⟩
    · rw [List.concat_eq_append] at he hne ⊢
      rw [run_snoc, run_snoc] at he
      rw [hashed_snoc, hashed_snoc]
      by_cases hin : C.input (C.run start ms) m = C.input (C.run start ms') m'
      · -- the last inputs are one, so the chains differ before them
        obtain ⟨hrun, rfl⟩ := hinj _ _ _ _ hin
        have hms : ms ≠ ms' := fun h ↦ hne (by rw [h])
        apply (ih hrun hms).mono
        intro x hx
        rw [List.mem_append] at hx ⊢
        exact hx.imp (List.mem_append_left _) (List.mem_append_left _)
      · exact .inl ⟨_, by simp, _, by simp, hin, he⟩

end HashChain

/-- A code whose words show, up to `R`, what they stand for and where they end is
decodable from the concatenation of the words. -/
theorem forall₂_of_flatMap_eq {α β : Type*} {code : α → List β} {Q : α → Prop} {R : α → α → Prop}
    (hne : ∀ a, code a ≠ [])
    (hcode : ∀ a b xs ys, Q a → Q b → code a ++ xs = code b ++ ys → R a b ∧ xs = ys)
    {as bs : List α} (ha : ∀ a ∈ as, Q a) (hb : ∀ b ∈ bs, Q b)
    (h : as.flatMap code = bs.flatMap code) : List.Forall₂ R as bs := by
  induction as generalizing bs with
  | nil =>
    cases bs with
    | nil => exact .nil
    | cons b bs =>
      rw [List.flatMap_nil, List.flatMap_cons] at h
      exact absurd (List.append_eq_nil_iff.mp h.symm).1 (hne b)
  | cons a as ih =>
    cases bs with
    | nil =>
      rw [List.flatMap_nil, List.flatMap_cons] at h
      exact absurd (List.append_eq_nil_iff.mp h).1 (hne a)
    | cons b bs =>
      obtain ⟨ha₀, ha⟩ := List.forall_mem_cons.mp ha
      obtain ⟨hb₀, hb⟩ := List.forall_mem_cons.mp hb
      rw [List.flatMap_cons, List.flatMap_cons] at h
      obtain ⟨hR, htail⟩ := hcode a b _ _ ha₀ hb₀ h
      exact .cons hR (ih ha hb htail)

end KemtlsMavlink.Library
