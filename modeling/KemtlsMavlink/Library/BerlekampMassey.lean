import Mathlib.Algebra.Polynomial.Degree.Lemmas
import Mathlib.Algebra.Polynomial.Div
import Mathlib.Algebra.Polynomial.FieldDivision
import Mathlib.Tactic.LinearCombination

namespace KemtlsMavlink.Library.BerlekampMassey

open Polynomial

variable {F : Type*} [Field F]

/-- The recurrence with the connection polynomial `c` and the length `l` gives the coefficients of
`s` up to `n`. -/
def Generates (s c : F[X]) (l n : Nat) : Prop := ∀ k, l ≤ k → k < n → (c * s).coeff k = 0

/-- The state: a recurrence `c` of length `len`, and the shifted recurrence `p` before its last
change of length, with the discrepancy `dp` it had. -/
structure State (F : Type*) [Field F] where
  c : F[X]
  p : F[X]
  len : Nat
  dp : F

namespace State

noncomputable def init : State F := ⟨1, X, 0, 1⟩

noncomputable def discrepancy (s : F[X]) (n : Nat) (b : State F) : F := (b.c * s).coeff n

open Classical in
noncomputable def next (s : F[X]) (n : Nat) (b : State F) : State F :=
  let d := b.discrepancy s n
  let c := b.c - C (d / b.dp) * b.p
  if d ≠ 0 ∧ b.len < n + 1 - b.len then ⟨c, X * b.c, n + 1 - b.len, d⟩
  else ⟨c, X * b.p, b.len, b.dp⟩

structure Inv (s : F[X]) (n : Nat) (b : State F) : Prop where
  coeff_c : b.c.coeff 0 = 1
  coeff_p : b.p.coeff 0 = 0
  degree_c : b.c.natDegree ≤ b.len
  degree_p : b.p.natDegree + b.len ≤ n + 1
  len_le : b.len ≤ n
  dp_ne : b.dp ≠ 0
  gen : Generates s b.c b.len n
  gen_p : Generates s b.p (n + 1 - b.len) n
  disc : 0 < b.len → (b.p * s).coeff n = b.dp

variable {s : F[X]} {n : Nat} {b : State F}

theorem inv_init (s : F[X]) : Inv s 0 (init : State F) where
  coeff_c := coeff_one_zero
  coeff_p := coeff_X_zero
  degree_c := natDegree_one.le
  degree_p := natDegree_X.le
  len_le := le_rfl
  dp_ne := one_ne_zero
  gen k _ hk := absurd hk (Nat.not_lt_zero k)
  gen_p k _ hk := absurd hk (Nat.not_lt_zero k)
  disc h := absurd h (Nat.lt_irrefl 0)

theorem coeff_sub_mul (s c p : F[X]) (a : F) (k : Nat) :
    ((c - C a * p) * s).coeff k = (c * s).coeff k - a * (p * s).coeff k := by
  rw [sub_mul, coeff_sub, mul_assoc, coeff_C_mul]

theorem coeff_X_mul_mul (s c : F[X]) (k : Nat) : (X * c * s).coeff (k + 1) = (c * s).coeff k := by
  rw [mul_assoc, coeff_X_mul]

theorem natDegree_X_mul_le' (p : F[X]) : (X * p).natDegree ≤ p.natDegree + 1 := by
  rw [add_comm]
  exact natDegree_mul_le.trans (Nat.add_le_add_right natDegree_X_le _)

theorem Inv.gen_next (h : Inv s n b) {l : Nat} (hl : b.len ≤ l) (hp : n + 1 - b.len ≤ l)
    (h0 : b.discrepancy s n ≠ 0 → l ≤ n → 0 < b.len) :
    Generates s (b.c - C (b.discrepancy s n / b.dp) * b.p) l (n + 1) := by
  intro k hk hkn
  rw [coeff_sub_mul]
  rcases Nat.lt_succ_iff_lt_or_eq.mp hkn with hlt | rfl
  · rw [h.gen k (hl.trans hk) hlt, h.gen_p k (hp.trans hk) hlt, mul_zero, sub_zero]
  · by_cases hd : b.discrepancy s k = 0
    · rw [hd, zero_div, zero_mul, sub_zero]
      exact hd
    · rw [h.disc (h0 hd hk), div_mul_cancel₀ _ h.dp_ne]
      exact sub_self _

theorem Inv.degree_next (h : Inv s n b) :
    (b.c - C (b.discrepancy s n / b.dp) * b.p).natDegree ≤ max b.len (n + 1 - b.len) := by
  have hp := h.degree_p
  refine (natDegree_sub_le _ _).trans (max_le_max h.degree_c ?_)
  exact (natDegree_C_mul_le _ _).trans (by omega)

theorem Inv.coeff_next (h : Inv s n b) :
    (b.c - C (b.discrepancy s n / b.dp) * b.p).coeff 0 = 1 := by
  rw [coeff_sub, coeff_C_mul, h.coeff_c, h.coeff_p, mul_zero, sub_zero]

theorem Inv.next (h : Inv s n b) : Inv s (n + 1) (b.next s n) := by
  have hlen := h.len_le
  have hp := h.degree_p
  unfold State.next
  dsimp only
  split_ifs with hc
  · exact {
      coeff_c := h.coeff_next
      coeff_p := coeff_X_mul_zero _
      degree_c := h.degree_next.trans (max_le hc.2.le le_rfl)
      degree_p := by
        have h1 := natDegree_X_mul_le' b.c
        have h2 := h.degree_c
        dsimp only
        omega
      len_le := Nat.sub_le _ _
      dp_ne := hc.1
      gen := h.gen_next hc.2.le le_rfl fun _ hl ↦ by
        dsimp only at hl
        omega
      gen_p := by
        intro k hk hkn
        obtain ⟨j, rfl⟩ : ∃ j, k = j + 1 := ⟨k - 1, by dsimp only at hk; omega⟩
        rw [coeff_X_mul_mul]
        refine h.gen j ?_ (by omega)
        dsimp only at hk
        omega
      disc := fun _ ↦ coeff_X_mul_mul _ _ _ }
  · have hshort : b.discrepancy s n ≠ 0 → n + 1 - b.len ≤ b.len := fun hd ↦
      Nat.le_of_not_lt fun hlt ↦ hc ⟨hd, hlt⟩
    have hsame : b.discrepancy s n = 0 → b.c - C (b.discrepancy s n / b.dp) * b.p = b.c := by
      intro hd
      rw [hd, zero_div, C_0, zero_mul, sub_zero]
    exact {
      coeff_c := h.coeff_next
      coeff_p := coeff_X_mul_zero _
      degree_c := by
        by_cases hd : b.discrepancy s n = 0
        · exact (congrArg natDegree (hsame hd)).trans_le h.degree_c
        · exact h.degree_next.trans (max_le le_rfl (hshort hd))
      degree_p := by
        have h1 := natDegree_X_mul_le' b.p
        dsimp only
        omega
      len_le := hlen.trans (Nat.le_succ n)
      dp_ne := h.dp_ne
      gen := by
        by_cases hd : b.discrepancy s n = 0
        · intro k hk hkn
          rw [hsame hd]
          rcases Nat.lt_succ_iff_lt_or_eq.mp hkn with hlt | rfl
          · exact h.gen k hk hlt
          · exact hd
        · have := hshort hd
          exact h.gen_next le_rfl this fun _ _ ↦ by omega
      gen_p := by
        intro k hk hkn
        dsimp only at hk
        obtain ⟨j, rfl⟩ : ∃ j, k = j + 1 := ⟨k - 1, by omega⟩
        rw [coeff_X_mul_mul]
        exact h.gen_p j (by omega) (by omega)
      disc := fun hl ↦ (coeff_X_mul_mul _ _ _).trans (h.disc hl) }

noncomputable def run (s : F[X]) : Nat → State F
  | 0 => init
  | n + 1 => (run s n).next s n

theorem inv_run (s : F[X]) : ∀ n, Inv s n (run s n)
  | 0 => inv_init s
  | n + 1 => (inv_run s n).next

end State

theorem lt_add_of_discrepancy {s c e : F[X]} {l m n : Nat} (hc : c.natDegree ≤ l)
    (he : e.natDegree ≤ m) (he0 : e.coeff 0 ≠ 0) (hgen : Generates s c l n)
    (hgen' : Generates s e m (n + 1)) (hd : (c * s).coeff n ≠ 0) : n < l + m := by
  by_contra hlt
  have h₁ : (e * (c * s)).coeff n = e.coeff 0 * (c * s).coeff n := by
    rw [coeff_mul]
    refine (Finset.sum_eq_single (0, n) ?_ ?_)
    · rintro ⟨i, j⟩ hij hne
      have hij := Finset.HasAntidiagonal.mem_antidiagonal.mp hij
      dsimp only at hij ⊢
      by_cases hi : i ≤ m
      · have hi0 : i ≠ 0 := by
          rintro rfl
          exact hne (by rw [← hij, Nat.zero_add])
        rw [hgen j (by omega) (by omega), mul_zero]
      · rw [coeff_eq_zero_of_natDegree_lt (by omega), zero_mul]
    · exact fun h ↦ absurd (Finset.HasAntidiagonal.mem_antidiagonal.mpr (Nat.zero_add n)) h
  have h₂ : (c * (e * s)).coeff n = 0 := by
    rw [coeff_mul]
    refine Finset.sum_eq_zero ?_
    rintro ⟨i, j⟩ hij
    have hij := Finset.HasAntidiagonal.mem_antidiagonal.mp hij
    dsimp only at hij ⊢
    by_cases hi : i ≤ l
    · rw [hgen' j (by omega) (by omega), mul_zero]
    · rw [coeff_eq_zero_of_natDegree_lt (by omega), zero_mul]
  rw [mul_left_comm, h₁] at h₂
  exact mul_ne_zero he0 hd h₂

namespace State

/-- The recurrence found is never longer than one that gives the whole sequence. -/
theorem run_len_le {s e : F[X]} {m N : Nat} (he : e.natDegree ≤ m) (he0 : e.coeff 0 ≠ 0)
    (hgen : Generates s e m N) : ∀ n ≤ N, (run s n).len ≤ m
  | 0, _ => Nat.zero_le m
  | n + 1, hn => by
    have h := inv_run s n
    have ih := run_len_le he he0 hgen n (by omega)
    change ((run s n).next s n).len ≤ m
    unfold State.next
    dsimp only
    split_ifs with hc
    · have hlt := lt_add_of_discrepancy h.degree_c he he0 h.gen
        (fun k hk hkn ↦ hgen k hk (by omega)) hc.1
      dsimp only
      omega
    · exact ih

end State

end KemtlsMavlink.Library.BerlekampMassey
