import Mathlib.Data.List.Basic

namespace KemtlsMavlink.Library

structure Sponge (σ : Type*) where
  rate : Nat
  permute : σ → σ
  xorByte : σ → Nat → UInt8 → σ
  byteAt : σ → Nat → UInt8

namespace Sponge

variable {σ : Type*} (S : Sponge σ)

def xorBytes (s : σ) (pos : Nat) : List UInt8 → σ
  | [] => s
  | b :: m => xorBytes (S.xorByte s pos b) (pos + 1) m

/-- A byte absorbed by a state that has absorbed a part of a block. -/
def absorbByte (t : σ × Nat) (b : UInt8) : σ × Nat :=
  if t.2 + 1 = S.rate then (S.permute (S.xorByte t.1 t.2 b), 0)
  else (S.xorByte t.1 t.2 b, t.2 + 1)

def absorb (t : σ × Nat) (m : List UInt8) : σ × Nat := m.foldl S.absorbByte t

/-- Bytes squeezed from a state that has some bytes of a block left. -/
def squeeze : Nat → σ × Nat → List UInt8 × (σ × Nat)
  | 0, t => ([], t)
  | n + 1, t =>
    let t := if t.2 = 0 then (S.permute t.1, S.rate) else t
    let rest := squeeze n (t.1, t.2 - 1)
    (S.byteAt t.1 (S.rate - t.2) :: rest.1, rest.2)

theorem xorBytes_append (s : σ) (pos : Nat) (m m' : List UInt8) :
    S.xorBytes s pos (m ++ m') = S.xorBytes (S.xorBytes s pos m) (pos + m.length) m' := by
  induction m generalizing s pos with
  | nil => rfl
  | cons b m ih =>
    rw [List.cons_append, xorBytes, xorBytes, ih, List.length_cons, Nat.add_assoc,
      Nat.add_comm 1 m.length]

theorem absorb_lt {t : σ × Nat} (ht : t.2 < S.rate) (m : List UInt8) :
    (S.absorb t m).2 < S.rate := by
  induction m generalizing t with
  | nil => exact ht
  | cons b m ih =>
    refine ih ?_
    rw [absorbByte]
    split_ifs with h
    · exact Nat.zero_lt_of_lt ht
    · change t.2 + 1 < S.rate
      omega

theorem absorb_append (t : σ × Nat) (m m' : List UInt8) :
    S.absorb t (m ++ m') = S.absorb (S.absorb t m) m' := List.foldl_append

theorem absorb_of_lt (s : σ) (pos : Nat) {m : List UInt8} (h : pos + m.length < S.rate) :
    S.absorb (s, pos) m = (S.xorBytes s pos m, pos + m.length) := by
  induction m generalizing s pos with
  | nil => rfl
  | cons b m ih =>
    rw [List.length_cons] at h
    have hbyte : S.absorbByte (s, pos) b = (S.xorByte s pos b, pos + 1) :=
      if_neg (show pos + 1 ≠ S.rate by omega)
    have hlen : pos + 1 + m.length = pos + (m.length + 1) := by omega
    rw [absorb, List.foldl_cons, hbyte]
    refine (ih _ _ (by omega)).trans ?_
    rw [xorBytes, List.length_cons, hlen]

theorem absorb_block (s : σ) (pos : Nat) {m : List UInt8} (hm : m ≠ [])
    (h : pos + m.length = S.rate) : S.absorb (s, pos) m = (S.permute (S.xorBytes s pos m), 0) := by
  induction m generalizing s pos with
  | nil => exact absurd rfl hm
  | cons b m ih =>
    rw [absorb, List.foldl_cons, xorBytes]
    cases m with
    | nil => exact if_pos h
    | cons b' m =>
      rw [List.length_cons, List.length_cons] at h
      have hbyte : S.absorbByte (s, pos) b = (S.xorByte s pos b, pos + 1) :=
        if_neg (show pos + 1 ≠ S.rate by omega)
      rw [hbyte]
      exact ih _ _ (List.cons_ne_nil _ _) (by rw [List.length_cons]; omega)

theorem squeeze_add (m n : Nat) (t : σ × Nat) : S.squeeze (m + n) t =
    ((S.squeeze m t).1 ++ (S.squeeze n (S.squeeze m t).2).1,
      (S.squeeze n (S.squeeze m t).2).2) := by
  induction m generalizing t with
  | zero => rw [Nat.zero_add, squeeze, List.nil_append]
  | succ m ih => rw [Nat.add_right_comm, squeeze, squeeze, ih, List.cons_append]

theorem length_squeeze (n : Nat) (t : σ × Nat) : (S.squeeze n t).1.length = n := by
  induction n generalizing t with
  | zero => rfl
  | succ n ih => rw [squeeze, List.length_cons, ih]

theorem take_squeeze (m n : Nat) (t : σ × Nat) :
    (S.squeeze (m + n) t).1.take m = (S.squeeze m t).1 := by
  rw [squeeze_add]
  exact List.take_left' (S.length_squeeze m t)

theorem drop_squeeze (m n : Nat) (t : σ × Nat) :
    (S.squeeze (m + n) t).1.drop m = (S.squeeze n (S.squeeze m t).2).1 := by
  rw [squeeze_add]
  exact List.drop_left' (S.length_squeeze m t)

theorem squeeze_le (n : Nat) {t : σ × Nat} (ht : t.2 ≤ S.rate) :
    (S.squeeze n t).2.2 ≤ S.rate := by
  induction n generalizing t with
  | zero => exact ht
  | succ n ih =>
    refine ih ?_
    split_ifs
    · exact Nat.sub_le _ _
    · exact Nat.le_trans (Nat.sub_le _ _) ht

theorem squeeze_of_le (s : σ) {n k : Nat} (hn : n ≤ k) (hk : k ≤ S.rate) :
    S.squeeze n (s, k) =
      ((List.range n).map (fun i ↦ S.byteAt s (S.rate - k + i)), (s, k - n)) := by
  induction n generalizing k with
  | zero => rfl
  | succ n ih =>
    have hk0 : k ≠ 0 := by omega
    rw [squeeze, if_neg (show ¬(s, k).2 = 0 from hk0), ih (by omega) (by omega),
      List.range_succ_eq_map, List.map_cons, List.map_map, Nat.sub_sub, Nat.add_comm 1 n]
    refine Prod.ext (congrArg (_ :: ·) (List.map_congr_left fun i _ ↦ ?_)) rfl
    rw [Function.comp_apply, show S.rate - (k - 1) + i = S.rate - k + i.succ by omega]

theorem squeeze_block (s : σ) {n : Nat} (h0 : n ≠ 0) (hn : n ≤ S.rate) :
    S.squeeze n (s, 0) =
      ((List.range n).map (fun i ↦ S.byteAt (S.permute s) i), (S.permute s, S.rate - n)) := by
  have hnext : S.squeeze n (s, 0) = S.squeeze n (S.permute s, S.rate) := by
    obtain ⟨n, rfl⟩ := Nat.exists_eq_succ_of_ne_zero h0
    rw [squeeze, squeeze, if_pos rfl, if_neg (show ¬(S.permute s, S.rate).2 = 0 by omega)]
  rw [hnext, squeeze_of_le S _ hn (Nat.le_refl _)]
  refine Prod.ext (List.map_congr_left fun i _ ↦ ?_) rfl
  rw [Nat.sub_self, Nat.zero_add]

end Sponge

end KemtlsMavlink.Library
