import KemtlsMavlink.Library.SeenWindow
import Mathlib.Data.Nat.Bitwise

namespace KemtlsMavlink.Library

theorem testBit_shiftLeft64 {b k : UInt64} (hk : k.toNat < 64) {d : Nat} (hd : d < 64) :
    (b <<< k).toNat.testBit d = true ↔ k.toNat ≤ d ∧ b.toNat.testBit (d - k.toNat) = true := by
  rw [UInt64.toNat_shiftLeft, Nat.testBit_mod_two_pow, Nat.testBit_shiftLeft,
    Nat.mod_eq_of_lt hk, decide_eq_true hd, Bool.true_and, Bool.and_eq_true, decide_eq_true_eq]

theorem testBit_one_shiftLeft64 {k : UInt64} (hk : k.toNat < 64) {d : Nat} (hd : d < 64) :
    (1 <<< k : UInt64).toNat.testBit d = true ↔ d = k.toNat := by
  rw [testBit_shiftLeft64 hk hd, UInt64.toNat_one, Nat.testBit_one_eq_true_iff_self_eq_zero]
  omega

theorem testBit_or64 (b c : UInt64) (d : Nat) :
    (b ||| c).toNat.testBit d = true ↔ b.toNat.testBit d = true ∨ c.toNat.testBit d = true := by
  rw [UInt64.toNat_or, Nat.testBit_or, Bool.or_eq_true]

theorem testBit_lt64 {b : UInt64} {d : Nat} (h : b.toNat.testBit d = true) : d < 64 := by
  by_contra hd
  have hlt : b.toNat < 2 ^ d := b.toNat_lt.trans_le (Nat.pow_le_pow_right (by omega) (by omega))
  rw [Nat.testBit_lt_two_pow hlt] at h
  cases h

theorem and_shiftLeft64_ne_zero {b k : UInt64} (hk : k.toNat < 64) :
    b &&& 1 <<< k ≠ 0 ↔ b.toNat.testBit k.toNat = true := by
  have hbit : ∀ d, (b &&& 1 <<< k).toNat.testBit d = true ↔
      b.toNat.testBit d = true ∧ (1 <<< k : UInt64).toNat.testBit d = true := by
    intro d
    rw [UInt64.toNat_and, Nat.testBit_and, Bool.and_eq_true]
  constructor
  · intro hne
    obtain ⟨d, hd⟩ := Nat.exists_testBit_of_ne_zero (x := (b &&& 1 <<< k).toNat)
      fun h ↦ hne (UInt64.toNat_inj.mp h)
    obtain ⟨hb, hk'⟩ := (hbit d).mp hd
    rw [testBit_one_shiftLeft64 hk (testBit_lt64 hb)] at hk'
    exact hk' ▸ hb
  · intro h h0
    have hk' := (hbit k.toNat).mpr ⟨h, (testBit_one_shiftLeft64 hk hk).mpr rfl⟩
    rw [h0, UInt64.toNat_zero, Nat.zero_testBit] at hk'
    cases hk'

/-- Bit `d` of the word says whether `h - d` was seen. -/
def Marks (b : UInt64) (h : Nat) (seen : List Nat) : Prop :=
  ∀ d < 64, b.toNat.testBit d = true ↔ d ≤ h ∧ h - d ∈ seen

theorem marks_singleton (c : Nat) : Marks 1 c [c] := by
  intro d _
  rw [UInt64.toNat_one, Nat.testBit_one_eq_true_iff_self_eq_zero, List.mem_singleton]
  omega

theorem Marks.slide {b : UInt64} {h : Nat} {seen : List Nat} (hm : Marks b h seen)
    (hh : Highest seen h) {c : Nat} (hc : h < c) {k : UInt64} (hk : k.toNat = c - h) :
    Marks ((if k ≥ 64 then 0 else b <<< k) ||| 1) c (seen ++ [c]) := by
  intro d hd
  have hmem : c - d ∈ seen ++ [c] ↔ c - d ∈ seen ∨ c - d = c := by
    rw [List.mem_append, List.mem_singleton]
  have hle : c - d ∈ seen → c - d ≤ h := hh.le (c - d)
  rw [testBit_or64, UInt64.toNat_one, Nat.testBit_one_eq_true_iff_self_eq_zero, hmem]
  split_ifs with hbig
  · have h64 : 64 ≤ c - h := hk ▸ UInt64.le_iff_toNat_le.mp hbig
    rw [UInt64.toNat_zero, Nat.zero_testBit]
    constructor
    · rintro (hf | rfl)
      · cases hf
      · exact ⟨Nat.zero_le c, .inr rfl⟩
    · rintro ⟨hdc, hin | he⟩
      · have := hle hin
        omega
      · exact .inr (by omega)
  · have h64 : k.toNat < 64 := Nat.lt_of_not_le fun h ↦ hbig (UInt64.le_iff_toNat_le.mpr h)
    rw [testBit_shiftLeft64 h64 hd, hm _ (by omega), hk]
    have hsub : c - h ≤ d → d - (c - h) ≤ h → h - (d - (c - h)) = c - d := by omega
    constructor
    · rintro (⟨hkd, hdh, hin⟩ | rfl)
      · exact ⟨by omega, .inl (hsub hkd hdh ▸ hin)⟩
      · exact ⟨Nat.zero_le c, .inr rfl⟩
    · rintro ⟨hdc, hin | he⟩
      · have hch := hle hin
        have hkd : c - h ≤ d := by omega
        have hdh : d - (c - h) ≤ h := by omega
        exact .inl ⟨hkd, hdh, (hsub hkd hdh).symm ▸ hin⟩
      · exact .inr (by omega)

theorem Marks.mark {b : UInt64} {h : Nat} {seen : List Nat} (hm : Marks b h seen) {c : Nat}
    (hc : c ≤ h) {k : UInt64} (hk : k.toNat = h - c) (h64 : k.toNat < 64) :
    Marks (b ||| 1 <<< k) h (seen ++ [c]) := by
  intro d hd
  rw [testBit_or64, testBit_one_shiftLeft64 h64 hd, hm d hd, hk, List.mem_append,
    List.mem_singleton]
  constructor
  · rintro (⟨hdh, hin⟩ | rfl)
    · exact ⟨hdh, .inl hin⟩
    · exact ⟨Nat.sub_le h c, .inr (by omega)⟩
  · rintro ⟨hdh, hin | he⟩
    · exact .inl ⟨hdh, hin⟩
    · exact .inr (by omega)

theorem Marks.seen_iff {b : UInt64} {h : Nat} {seen : List Nat} (hm : Marks b h seen) {c : Nat}
    (hc : c ≤ h) {k : UInt64} (hk : k.toNat = h - c) (h64 : k.toNat < 64) :
    b &&& 1 <<< k ≠ 0 ↔ c ∈ seen := by
  rw [and_shiftLeft64_ne_zero h64, hm _ h64, hk, Nat.sub_sub_self hc]
  exact and_iff_right (Nat.sub_le h c)

end KemtlsMavlink.Library
