import Mathlib.Data.Nat.Bitwise

namespace KemtlsMavlink.Library

/-! Words of 32 bits as sets of the numbers below 32. -/

theorem testBit_one_shiftLeft32 {i d : Nat} (hi : i < 32) (hd : d < 32) :
    (1 <<< UInt32.ofNat i : UInt32).toNat.testBit d = true ↔ d = i := by
  have hmod : (UInt32.ofNat i).toNat % 32 = i := by
    rw [UInt32.toNat_ofNat']
    omega
  rw [UInt32.toNat_shiftLeft, hmod, Nat.testBit_mod_two_pow, Nat.testBit_shiftLeft,
    UInt32.toNat_one, decide_eq_true hd, Bool.true_and, Bool.and_eq_true, decide_eq_true_eq,
    Nat.testBit_one_eq_true_iff_self_eq_zero]
  omega

theorem shiftRight_and_one32 {m : UInt32} {i : Nat} (hi : i < 32) :
    (m >>> UInt32.ofNat i) &&& 1 = 1 ↔ m.toNat.testBit i = true := by
  have hmod : (UInt32.ofNat i).toNat % 32 = i := by
    rw [UInt32.toNat_ofNat']
    omega
  rw [← UInt32.toNat_inj, UInt32.toNat_and, UInt32.toNat_shiftRight, hmod, UInt32.toNat_one,
    Nat.and_one_is_mod, Nat.testBit, Nat.one_and_eq_mod_two]
  simp

theorem testBit_foldl_mask (p : Nat → Prop) [DecidablePred p] {l : List Nat}
    (hl : ∀ i ∈ l, i < 32) (m : UInt32) {d : Nat} (hd : d < 32) :
    (l.foldl (fun m i ↦ if p i then m ||| 1 <<< UInt32.ofNat i else m) m).toNat.testBit d = true ↔
      m.toNat.testBit d = true ∨ d ∈ l ∧ p d := by
  induction l generalizing m with
  | nil => simp
  | cons i l ih =>
    obtain ⟨hi, hl⟩ := List.forall_mem_cons.mp hl
    rw [List.foldl_cons, ih hl, List.mem_cons]
    by_cases hp : p i
    · rw [if_pos hp, UInt32.toNat_or, Nat.testBit_or, Bool.or_eq_true,
        testBit_one_shiftLeft32 hi hd]
      constructor
      · rintro ((h | rfl) | h)
        · exact .inl h
        · exact .inr ⟨.inl rfl, hp⟩
        · exact .inr ⟨.inr h.1, h.2⟩
      · rintro (h | ⟨rfl | h, hd⟩)
        · exact .inl (.inl h)
        · exact .inl (.inr rfl)
        · exact .inr ⟨h, hd⟩
    · rw [if_neg hp]
      constructor
      · rintro (h | h)
        · exact .inl h
        · exact .inr ⟨.inr h.1, h.2⟩
      · rintro (h | ⟨rfl | h, hd⟩)
        · exact .inl h
        · exact absurd hd hp
        · exact .inr ⟨h, hd⟩

end KemtlsMavlink.Library
