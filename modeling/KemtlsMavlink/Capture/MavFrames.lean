import KemtlsMavlink.Library.PyBytes
import Mathlib.Tactic.SplitIfs

namespace KemtlsMavlink

open Library

structure MavFrame where
  version : Nat
  seq : Nat
  msgid : Nat
  payloadLen : Nat
  deriving DecidableEq, Repr

def mavFramesFrom (buf : List UInt8) (i : Nat) : Generated MavFrame :=
  if _h : i < buf.length then
    .ofExcept do
      let b ← pyIndex buf i
      if b = 0xFD then
        if i + 12 > buf.length then return .done
        let ln ← pyIndex buf (i + 1)
        let flags ← pyIndex buf (i + 2)
        let total := 12 + ln.toNat + if flags &&& 0x01 ≠ 0 then 13 else 0
        if i + total > buf.length then return .done
        let m₀ ← pyIndex buf (i + 7)
        let m₁ ← pyIndex buf (i + 8)
        let m₂ ← pyIndex buf (i + 9)
        let msgid := m₀.toNat ||| m₁.toNat <<< 8 ||| m₂.toNat <<< 16
        let seq ← pyIndex buf (i + 4)
        return (mavFramesFrom buf (i + total)).yielding ⟨2, seq.toNat, msgid, ln.toNat⟩
      else if b = 0xFE then
        if i + 8 > buf.length then return .done
        let ln ← pyIndex buf (i + 1)
        let total := 8 + ln.toNat
        if i + total > buf.length then return .done
        let seq ← pyIndex buf (i + 2)
        let msgid ← pyIndex buf (i + 5)
        return (mavFramesFrom buf (i + total)).yielding ⟨1, seq.toNat, msgid.toNat, ln.toNat⟩
      else return mavFramesFrom buf (i + 1)
  else .done
termination_by buf.length - i
decreasing_by all_goals (try split_ifs) <;> omega

def mavFrames (buf : List UInt8) : Generated MavFrame := mavFramesFrom buf 0

/-- The length in the frame of version 2 or 1 that begins at `i`, with the 13 bytes of a
signature. -/
def total₂ (buf : List UInt8) (i : Nat) : Nat :=
  12 + (buf.getD (i + 1) 0).toNat + if buf.getD (i + 2) 0 &&& 0x01 ≠ 0 then 13 else 0

def total₁ (buf : List UInt8) (i : Nat) : Nat := 8 + (buf.getD (i + 1) 0).toNat

def msgid₂ (buf : List UInt8) (i : Nat) : Nat :=
  (buf.getD (i + 7) 0).toNat ||| (buf.getD (i + 8) 0).toNat <<< 8 |||
    (buf.getD (i + 9) 0).toNat <<< 16

def frame₂ (buf : List UInt8) (i : Nat) : MavFrame :=
  ⟨2, (buf.getD (i + 4) 0).toNat, msgid₂ buf i, (buf.getD (i + 1) 0).toNat⟩

def frame₁ (buf : List UInt8) (i : Nat) : MavFrame :=
  ⟨1, (buf.getD (i + 2) 0).toNat, (buf.getD (i + 5) 0).toNat, (buf.getD (i + 1) 0).toNat⟩

variable {buf : List UInt8} {i k : Nat}

theorem pyIndex_eq_getD (h : i < buf.length) : pyIndex buf i = .ok (buf.getD i 0) := by
  rw [pyIndex_of_lt h, List.getD_eq_getElem?_getD, List.getElem?_eq_getElem h, Option.getD_some]

theorem mavFramesFrom_end (h : buf.length ≤ i) : mavFramesFrom buf i = .done := by
  rw [mavFramesFrom, dif_neg (Nat.not_lt.mpr h)]

theorem mavFramesFrom_other (h : i < buf.length) (h₂ : buf.getD i 0 ≠ 0xFD)
    (h₁ : buf.getD i 0 ≠ 0xFE) : mavFramesFrom buf i = mavFramesFrom buf (i + 1) := by
  rw [mavFramesFrom, dif_pos h, pyIndex_eq_getD h]
  change Generated.ofExcept (if _ then _ else _) = _
  rw [if_neg h₂, if_neg h₁]
  rfl

theorem mavFramesFrom_cut₂ (h : i < buf.length) (h₂ : buf.getD i 0 = 0xFD)
    (hn : buf.length < i + total₂ buf i) : mavFramesFrom buf i = .done := by
  rw [mavFramesFrom, dif_pos h, pyIndex_eq_getD h]
  change Generated.ofExcept (if _ then _ else _) = _
  rw [if_pos h₂]
  by_cases h12 : i + 12 > buf.length
  · rw [if_pos h12]
    rfl
  · rw [if_neg h12, pyIndex_eq_getD (by omega), pyIndex_eq_getD (by omega)]
    change Generated.ofExcept (if i + total₂ buf i > buf.length then _ else _) = _
    rw [if_pos hn]
    rfl

theorem mavFramesFrom_v2 (h₂ : buf.getD i 0 = 0xFD) (hn : i + total₂ buf i ≤ buf.length) :
    mavFramesFrom buf i = (mavFramesFrom buf (i + total₂ buf i)).yielding (frame₂ buf i) := by
  have h12 : i + 12 ≤ buf.length := by
    rw [total₂] at hn
    omega
  rw [mavFramesFrom, dif_pos (by omega), pyIndex_eq_getD (by omega)]
  change Generated.ofExcept (if _ then _ else _) = _
  rw [if_pos h₂, if_neg (Nat.not_lt.mpr h12), pyIndex_eq_getD (by omega),
    pyIndex_eq_getD (by omega)]
  change Generated.ofExcept (if i + total₂ buf i > buf.length then _ else _) = _
  rw [if_neg (Nat.not_lt.mpr hn), pyIndex_eq_getD (by omega), pyIndex_eq_getD (by omega),
    pyIndex_eq_getD (by omega), pyIndex_eq_getD (by omega)]
  rfl

theorem mavFramesFrom_cut₁ (h : i < buf.length) (h₁ : buf.getD i 0 = 0xFE)
    (hn : buf.length < i + total₁ buf i) : mavFramesFrom buf i = .done := by
  rw [mavFramesFrom, dif_pos h, pyIndex_eq_getD h]
  change Generated.ofExcept (if _ then _ else _) = _
  rw [if_neg (by rw [h₁]; decide), if_pos h₁]
  by_cases h8 : i + 8 > buf.length
  · rw [if_pos h8]
    rfl
  · rw [if_neg h8, pyIndex_eq_getD (by omega)]
    change Generated.ofExcept (if i + total₁ buf i > buf.length then _ else _) = _
    rw [if_pos hn]
    rfl

theorem mavFramesFrom_v1 (h₁ : buf.getD i 0 = 0xFE) (hn : i + total₁ buf i ≤ buf.length) :
    mavFramesFrom buf i = (mavFramesFrom buf (i + total₁ buf i)).yielding (frame₁ buf i) := by
  have h8 : i + 8 ≤ buf.length := by
    rw [total₁] at hn
    omega
  rw [mavFramesFrom, dif_pos (by omega), pyIndex_eq_getD (by omega)]
  change Generated.ofExcept (if _ then _ else _) = _
  rw [if_neg (by rw [h₁]; decide), if_pos h₁, if_neg (Nat.not_lt.mpr h8),
    pyIndex_eq_getD (by omega)]
  change Generated.ofExcept (if i + total₁ buf i > buf.length then _ else _) = _
  rw [if_neg (Nat.not_lt.mpr hn), pyIndex_eq_getD (by omega), pyIndex_eq_getD (by omega)]
  rfl

inductive Place (buf : List UInt8) (i : Nat) : Prop
  | past (h : buf.length ≤ i)
  | v2 (h : buf.getD i 0 = 0xFD) (hn : i + total₂ buf i ≤ buf.length)
  | cut₂ (hi : i < buf.length) (h : buf.getD i 0 = 0xFD) (hn : buf.length < i + total₂ buf i)
  | v1 (h : buf.getD i 0 = 0xFE) (hn : i + total₁ buf i ≤ buf.length)
  | cut₁ (hi : i < buf.length) (h : buf.getD i 0 = 0xFE) (hn : buf.length < i + total₁ buf i)
  | other (hi : i < buf.length) (h₂ : buf.getD i 0 ≠ 0xFD) (h₁ : buf.getD i 0 ≠ 0xFE)

theorem place (buf : List UInt8) (i : Nat) : Place buf i := by
  rcases Nat.lt_or_ge i buf.length with hi | hi
  · by_cases h₂ : buf.getD i 0 = 0xFD
    · rcases Nat.lt_or_ge buf.length (i + total₂ buf i) with hn | hn
      · exact .cut₂ hi h₂ hn
      · exact .v2 h₂ hn
    · by_cases h₁ : buf.getD i 0 = 0xFE
      · rcases Nat.lt_or_ge buf.length (i + total₁ buf i) with hn | hn
        · exact .cut₁ hi h₁ hn
        · exact .v1 h₁ hn
      · exact .other hi h₂ h₁
  · exact .past hi

theorem total₂_pos : 0 < total₂ buf i := by
  rw [total₂]
  omega

theorem total₁_pos : 0 < total₁ buf i := by
  rw [total₁]
  omega

theorem scan_induction (buf : List UInt8) {motive : Nat → Prop}
    (stop : ∀ i, buf.length ≤ i → motive i)
    (step : ∀ i < buf.length, (∀ j, i < j → motive j) → motive i) (i : Nat) : motive i := by
  induction hm : buf.length - i using Nat.strongRecOn generalizing i with
  | ind m ih =>
    rcases Nat.lt_or_ge i buf.length with hi | hi
    · exact step i hi fun j hj ↦ ih (buf.length - j) (by omega) j rfl
    · exact stop i hi

theorem mavFramesFrom_raised (buf : List UInt8) (i : Nat) :
    (mavFramesFrom buf i).raised = none := by
  induction i using scan_induction buf with
  | stop i hi =>
    rw [mavFramesFrom_end hi]
    rfl
  | step i hi ih =>
    cases place buf i with
    | past h => exact absurd hi (Nat.not_lt.mpr h)
    | v2 h hn =>
      rw [mavFramesFrom_v2 h hn]
      exact ih _ (Nat.lt_add_of_pos_right total₂_pos)
    | cut₂ hi h hn =>
      rw [mavFramesFrom_cut₂ hi h hn]
      rfl
    | v1 h hn =>
      rw [mavFramesFrom_v1 h hn]
      exact ih _ (Nat.lt_add_of_pos_right total₁_pos)
    | cut₁ hi h hn =>
      rw [mavFramesFrom_cut₁ hi h hn]
      rfl
    | other hi h₂ h₁ =>
      rw [mavFramesFrom_other hi h₂ h₁]
      exact ih _ i.lt_succ_self

end KemtlsMavlink
