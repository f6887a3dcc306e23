import KemtlsMavlink.Capture.MavFrames
import Mathlib.Logic.Relation

namespace KemtlsMavlink

open Library Relation

def mavFramesConPayloadFrom (buf : List UInt8) (i : Nat) : Generated (Nat × List UInt8) :=
  if _h : i < buf.length then
    .ofExcept do
      let b ← pyIndex buf i
      if b = 0xFD then
        if i + 12 > buf.length then return .done
        let ln ← pyIndex buf (i + 1)
        let flags ← pyIndex buf (i + 2)
        let firmada := flags &&& 0x01 ≠ 0
        let total := 12 + ln.toNat + if firmada then 13 else 0
        if i + total > buf.length then return .done
        let m₀ ← pyIndex buf (i + 7)
        let m₁ ← pyIndex buf (i + 8)
        let m₂ ← pyIndex buf (i + 9)
        let msgid := m₀.toNat ||| m₁.toNat <<< 8 ||| m₂.toNat <<< 16
        return (mavFramesConPayloadFrom buf (i + total)).yielding
          (msgid, pySlice buf (i + 10) (i + 10 + ln.toNat))
      else return mavFramesConPayloadFrom buf (i + 1)
  else .done
termination_by buf.length - i
decreasing_by all_goals (try split_ifs) <;> omega

def mavFramesConPayload (buf : List UInt8) : Generated (Nat × List UInt8) :=
  mavFramesConPayloadFrom buf 0

variable {buf : List UInt8} {i e : Nat}

def payload₂ (buf : List UInt8) (i : Nat) : List UInt8 :=
  pySlice buf (i + 10) (i + 10 + (buf.getD (i + 1) 0).toNat)

def Fits₂ (buf : List UInt8) (i : Nat) : Prop :=
  buf.getD i 0 = 0xFD ∧ i + total₂ buf i ≤ buf.length

def Fits₁ (buf : List UInt8) (i : Nat) : Prop :=
  buf.getD i 0 = 0xFE ∧ i + total₁ buf i ≤ buf.length

instance : Decidable (Fits₂ buf i) := inferInstanceAs (Decidable (_ ∧ _))

instance : Decidable (Fits₁ buf i) := inferInstanceAs (Decidable (_ ∧ _))

def nextPlace (buf : List UInt8) (i : Nat) : Option Nat :=
  if i < buf.length then
    if buf.getD i 0 = 0xFD then if Fits₂ buf i then some (i + total₂ buf i) else none
    else if buf.getD i 0 = 0xFE then if Fits₁ buf i then some (i + total₁ buf i) else none
    else some (i + 1)
  else none

theorem Fits₂.lt (h : Fits₂ buf i) : i < buf.length := by
  have hpos : 0 < total₂ buf i := total₂_pos
  have hle := h.2
  omega

theorem Fits₁.lt (h : Fits₁ buf i) : i < buf.length := by
  have hpos : 0 < total₁ buf i := total₁_pos
  have hle := h.2
  omega

def refStarts (buf : List UInt8) (i : Nat) : List Nat :=
  if _h : i < buf.length then
    if buf.getD i 0 = 0xFD then
      if Fits₂ buf i then i :: refStarts buf (i + total₂ buf i) else []
    else if buf.getD i 0 = 0xFE then
      if Fits₁ buf i then refStarts buf (i + total₁ buf i) else []
    else refStarts buf (i + 1)
  else []
termination_by buf.length - i
decreasing_by
  · exact Nat.sub_lt_sub_left _h (Nat.lt_add_of_pos_right total₂_pos)
  · exact Nat.sub_lt_sub_left _h (Nat.lt_add_of_pos_right total₁_pos)
  · exact Nat.sub_lt_sub_left _h i.lt_succ_self

def conStarts (buf : List UInt8) (i : Nat) : List Nat :=
  if _h : i < buf.length then
    if buf.getD i 0 = 0xFD then
      if Fits₂ buf i then i :: conStarts buf (i + total₂ buf i) else []
    else conStarts buf (i + 1)
  else []
termination_by buf.length - i
decreasing_by
  · exact Nat.sub_lt_sub_left _h (Nat.lt_add_of_pos_right total₂_pos)
  · exact Nat.sub_lt_sub_left _h i.lt_succ_self

/-- A version 1 frame that does not fit, or that has the byte `0xFD` behind its first one. -/
def Trouble (buf : List UInt8) (i : Nat) : Prop :=
  i < buf.length ∧ buf.getD i 0 = 0xFE ∧
    (Fits₁ buf i → ∃ k, i < k ∧ k < i + total₁ buf i ∧ buf.getD k 0 = 0xFD)

/-- From `i` on, the first byte `0xFD`, if there is one, begins a frame that does not fit. -/
def Quiet₂ (buf : List UInt8) (i : Nat) : Prop :=
  ∀ k ≥ i, Fits₂ buf k → ∃ j, i ≤ j ∧ j < k ∧ buf.getD j 0 = 0xFD ∧ ¬ Fits₂ buf j

/-- Follow `mav_frames` up to the first troublesome frame: past its first byte there is silence,
and `mav_frames` meets no frame of version 2 any more. -/
def InStep (buf : List UInt8) (i : Nat) : Prop :=
  ∀ j, ReflTransGen (fun a b ↦ nextPlace buf a = some b ∧ ¬ Trouble buf a) i j → Trouble buf j →
    Quiet₂ buf (j + 1) ∧ ∀ k, TransGen (fun a b ↦ nextPlace buf a = some b) j k → ¬ Fits₂ buf k

theorem conPayloadFrom_end (h : buf.length ≤ i) : mavFramesConPayloadFrom buf i = .done := by
  rw [mavFramesConPayloadFrom, dif_neg (Nat.not_lt.mpr h)]

theorem conPayloadFrom_other (h : i < buf.length) (h₂ : buf.getD i 0 ≠ 0xFD) :
    mavFramesConPayloadFrom buf i = mavFramesConPayloadFrom buf (i + 1) := by
  rw [mavFramesConPayloadFrom, dif_pos h, pyIndex_eq_getD h]
  change Generated.ofExcept (if _ then _ else _) = _
  rw [if_neg h₂]
  rfl

theorem conPayloadFrom_cut (h : i < buf.length) (h₂ : buf.getD i 0 = 0xFD)
    (hn : buf.length < i + total₂ buf i) : mavFramesConPayloadFrom buf i = .done := by
  rw [mavFramesConPayloadFrom, dif_pos h, pyIndex_eq_getD h]
  change Generated.ofExcept (if _ then _ else _) = _
  rw [if_pos h₂]
  by_cases h12 : i + 12 > buf.length
  · rw [if_pos h12]
    rfl
  · rw [if_neg h12, pyIndex_eq_getD (by omega), pyIndex_eq_getD (by omega)]
    change Generated.ofExcept (if i + total₂ buf i > buf.length then _ else _) = _
    rw [if_pos hn]
    rfl

theorem conPayloadFrom_v2 (h₂ : buf.getD i 0 = 0xFD) (hn : i + total₂ buf i ≤ buf.length) :
    mavFramesConPayloadFrom buf i = (mavFramesConPayloadFrom buf (i + total₂ buf i)).yielding
      (msgid₂ buf i, payload₂ buf i) := by
  have h12 : i + 12 ≤ buf.length := by
    rw [total₂] at hn
    omega
  rw [mavFramesConPayloadFrom, dif_pos (by omega), pyIndex_eq_getD (by omega)]
  change Generated.ofExcept (if _ then _ else _) = _
  rw [if_pos h₂, if_neg (Nat.not_lt.mpr h12), pyIndex_eq_getD (by omega),
    pyIndex_eq_getD (by omega)]
  change Generated.ofExcept (if i + total₂ buf i > buf.length then _ else _) = _
  rw [if_neg (Nat.not_lt.mpr hn), pyIndex_eq_getD (by omega), pyIndex_eq_getD (by omega),
    pyIndex_eq_getD (by omega)]
  rfl

theorem conStarts_end (h : buf.length ≤ i) : conStarts buf i = [] := by
  rw [conStarts, dif_neg (Nat.not_lt.mpr h)]

theorem conStarts_other (h : i < buf.length) (h₂ : buf.getD i 0 ≠ 0xFD) :
    conStarts buf i = conStarts buf (i + 1) := by rw [conStarts, dif_pos h, if_neg h₂]

theorem conStarts_fits (h : Fits₂ buf i) :
    conStarts buf i = i :: conStarts buf (i + total₂ buf i) := by
  rw [conStarts, dif_pos h.lt, if_pos h.1, if_pos h]

theorem conStarts_cut (h : i < buf.length) (h₂ : buf.getD i 0 = 0xFD) (hn : ¬ Fits₂ buf i) :
    conStarts buf i = [] := by
  rw [conStarts, dif_pos h, if_pos h₂, if_neg hn]

theorem mavFramesConPayloadFrom_eq (buf : List UInt8) (i : Nat) :
    mavFramesConPayloadFrom buf i =
      ⟨(conStarts buf i).map fun s ↦ (msgid₂ buf s, payload₂ buf s), none⟩ := by
  induction i using scan_induction buf with
  | stop i hi =>
    rw [conPayloadFrom_end hi, conStarts_end hi]
    rfl
  | step i hi ih =>
    by_cases h₂ : buf.getD i 0 = 0xFD
    · by_cases hn : Fits₂ buf i
      · rw [conPayloadFrom_v2 h₂ hn.2, conStarts_fits hn,
          ih _ (Nat.lt_add_of_pos_right total₂_pos)]
        rfl
      · rw [conPayloadFrom_cut hi h₂ (Nat.not_le.mp fun hle ↦ hn ⟨h₂, hle⟩),
          conStarts_cut hi h₂ hn]
        rfl
    · rw [conPayloadFrom_other hi h₂, conStarts_other hi h₂, ih _ i.lt_succ_self]

theorem ne_of_eq_fe (h : buf.getD i 0 = 0xFE) : buf.getD i 0 ≠ 0xFD := by
  rw [h]
  decide

theorem mavFramesFrom_v2_eq (buf : List UInt8) (i : Nat) :
    (mavFramesFrom buf i).items.filter (·.version = 2) = (refStarts buf i).map (frame₂ buf) := by
  induction i using scan_induction buf with
  | stop i hi =>
    rw [mavFramesFrom_end hi, refStarts, dif_neg (Nat.not_lt.mpr hi)]
    rfl
  | step i hi ih =>
    rw [refStarts, dif_pos hi]
    cases place buf i with
    | past h => exact absurd hi (Nat.not_lt.mpr h)
    | v2 h hn =>
      have hfits : Fits₂ buf i := ⟨h, hn⟩
      rw [mavFramesFrom_v2 h hn, if_pos h, if_pos hfits, List.map_cons,
        ← ih _ (Nat.lt_add_of_pos_right total₂_pos)]
      rfl
    | cut₂ hi h hn =>
      have hfits : ¬ Fits₂ buf i := fun hf ↦ absurd hf.2 (Nat.not_le.mpr hn)
      rw [mavFramesFrom_cut₂ hi h hn, if_pos h, if_neg hfits]
      rfl
    | v1 h hn =>
      have h₂ := ne_of_eq_fe h
      have hfits : Fits₁ buf i := ⟨h, hn⟩
      rw [mavFramesFrom_v1 h hn, if_neg h₂, if_pos h, if_pos hfits,
        ← ih _ (Nat.lt_add_of_pos_right total₁_pos)]
      rfl
    | cut₁ hi h hn =>
      have h₂ := ne_of_eq_fe h
      have hfits : ¬ Fits₁ buf i := fun hf ↦ absurd hf.2 (Nat.not_le.mpr hn)
      rw [mavFramesFrom_cut₁ hi h hn, if_neg h₂, if_pos h, if_neg hfits]
      rfl
    | other hi h₂ h₁ =>
      rw [mavFramesFrom_other hi h₂ h₁, if_neg h₂, if_neg h₁, ih _ i.lt_succ_self]

theorem nextPlace_fits₂ (h : Fits₂ buf i) : nextPlace buf i = some (i + total₂ buf i) := by
  rw [nextPlace, if_pos h.lt, if_pos h.1, if_pos h]

theorem nextPlace_fits₁ (h : Fits₁ buf i) : nextPlace buf i = some (i + total₁ buf i) := by
  rw [nextPlace, if_pos h.lt, if_neg (ne_of_eq_fe h.1), if_pos h.1, if_pos h]

theorem nextPlace_other (h : i < buf.length) (h₂ : buf.getD i 0 ≠ 0xFD)
    (h₁ : buf.getD i 0 ≠ 0xFE) : nextPlace buf i = some (i + 1) := by
  rw [nextPlace, if_pos h, if_neg h₂, if_neg h₁]

theorem nextPlace_cut₂ (h : buf.getD i 0 = 0xFD) (hn : ¬ Fits₂ buf i) :
    nextPlace buf i = none := by
  rw [nextPlace]
  split_ifs
  · rfl
  · rfl

theorem nextPlace_cut₁ (h : buf.getD i 0 = 0xFE) (hn : ¬ Fits₁ buf i) :
    nextPlace buf i = none := by
  rw [nextPlace, if_neg (ne_of_eq_fe h), if_pos h, if_neg hn, ite_self]

theorem nextPlace_end (h : buf.length ≤ i) : nextPlace buf i = none := if_neg (Nat.not_lt.mpr h)

theorem not_trouble_of_ne (h : buf.getD i 0 ≠ 0xFE) : ¬ Trouble buf i := fun ht ↦ h ht.2.1

theorem inStep_iff_of_next (hn : nextPlace buf i = some e) (ht : ¬ Trouble buf i) :
    InStep buf i ↔ InStep buf e := by
  constructor
  · intro h j hj
    exact h j (.head ⟨hn, ht⟩ hj)
  · intro h j hj hjt
    rcases hj.cases_head with rfl | ⟨c, ⟨hc, -⟩, hcj⟩
    · exact absurd hjt ht
    · obtain rfl : e = c := Option.some.inj (hn.symm.trans hc)
      exact h j hcj hjt

theorem inStep_of_stop (hn : nextPlace buf i = none) (ht : ¬ Trouble buf i) : InStep buf i := by
  intro j hj hjt
  rcases hj.cases_head with rfl | ⟨c, ⟨hc, -⟩, -⟩
  · exact absurd hjt ht
  · rw [hn] at hc
    exact absurd hc.symm (Option.some_ne_none c)

theorem inStep_iff_of_trouble (ht : Trouble buf i) :
    InStep buf i ↔ Quiet₂ buf (i + 1) ∧
      ∀ k, TransGen (fun a b ↦ nextPlace buf a = some b) i k → ¬ Fits₂ buf k := by
  constructor
  · exact fun h ↦ h i .refl ht
  · intro h j hj _
    rcases hj.cases_head with rfl | ⟨c, ⟨-, hn⟩, -⟩
    · exact h
    · exact absurd ht hn

theorem refStarts_fits (h : Fits₂ buf i) :
    refStarts buf i = i :: refStarts buf (i + total₂ buf i) := by
  rw [refStarts, dif_pos h.lt, if_pos h.1, if_pos h]

theorem refStarts_of_next (h : nextPlace buf i = some e) (h₂ : ¬ Fits₂ buf i) :
    refStarts buf i = refStarts buf e := by
  rw [nextPlace] at h
  split_ifs at h with hi hfd hfe hf
  · rw [refStarts, dif_pos hi, if_neg hfd, if_pos hfe, if_pos hf, Option.some.inj h]
  · rw [refStarts, dif_pos hi, if_neg hfd, if_neg hfe, Option.some.inj h]

theorem refStarts_of_stop (h : nextPlace buf i = none) : refStarts buf i = [] := by
  rw [nextPlace] at h
  split_ifs at h with hi hfd hf hfe hf
  · rw [refStarts, dif_pos hi, if_pos hfd, if_neg hf]
  · rw [refStarts, dif_pos hi, if_neg hfd, if_pos hfe, if_neg hf]
  · rw [refStarts, dif_neg hi]

theorem lt_of_nextPlace (h : nextPlace buf i = some e) : i < e := by
  rw [nextPlace] at h
  split_ifs at h
  · exact Option.some.inj h ▸ Nat.lt_add_of_pos_right total₂_pos
  · exact Option.some.inj h ▸ Nat.lt_add_of_pos_right total₁_pos
  · exact Option.some.inj h ▸ i.lt_succ_self

theorem way_induction (buf : List UInt8) {motive : Nat → Prop}
    (fits : ∀ i, Fits₂ buf i → motive (i + total₂ buf i) → motive i)
    (next : ∀ i e, nextPlace buf i = some e → ¬ Fits₂ buf i → motive e → motive i)
    (stop : ∀ i, nextPlace buf i = none → ¬ Fits₂ buf i → motive i) (i : Nat) : motive i := by
  induction i using scan_induction buf with
  | stop i hi => exact stop i (nextPlace_end hi) fun hf ↦ absurd hf.lt (Nat.not_lt.mpr hi)
  | step i hi ih =>
    by_cases hf : Fits₂ buf i
    · exact fits i hf (ih _ (Nat.lt_add_of_pos_right total₂_pos))
    · cases hn : nextPlace buf i with
      | none => exact stop i hn hf
      | some e => exact next i e hn hf (ih e (lt_of_nextPlace hn))

theorem of_mem_refStarts {k : Nat} (h : k ∈ refStarts buf i) : i ≤ k ∧ Fits₂ buf k := by
  induction i using way_induction buf with
  | fits i hf ih =>
    rw [refStarts_fits hf] at h
    rcases List.mem_cons.mp h with rfl | h
    · exact ⟨Nat.le_refl k, hf⟩
    · exact ⟨Nat.le_of_add_right_le (ih h).1, (ih h).2⟩
  | next i e hn hf ih =>
    rw [refStarts_of_next hn hf] at h
    exact ⟨Nat.le_trans (Nat.le_of_lt (lt_of_nextPlace hn)) (ih h).1, (ih h).2⟩
  | stop i hn hf => simp [refStarts_of_stop hn] at h

theorem refStarts_eq_nil_iff : refStarts buf i = [] ↔
    ∀ k, ReflTransGen (fun a b ↦ nextPlace buf a = some b) i k → ¬ Fits₂ buf k := by
  induction i using way_induction buf with
  | fits i hf ih =>
    rw [refStarts_fits hf]
    exact iff_of_false (List.cons_ne_nil _ _) fun h ↦ h i .refl hf
  | next i e hn hf ih =>
    rw [refStarts_of_next hn hf, ih]
    constructor
    · intro h k hk
      rcases hk.cases_head with rfl | ⟨c, hc, hck⟩
      · exact hf
      · obtain rfl : e = c := Option.some.inj (hn.symm.trans hc)
        exact h k hck
    · exact fun h k hk ↦ h k (.head hn hk)
  | stop i hn hf =>
    refine iff_of_true (refStarts_of_stop hn) fun k hk ↦ ?_
    rcases hk.cases_head with rfl | ⟨c, hc, -⟩
    · exact hf
    · rw [hn] at hc
      exact absurd hc.symm (Option.some_ne_none c)

theorem conStarts_eq_nil_iff : conStarts buf i = [] ↔ Quiet₂ buf i := by
  induction i using scan_induction buf with
  | stop i hi =>
    refine iff_of_true (conStarts_end hi) fun k hk hf ↦ ?_
    exact absurd hf.lt (Nat.not_lt.mpr (Nat.le_trans hi hk))
  | step i hi ih =>
    by_cases h₂ : buf.getD i 0 = 0xFD
    · by_cases hf : Fits₂ buf i
      · rw [conStarts_fits hf]
        refine iff_of_false (List.cons_ne_nil _ _) fun h ↦ ?_
        obtain ⟨j, hle, hlt, -⟩ := h i (Nat.le_refl i) hf
        omega
      · refine iff_of_true (conStarts_cut hi h₂ hf) fun k hk hfk ↦ ?_
        have hne : i ≠ k := fun he ↦ hf (he ▸ hfk)
        exact ⟨i, Nat.le_refl i, Nat.lt_of_le_of_ne hk hne, h₂, hf⟩
    · rw [conStarts_other hi h₂, ih _ i.lt_succ_self]
      constructor
      · intro h k hk hfk
        have hne : i ≠ k := fun he ↦ h₂ (he ▸ hfk.1)
        obtain ⟨j, hj, hr⟩ := h k (Nat.lt_of_le_of_ne hk hne) hfk
        exact ⟨j, Nat.le_of_succ_le hj, hr⟩
      · intro h k hk hfk
        obtain ⟨j, hj, hlt, hfd, hnf⟩ := h k (Nat.le_of_succ_le hk) hfk
        have hne : i ≠ j := fun he ↦ h₂ (he ▸ hfd)
        exact ⟨j, Nat.lt_of_le_of_ne hj hne, hlt, hfd, hnf⟩

theorem conStarts_skip (hie : i ≤ e) (hlen : e ≤ buf.length)
    (h : ∀ k, i ≤ k → k < e → buf.getD k 0 ≠ 0xFD) : conStarts buf i = conStarts buf e := by
  induction i using scan_induction buf with
  | stop i hi => rw [Nat.le_antisymm hie (Nat.le_trans hlen hi)]
  | step i hi ih =>
    rcases Nat.eq_or_lt_of_le hie with rfl | hlt
    · rfl
    · rw [conStarts_other hi (h i (Nat.le_refl i) hlt)]
      exact ih _ i.lt_succ_self hlt fun k hk ↦ h k (Nat.le_of_succ_le hk)

theorem conStarts_lt {k : Nat} (hik : i ≤ k) (hke : k < e) (hk : buf.getD k 0 = 0xFD)
    (hne : conStarts buf i ≠ []) : ∃ j ∈ conStarts buf i, j < e := by
  induction i using scan_induction buf with
  | stop i hi => exact absurd (conStarts_end hi) hne
  | step i hi ih =>
    by_cases h₂ : buf.getD i 0 = 0xFD
    · by_cases hf : Fits₂ buf i
      · rw [conStarts_fits hf]
        exact ⟨i, List.mem_cons_self, Nat.lt_of_le_of_lt hik hke⟩
      · exact absurd (conStarts_cut hi h₂ hf) hne
    · have hlt : i < k := Nat.lt_of_le_of_ne hik fun he ↦ h₂ (he ▸ hk)
      rw [conStarts_other hi h₂] at hne ⊢
      exact ih _ i.lt_succ_self hlt hne

theorem conStarts_eq_iff_of_trouble (ht : Trouble buf i) :
    conStarts buf (i + 1) = refStarts buf i ↔ conStarts buf (i + 1) = [] ∧
      ∀ k, TransGen (fun a b ↦ nextPlace buf a = some b) i k → ¬ Fits₂ buf k := by
  have hf₂ : ¬ Fits₂ buf i := fun hf ↦ ne_of_eq_fe ht.2.1 hf.1
  have href : refStarts buf i = [] ↔
      ∀ k, TransGen (fun a b ↦ nextPlace buf a = some b) i k → ¬ Fits₂ buf k := by
    rw [refStarts_eq_nil_iff]
    constructor
    · exact fun h k hk ↦ h k hk.to_reflTransGen
    · intro h k hk
      rcases reflTransGen_iff_eq_or_transGen.mp hk with rfl | hk
      · exact hf₂
      · exact h k hk
  rw [← href]
  constructor
  · intro h
    have hnil : conStarts buf (i + 1) = [] := by
      by_contra hne
      by_cases hf : Fits₁ buf i
      · obtain ⟨k, hik, hke, hk⟩ := ht.2.2 hf
        obtain ⟨j, hj, hlt⟩ := conStarts_lt hik hke hk hne
        rw [h, refStarts_of_next (nextPlace_fits₁ hf) hf₂] at hj
        exact absurd (of_mem_refStarts hj).1 (Nat.not_le.mpr hlt)
      · exact hne (h.trans (refStarts_of_stop (nextPlace_cut₁ ht.2.1 hf)))
    exact ⟨hnil, h ▸ hnil⟩
  · exact fun h ↦ h.1.trans h.2.symm

/-- The two scanners find frames of version 2 at the same places exactly when they are in
step. -/
theorem conStarts_eq_iff : conStarts buf i = refStarts buf i ↔ InStep buf i := by
  induction i using scan_induction buf with
  | stop i hi =>
    have ht : ¬ Trouble buf i := fun ht ↦ absurd ht.1 (Nat.not_lt.mpr hi)
    rw [conStarts_end hi, refStarts_of_stop (nextPlace_end hi)]
    exact iff_of_true rfl (inStep_of_stop (nextPlace_end hi) ht)
  | step i hi ih =>
    by_cases hfd : buf.getD i 0 = 0xFD
    · have ht : ¬ Trouble buf i := fun ht ↦ ne_of_eq_fe ht.2.1 hfd
      by_cases hf : Fits₂ buf i
      · rw [conStarts_fits hf, refStarts_fits hf, inStep_iff_of_next (nextPlace_fits₂ hf) ht,
          List.cons_inj_right]
        exact ih _ (Nat.lt_add_of_pos_right total₂_pos)
      · have hn := nextPlace_cut₂ hfd hf
        rw [conStarts_cut hi hfd hf, refStarts_of_stop hn]
        exact iff_of_true rfl (inStep_of_stop hn ht)
    · have hf₂ : ¬ Fits₂ buf i := fun hf ↦ hfd hf.1
      by_cases hfe : buf.getD i 0 = 0xFE
      · by_cases ht : Trouble buf i
        · rw [inStep_iff_of_trouble ht, conStarts_other hi hfd, ← conStarts_eq_nil_iff]
          exact conStarts_eq_iff_of_trouble ht
        · have hf : Fits₁ buf i := by
            by_contra hf
            exact ht ⟨hi, hfe, fun h ↦ absurd h hf⟩
          have hclean : ∀ k, i + 1 ≤ k → k < i + total₁ buf i → buf.getD k 0 ≠ 0xFD :=
            fun k hk hlt he ↦ ht ⟨hi, hfe, fun _ ↦ ⟨k, hk, hlt, he⟩⟩
          have hn := nextPlace_fits₁ hf
          rw [conStarts_other hi hfd, conStarts_skip (lt_of_nextPlace hn) hf.2 hclean,
            refStarts_of_next hn hf₂, inStep_iff_of_next hn ht]
          exact ih _ (lt_of_nextPlace hn)
      · have hn := nextPlace_other hi hfd hfe
        rw [conStarts_other hi hfd, refStarts_of_next hn hf₂,
          inStep_iff_of_next hn (not_trouble_of_ne hfe)]
        exact ih _ i.lt_succ_self

/-- `mav_frames_con_payload` yields the version 2 frames of `mav_frames`: their identifiers and
lengths, and their payloads, each of them cut out ten bytes behind the start of its frame. -/
structure ScansAgree (buf : List UInt8) : Prop where
  lists : (mavFramesConPayload buf).items.map (fun f ↦ (f.1, f.2.length)) =
    ((mavFrames buf).items.filter (·.version = 2)).map fun f ↦ (f.msgid, f.payloadLen)
  starts : conStarts buf 0 = refStarts buf 0
  slices : (mavFramesConPayload buf).items.map Prod.snd = (refStarts buf 0).map (payload₂ buf)

theorem Fits₂.length_payload (h : Fits₂ buf i) :
    (payload₂ buf i).length = (frame₂ buf i).payloadLen := by
  have hle := h.2
  rw [total₂] at hle
  rw [payload₂, length_pySlice, frame₂]
  dsimp only
  omega

/-- The buffers on which the scanner with payloads does what the other one does. -/
theorem scansAgree_iff (buf : List UInt8) : ScansAgree buf ↔ InStep buf 0 := by
  rw [← conStarts_eq_iff]
  constructor
  · exact fun h ↦ h.starts
  · intro h
    have hitems : (mavFramesConPayload buf).items =
        (refStarts buf 0).map fun s ↦ (msgid₂ buf s, payload₂ buf s) := by
      rw [mavFramesConPayload, mavFramesConPayloadFrom_eq, h]
    refine ⟨?_, h, ?_⟩
    · rw [hitems, mavFrames, mavFramesFrom_v2_eq, List.map_map, List.map_map]
      apply List.map_congr_left
      intro s hs
      exact congrArg _ (of_mem_refStarts hs).2.length_payload
    · rw [hitems, List.map_map]
      rfl

/-- A version 1 frame with the byte `0xFD` in its payload. -/
def v1WithMagic : List UInt8 :=
  [0xFE, 12, 0, 1, 1, 0, 0xFD, 0, 0, 0, 7, 1, 1, 42, 0, 0, 0, 0, 0, 0]

/-- A payload of version 1 is taken for a frame. -/
theorem v1_payload_taken_for_frame :
    (mavFrames v1WithMagic).items = [⟨1, 0, 0, 12⟩] ∧
      (mavFramesConPayload v1WithMagic).items = [(42, [])] ∧
      (mavFramesConPayload v1WithMagic).items.map (fun f ↦ (f.1, f.2.length)) ≠
        ((mavFrames v1WithMagic).items.filter (·.version = 2)).map
          fun f ↦ (f.msgid, f.payloadLen) := by
  decide +kernel

end KemtlsMavlink
