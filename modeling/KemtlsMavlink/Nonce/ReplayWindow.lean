import KemtlsMavlink.Library.Bitmap
import KemtlsMavlink.Library.Flags
import KemtlsMavlink.Nonce.SenderCtx

namespace KemtlsMavlink

open Library

structure ReplayWindow where
  direction : Direction
  keyEpoch : UInt32
  highestSeen : UInt64
  /-- Bit `i` says that `highestSeen - i` was seen. -/
  seenBitmap : UInt64
  initialized : Bool
  deriving DecidableEq, Repr

def replayWindowInit (dir : Direction) (epoch : UInt32) : ReplayWindow := ⟨dir, epoch, 0, 0, false⟩

def replayWindowCheckAndUpdate (w : ReplayWindow) (counter : UInt64) : Bool × ReplayWindow :=
  if ¬ w.initialized then
    (true, { w with initialized := true, highestSeen := counter, seenBitmap := 1 })
  else if counter > w.highestSeen then
    let shift := counter - w.highestSeen
    let seenBitmap := if shift ≥ 64 then 0 else w.seenBitmap <<< shift
    (true, { w with seenBitmap := seenBitmap ||| 1, highestSeen := counter })
  else
    let diff := w.highestSeen - counter
    if diff ≥ 64 then (false, w)
    else if w.seenBitmap &&& 1 <<< diff ≠ 0 then (false, w)
    else (true, { w with seenBitmap := w.seenBitmap ||| 1 <<< diff })

structure Oraculo where
  visto : List Bool
  rango : Nat
  highestSeen : UInt64
  initialized : Bool
  deriving DecidableEq, Repr

def oraculoInit (rango : Nat) : Oraculo := ⟨List.replicate rango false, rango, 0, false⟩

/-- The counter is an index below `rango`: beyond it the source reads and writes
outside its array. -/
def oraculoCheck (o : Oraculo) (counter : UInt64) : Bool × Oraculo :=
  let visto := o.visto.set counter.toNat true
  if ¬ o.initialized then
    (true, { o with initialized := true, highestSeen := counter, visto })
  else if o.visto.getD counter.toNat false ∧ counter ≤ o.highestSeen then
    if o.highestSeen - counter < 64 then (false, o) else (false, o)
  else if counter > o.highestSeen then (true, { o with highestSeen := counter, visto })
  else if o.highestSeen - counter ≥ 64 then (false, o)
  else (true, { o with visto })

/-- The loop of `correr_diferencial`: the discrepancies and the accepted counters. -/
def correrDiferencial.loop (realFn : ReplayWindow → UInt64 → Bool × ReplayWindow) :
    ReplayWindow → Oraculo → Nat → Nat → List UInt64 → Nat × Nat
  | _, _, discrepancias, aceptados, [] => (discrepancias, aceptados)
  | w, o, discrepancias, aceptados, c :: entregas =>
    let (rReal, w') := realFn w c
    let (rOraculo, o') := oraculoCheck o c
    loop realFn w' o' (if rReal ≠ rOraculo then discrepancias + 1 else discrepancias)
      (if rReal then aceptados + 1 else aceptados) entregas

def correrDiferencial (realFn : ReplayWindow → UInt64 → Bool × ReplayWindow)
    (entregas : List UInt64) (rangoOraculo : Nat) : Nat × Nat :=
  correrDiferencial.loop realFn (replayWindowInit .rx 1) (oraculoInit rangoOraculo) 0 0 entregas

def verdicts (dir : Direction) (epoch : UInt32) (cs : List UInt64) : List Bool :=
  (Machine.answering replayWindowCheckAndUpdate).outputs (replayWindowInit dir epoch) cs

def oracleVerdicts (rango : Nat) (cs : List UInt64) : List Bool :=
  (Machine.answering oraculoCheck).outputs (oraculoInit rango) cs

structure ReplayWindow.Accepted (w : ReplayWindow) (seen : List Nat) : Prop where
  initialized : w.initialized = true ↔ seen ≠ []
  highest : seen ≠ [] → Highest seen w.highestSeen.toNat
  bitmap : seen ≠ [] → Marks w.seenBitmap w.highestSeen.toNat seen

theorem replayWindowInit_accepted (dir : Direction) (epoch : UInt32) :
    (replayWindowInit dir epoch).Accepted [] :=
  ⟨iff_of_false Bool.false_ne_true (absurd rfl), absurd rfl, absurd rfl⟩

theorem sub_ge_iff {highest c : UInt64} (hle : c ≤ highest) :
    highest - c ≥ 64 ↔ 64 ≤ highest.toNat - c.toNat := by
  rw [ge_iff_le, UInt64.le_iff_toNat_le, UInt64.toNat_sub_of_le _ _ hle]
  exact Iff.rfl

/-- The answer is the one of the window that remembers everything, and the state follows. -/
theorem replayWindow_step {w : ReplayWindow} {seen : List Nat} (h : w.Accepted seen) (c : UInt64) :
    ((replayWindowCheckAndUpdate w c).2).Accepted ((seenWindow 64).step seen c.toNat).1 ∧
      [(replayWindowCheckAndUpdate w c).1] = ((seenWindow 64).step seen c.toNat).2 := by
  have hne : ∀ k : Nat, seen ++ [k] ≠ [] := fun k ↦ List.concat_ne_nil k seen
  unfold replayWindowCheckAndUpdate
  by_cases hi : w.initialized = true
  · have hs := h.initialized.mp hi
    have hh := h.highest hs
    have hm := h.bitmap hs
    rw [if_neg (not_not.mpr hi)]
    by_cases hlt : c > w.highestSeen
    · have hlt' : w.highestSeen.toNat < c.toNat := UInt64.lt_iff_toNat_lt.mp hlt
      rw [if_pos hlt, seenWindow_step_of_admits (hh.admits_iff.mpr (.inl hlt'))]
      have hk : (c - w.highestSeen).toNat = c.toNat - w.highestSeen.toNat :=
        UInt64.toNat_sub_of_le _ _ (UInt64.le_of_lt hlt)
      exact ⟨⟨iff_of_true hi (hne _), fun _ ↦ hh.snoc_of_lt hlt', fun _ ↦ hm.slide hh hlt' hk⟩, rfl⟩
    · have hle : c ≤ w.highestSeen := UInt64.not_lt.mp hlt
      have hle' : c.toNat ≤ w.highestSeen.toNat := UInt64.le_iff_toNat_le.mp hle
      have hk : (w.highestSeen - c).toNat = w.highestSeen.toNat - c.toNat :=
        UInt64.toNat_sub_of_le _ _ hle
      rw [if_neg hlt]
      dsimp only
      by_cases hold : w.highestSeen - c ≥ 64
      · have hold' := (sub_ge_iff hle).mp hold
        rw [if_pos hold, seenWindow_step_of_not_admits]
        · exact ⟨h, rfl⟩
        · rw [hh.admits_iff]
          omega
      · have h64 : (w.highestSeen - c).toNat < 64 := by
          have := mt (sub_ge_iff hle).mpr hold
          omega
        have hseen := hm.seen_iff hle' hk h64
        rw [if_neg hold]
        by_cases hbit : w.seenBitmap &&& 1 <<< (w.highestSeen - c) ≠ 0
        · rw [if_pos hbit, seenWindow_step_of_not_admits]
          · exact ⟨h, rfl⟩
          · rw [hh.admits_iff]
            exact not_or.mpr ⟨not_lt.mpr hle', fun hnew ↦ hnew.1 (hseen.mp hbit)⟩
        · have hnew : c.toNat ∉ seen := fun hin ↦ hbit (hseen.mpr hin)
          rw [if_neg hbit, seenWindow_step_of_admits (hh.admits_iff.mpr (.inr ⟨hnew, by omega⟩))]
          exact ⟨⟨iff_of_true hi (hne _), fun _ ↦ hh.snoc_of_le hle', fun _ ↦ hm.mark hle' hk h64⟩,
            rfl⟩
  · have hs : seen = [] := not_not.mp fun hs ↦ hi (h.initialized.mpr hs)
    subst hs
    rw [if_pos hi, seenWindow_step_of_admits (admits_nil 64 _)]
    exact ⟨⟨iff_of_true rfl (hne _), fun _ ↦ highest_singleton _, fun _ ↦ marks_singleton _⟩, rfl⟩

/-- The oracle has accepted the counters `seen`, all of them below `rango`. -/
structure Oraculo.Accepted (rango : Nat) (o : Oraculo) (seen : List Nat) : Prop where
  initialized : o.initialized = true ↔ seen ≠ []
  highest : seen ≠ [] → Highest seen o.highestSeen.toNat
  length : o.visto.length = rango
  visto : ∀ k, o.visto.getD k false = true ↔ k ∈ seen

theorem oraculoInit_accepted (rango : Nat) : (oraculoInit rango).Accepted rango [] where
  initialized := iff_of_false Bool.false_ne_true (absurd rfl)
  highest := absurd rfl
  length := List.length_replicate
  visto k := by
    refine iff_of_false ?_ List.not_mem_nil
    exact ne_true_of_eq_false (getD_replicate_false rango k)

theorem oraculo_step {rango : Nat} {o : Oraculo} {seen : List Nat} (h : o.Accepted rango seen)
    {c : UInt64} (hc : c.toNat < rango) :
    ((oraculoCheck o c).2).Accepted rango ((seenWindow 64).step seen c.toNat).1 ∧
      [(oraculoCheck o c).1] = ((seenWindow 64).step seen c.toNat).2 := by
  have hne : ∀ k : Nat, seen ++ [k] ≠ [] := fun k ↦ List.concat_ne_nil k seen
  have hlen : (o.visto.set c.toNat true).length = rango := List.length_set.trans h.length
  have hset : ∀ k, (o.visto.set c.toNat true).getD k false = true ↔ k ∈ seen ++ [c.toNat] := by
    intro k
    rw [getD_set_true, h.visto, h.length, List.mem_append, List.mem_singleton]
    exact or_congr_right ⟨fun hk ↦ hk.2.symm, fun hk ↦ ⟨hk ▸ hc, hk.symm⟩⟩
  unfold oraculoCheck
  dsimp only
  by_cases hi : o.initialized = true
  · have hs := h.initialized.mp hi
    have hh := h.highest hs
    rw [if_neg (not_not.mpr hi)]
    by_cases hlt : c > o.highestSeen
    · have hlt' : o.highestSeen.toNat < c.toNat := UInt64.lt_iff_toNat_lt.mp hlt
      rw [if_neg (fun hv ↦ absurd hv.2 (UInt64.not_le.mpr hlt)), if_pos hlt,
        seenWindow_step_of_admits (hh.admits_iff.mpr (.inl hlt'))]
      exact ⟨⟨iff_of_true hi (hne _), fun _ ↦ hh.snoc_of_lt hlt', hlen, hset⟩, rfl⟩
    · have hle : c ≤ o.highestSeen := UInt64.not_lt.mp hlt
      have hle' : c.toNat ≤ o.highestSeen.toNat := UInt64.le_iff_toNat_le.mp hle
      by_cases hin : c.toNat ∈ seen
      · rw [if_pos ⟨(h.visto _).mpr hin, hle⟩, ite_self, seenWindow_step_of_not_admits]
        · exact ⟨h, rfl⟩
        · rw [hh.admits_iff]
          exact not_or.mpr ⟨not_lt.mpr hle', fun hnew ↦ hnew.1 hin⟩
      · rw [if_neg fun hv ↦ hin ((h.visto _).mp hv.1), if_neg hlt]
        by_cases hold : o.highestSeen - c ≥ 64
        · have hold' := (sub_ge_iff hle).mp hold
          rw [if_pos hold, seenWindow_step_of_not_admits]
          · exact ⟨h, rfl⟩
          · rw [hh.admits_iff]
            omega
        · have hnew := mt (sub_ge_iff hle).mpr hold
          rw [if_neg hold, seenWindow_step_of_admits (hh.admits_iff.mpr (.inr ⟨hin, by omega⟩))]
          exact ⟨⟨iff_of_true hi (hne _), fun _ ↦ hh.snoc_of_le hle', hlen, hset⟩, rfl⟩
  · have hs : seen = [] := not_not.mp fun hs ↦ hi (h.initialized.mpr hs)
    subst hs
    rw [if_pos hi, seenWindow_step_of_admits (admits_nil 64 _)]
    exact ⟨⟨iff_of_true rfl (hne _), fun _ ↦ highest_singleton _, hlen, hset⟩, rfl⟩

theorem verdicts_eq (dir : Direction) (epoch : UInt32) (cs : List UInt64) :
    verdicts dir epoch cs = (seenWindow 64).outputs [] (cs.map UInt64.toNat) := by
  have h := Machine.refines (M := .answering replayWindowCheckAndUpdate) (N := seenWindow 64)
    (R := ReplayWindow.Accepted) (Q := fun _ ↦ True) UInt64.toNat id
    (fun _ _ c h _ ↦ (replayWindow_step h c).imp_right (List.map_id _).trans)
    (replayWindowInit_accepted dir epoch) (fun _ _ ↦ trivial : ∀ c ∈ cs, True)
  exact (List.map_id _).symm.trans h.2

theorem oracleVerdicts_eq {rango : Nat} {cs : List UInt64} (hcs : ∀ c ∈ cs, c.toNat < rango) :
    oracleVerdicts rango cs = (seenWindow 64).outputs [] (cs.map UInt64.toNat) := by
  have h := Machine.refines (M := .answering oraculoCheck) (N := seenWindow 64)
    (R := Oraculo.Accepted rango) (Q := fun c ↦ c.toNat < rango) UInt64.toNat id
    (fun _ _ _ h hc ↦ (oraculo_step h hc).imp_right (List.map_id _).trans)
    (oraculoInit_accepted rango) hcs
  exact (List.map_id _).symm.trans h.2

theorem correrDiferencial_loop (realFn : ReplayWindow → UInt64 → Bool × ReplayWindow)
    (w : ReplayWindow) (o : Oraculo) (d a : Nat) (cs : List UInt64)
    (h : (Machine.answering realFn).outputs w cs = (Machine.answering oraculoCheck).outputs o cs) :
    (correrDiferencial.loop realFn w o d a cs).1 = d := by
  induction cs generalizing w o d a with
  | nil => rfl
  | cons c cs ih =>
    obtain ⟨hc, hcs⟩ := List.cons.inj h
    have hc : (realFn w c).1 = (oraculoCheck o c).1 := hc
    calc (correrDiferencial.loop realFn w o d a (c :: cs)).1
        = if (realFn w c).1 ≠ (oraculoCheck o c).1 then d + 1 else d := ih _ _ _ _ hcs
      _ = d := if_neg (not_not.mpr hc)

/-- What the window answers along the counters `cs`. -/
structure SeenSetVerdicts (cs : List UInt64) (vs : List Bool) : Prop where
  length : vs.length = cs.length
  verdict : ∀ i c, cs[i]? = some c → (vs[i]? = some true ↔
    Admits 64 ((accepted (cs.take i) (vs.take i)).map UInt64.toNat) c.toNat)
  oracle : ∀ rango, (∀ c ∈ cs, c.toNat < rango) →
    vs = oracleVerdicts rango cs ∧
      (correrDiferencial replayWindowCheckAndUpdate cs rango).1 = 0
  nodup : (accepted cs vs).Nodup

/-- The sliding bitmap decides as the window that remembers every counter it accepted. -/
theorem replayWindow_seenSet (dir : Direction) (epoch : UInt32) (cs : List UInt64) :
    SeenSetVerdicts cs (verdicts dir epoch cs) where
  length := Machine.answering_length _ _ cs
  verdict i c hc := by
    have hget : (cs.map UInt64.toNat)[i]? = some c.toNat := by
      rw [List.getElem?_map, hc, Option.map_some]
    rw [verdicts_eq, seenWindow_getElem? hget, ← List.map_take, accepted_map, Option.some_inj,
      decide_eq_true_eq]
  oracle rango hcs := by
    constructor
    · rw [verdicts_eq, oracleVerdicts_eq hcs]
    · apply correrDiferencial_loop
      exact (verdicts_eq .rx 1 cs).trans (oracleVerdicts_eq hcs).symm
  nodup := by
    have hnodup := accepted_nodup 64 (cs.map UInt64.toNat)
    rw [accepted_map, ← verdicts_eq dir epoch] at hnodup
    exact hnodup.of_map

example : verdicts .rx 1 [100, 37, 36, 37] = [true, true, false, false] := by decide

end KemtlsMavlink
