import KemtlsMavlink.Library.Crc

namespace KemtlsMavlink.Library.Crc

/-! What a check tells apart: nothing is lost in the register when the highest bit of `p` is
set, and then a message cannot change in one place alone. -/

variable {w k n : Nat} {p : BitVec w}

theorem getLsbD_shift_top (hp : p.getLsbD (w - 1) = true) (r : BitVec w) :
    (shift p r).getLsbD (w - 1) = r.getLsbD 0 := by
  have hw : 0 < w := Nat.pos_of_ne_zero fun h ↦ by
    subst h
    simp at hp
  have htop : (r >>> 1).getLsbD (w - 1) = false := by
    simp [BitVec.getLsbD_of_ge r (1 + (w - 1)) (by omega)]
  unfold shift
  split_ifs with h
  · rw [BitVec.getLsbD_xor, htop, hp, h]
    rfl
  · rw [htop]
    simpa using h

theorem shift_injective (hp : p.getLsbD (w - 1) = true) : Function.Injective (shift p) := by
  intro x y h
  have hlow : x.getLsbD 0 = y.getLsbD 0 := by
    rw [← getLsbD_shift_top hp x, h, getLsbD_shift_top hp y]
  have hrest : x >>> 1 = y >>> 1 := by
    unfold shift at h
    rw [hlow] at h
    split_ifs at h
    · exact (BitVec.xor_left_inj p).mp h
    · exact h
  apply BitVec.eq_of_getLsbD_eq
  intro i hi
  cases i with
  | zero => exact hlow
  | succ i => simpa [Nat.add_comm] using congrArg (fun z : BitVec w ↦ z.getLsbD i) hrest

theorem getLsbD_ofBoolListLE {bs : List Bool} {i : Nat} (hi : i < bs.length) :
    (BitVec.ofBoolListLE bs).getLsbD i = bs[i] := by
  rw [BitVec.getLsbD_ofBoolListLE, List.getD_eq_getElem?_getD, List.getElem?_eq_getElem hi,
    Option.getD_some]

theorem foldl_feed_eq {bs : List Bool} (hl : bs.length = n) (hn : n ≤ w) (r : BitVec w) :
    bs.foldl (feed p) r = (shift p)^[n] (r ^^^ (BitVec.ofBoolListLE bs).setWidth w) := by
  subst hl
  have hbits : (List.range bs.length).map (BitVec.ofBoolListLE bs).getLsbD = bs := by
    apply List.ext_getElem
    · simp
    · intro i hi hi'
      rw [List.getElem_map, List.getElem_range, getLsbD_ofBoolListLE hi']
  have h := foldl_feed_low (p := p) (BitVec.ofBoolListLE bs) r hn
  rwa [hbits, BitVec.setWidth_eq] at h

theorem foldl_feed_injective (hp : p.getLsbD (w - 1) = true) (bs : List Bool) :
    Function.Injective (bs.foldl (feed p)) := by
  have hw : 0 < w := Nat.pos_of_ne_zero fun h ↦ by
    subst h
    simp at hp
  induction bs with
  | nil => exact Function.injective_id
  | cons b bs ih =>
    intro x y h
    have hfeed : feed p x b = feed p y b := ih h
    rw [feed_eq _ _ hw, feed_eq _ _ hw] at hfeed
    exact (BitVec.xor_left_inj _).mp (shift_injective hp hfeed)

theorem foldl_feed_ne (hp : p.getLsbD (w - 1) = true) {bs cs : List Bool}
    (hl : bs.length = cs.length) (hn : bs.length ≤ w) (hne : bs ≠ cs) (r : BitVec w) :
    bs.foldl (feed p) r ≠ cs.foldl (feed p) r := by
  intro h
  rw [foldl_feed_eq rfl hn, foldl_feed_eq hl.symm hn] at h
  have hbits : (BitVec.ofBoolListLE bs).setWidth w = (BitVec.ofBoolListLE cs).setWidth w :=
    (BitVec.xor_right_inj r).mp ((shift_injective hp).iterate _ h)
  apply hne
  apply List.ext_getElem hl
  intro i hi hi'
  have hiw : i < w := Nat.lt_of_lt_of_le hi hn
  have hbit := congrArg (fun z : BitVec w ↦ z.getLsbD i) hbits
  simpa only [BitVec.getLsbD_setWidth, hiw, decide_true, Bool.true_and, getLsbD_ofBoolListLE hi,
    getLsbD_ofBoolListLE hi'] using hbit

@[simp] theorem length_bits (b : BitVec k) : (bits b).length = k := by simp [bits]

theorem bits_injective : Function.Injective (bits : BitVec k → List Bool) := by
  intro b c h
  apply BitVec.eq_of_getLsbD_eq
  intro i hi
  simpa [bits, hi] using congrArg (fun l ↦ l[i]?) h

theorem length_flatMap_bits (msg : List (BitVec k)) :
    (msg.flatMap bits).length = k * msg.length := by
  induction msg with
  | nil => rfl
  | cons b msg ih => simp [List.flatMap_cons, ih, Nat.mul_add, Nat.add_comm]

theorem flatMap_bits_inj {m m' : List (BitVec k)} (hl : m.length = m'.length)
    (h : m.flatMap bits = m'.flatMap bits) : m = m' := by
  induction m generalizing m' with
  | nil => exact (List.length_eq_zero_iff.mp hl.symm).symm
  | cons b m ih =>
    cases m' with
    | nil => simp at hl
    | cons b' m' =>
      rw [List.flatMap_cons, List.flatMap_cons] at h
      obtain ⟨hb, hm⟩ := List.append_inj h (by simp)
      rw [bits_injective hb, ih (Nat.succ.inj hl) hm]

theorem register_append (r : BitVec w) (m m' : List (BitVec k)) :
    register p r (m ++ m') = register p (register p r m) m' := by
  rw [register, List.flatMap_append, List.foldl_append, register, register]

/-- A burst no longer than the register changes the check, wherever it is. -/
theorem register_ne_of_burst (hp : p.getLsbD (w - 1) = true) (r : BitVec w)
    {a m m' b : List (BitVec k)} (hl : m.length = m'.length) (hn : k * m.length ≤ w)
    (hne : m ≠ m') : register p r (a ++ m ++ b) ≠ register p r (a ++ m' ++ b) := by
  intro h
  rw [register_append, register_append, register_append r (a ++ m'), register_append r a] at h
  have hbits : (m.flatMap bits).length = (m'.flatMap bits).length := by
    rw [length_flatMap_bits, length_flatMap_bits, hl]
  exact foldl_feed_ne hp hbits (length_flatMap_bits m ▸ hn) (mt (flatMap_bits_inj hl) hne) _
    (foldl_feed_injective hp _ h)

end KemtlsMavlink.Library.Crc
