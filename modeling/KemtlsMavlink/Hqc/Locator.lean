import KemtlsMavlink.Hqc.ErrorPoly
import KemtlsMavlink.Hqc.ReedSolomon
import KemtlsMavlink.Library.KeyEquation

namespace KemtlsMavlink.Hqc

open Library Library.Coefficients Library.BerlekampMassey Polynomial

noncomputable def toPoly (l : List UInt16) : Gf[X] := ofList (l.map Gf.of)

theorem coeff_toPoly (l : List UInt16) (k : Nat) : (toPoly l).coeff k = Gf.of (l.getD k 0) := by
  rw [toPoly, coeff_ofList]
  exact List.getD_map l 0 Gf.of

theorem full_and (w : UInt16) : 0xFFFF &&& w = w := by
  rw [← UInt16.toNat_inj, UInt16.toNat_and, Nat.and_comm]
  exact (Nat.and_two_pow_sub_one_eq_mod w.toNat 16).trans (Nat.mod_eq_of_lt w.toNat_lt)

def maskOf (p : Prop) [Decidable p] : UInt16 := if p then 0xFFFF else 0

variable {p q : Prop} [Decidable p] [Decidable q]

theorem maskOf_and_maskOf : maskOf p &&& maskOf q = maskOf (p ∧ q) := by
  unfold maskOf
  by_cases hp : p <;> by_cases hq : q <;> simp [hp, hq]

theorem maskOf_and (w : UInt16) : maskOf p &&& w = if p then w else 0 := by
  unfold maskOf
  split_ifs
  · exact full_and w
  · exact UInt16.zero_and

theorem xor_maskOf (x y : UInt16) : x ^^^ (maskOf p &&& (y ^^^ x)) = if p then y else x := by
  rw [maskOf_and]
  split_ifs
  · rw [UInt16.xor_comm, UInt16.xor_assoc, UInt16.xor_self, UInt16.xor_zero]
  · exact UInt16.xor_zero

theorem maskOf_xor (x y : UInt16) :
    (maskOf p &&& x) ^^^ (~~~maskOf p &&& y) = if p then x else y := by
  rw [maskOf_and]
  unfold maskOf
  split_ifs
  · exact (congrArg (x ^^^ ·) UInt16.zero_and).trans UInt16.xor_zero
  · exact UInt16.zero_xor.trans (full_and y)

theorem mask_of_byte {d : UInt16} (hd : Byte d) :
    (0 : UInt16) - (((0 : UInt16) - d) >>> 15) = maskOf (d ≠ 0) := by
  rw [neg_shiftRight hd]
  unfold maskOf
  by_cases h : d = 0
  · rw [if_pos h, if_neg (not_not.mpr h)]
    rfl
  · rw [if_neg h, if_pos h]
    rfl

theorem mask_of_lt {a b : UInt16} (ha : a.toNat < 2 ^ 14) (hb : b.toNat < 2 ^ 14) :
    (0 : UInt16) - ((a - b) >>> 15) = maskOf (a.toNat < b.toNat) := by
  have h15 : (15 : UInt16).toNat % 16 = 15 := rfl
  have hs : (a - b) >>> 15 = if a.toNat < b.toNat then 1 else 0 := by
    rw [← UInt16.toNat_inj, UInt16.toNat_shiftRight, UInt16.toNat_sub, h15,
      Nat.shiftRight_eq_div_pow]
    split_ifs
    · rw [UInt16.toNat_one]
      omega
    · rw [UInt16.toNat_zero]
      omega
  rw [hs]
  unfold maskOf
  split_ifs <;> rfl

theorem of_foldl_xor (f : Nat → UInt16) (d : UInt16) (m : Nat) :
    Gf.of ((List.range' 1 m).foldl (fun d i ↦ d ^^^ f i) d) =
      Gf.of d + ∑ i ∈ Finset.range m, Gf.of (f (i + 1)) := by
  induction m with
  | zero => rw [Finset.sum_range_zero, add_zero]; rfl
  | succ m ih =>
    rw [List.range'_concat, List.foldl_concat, Gf.of_xor, ih, Finset.sum_range_succ, one_mul,
      add_comm 1 m, add_assoc]

theorem byte_foldl_xor {f : Nat → UInt16} (hf : ∀ i, Byte (f i)) {d : UInt16} (hd : Byte d)
    (l : List Nat) : Byte (l.foldl (fun d i ↦ d ^^^ f i) d) := by
  induction l generalizing d with
  | nil => exact hd
  | cons i l ih => exact ih (hd.xor (hf i))

theorem getD_mapIdx {α : Type*} {f : Nat → α → α} {l : List α} {k : Nat} {d : α}
    (hk : k < l.length) : (l.mapIdx f).getD k d = f k (l.getD k d) := by
  rw [List.getD_eq_getElem?_getD, List.getElem?_mapIdx, List.getElem?_eq_getElem hk,
    List.getD_eq_getElem _ _ hk]
  rfl

theorem bytes_mapIdx {f : Nat → UInt16 → UInt16} {l : List UInt16}
    (h : ∀ k < l.length, Byte (f k (l.getD k 0))) : Bytes (l.mapIdx f) := by
  intro a ha
  obtain ⟨k, hk, rfl⟩ := List.getElem_of_mem ha
  rw [List.length_mapIdx] at hk
  rw [List.getElem_mapIdx, ← List.getD_eq_getElem _ 0 hk]
  exact h k hk

/-- The variables of `compute_elp` before the place `n`: the arrays hold the first 16 coefficients
of both recurrences. -/
structure Tracks (s : Gf[X]) (n : Nat) (v : Elp) (b : State Gf) : Prop where
  length_sigma : v.sigma.length = 16
  bytes_sigma : Bytes v.sigma
  sigma : ∀ k < 16, Gf.of (v.sigma.getD k 0) = b.c.coeff k
  length_p : v.xSigmaP.length = 16
  bytes_p : Bytes v.xSigmaP
  xSigmaP : ∀ k < 16, Gf.of (v.xSigmaP.getD k 0) = b.p.coeff k
  degSigma : v.degSigma.toNat = b.len
  pp : v.pp + 1 = v.degSigma + v.degSigmaP
  dP : Byte v.dP ∧ Gf.of v.dP = b.dp
  d : Byte v.d ∧ Gf.of v.d = b.discrepancy s n

theorem tracks_init {syndromes : List UInt16} (hb : Bytes syndromes) :
    Tracks (toPoly syndromes) 0 (Elp.init syndromes) State.init where
  length_sigma := rfl
  bytes_sigma := by
    have h : ∀ a ∈ (Elp.init []).sigma, a.toNat < 256 := forall_of_all (by decide)
    exact h
  sigma k hk := by
    change _ = (1 : Gf[X]).coeff k
    rw [coeff_one]
    cases k with
    | zero => exact Gf.of_one.trans (if_pos rfl).symm
    | succ k =>
      change Gf.of ((List.replicate 15 (0 : UInt16)).getD k 0) = _
      rw [List.getD_replicate _ (by omega), Gf.of_zero, if_neg (Nat.succ_ne_zero k)]
  length_p := rfl
  bytes_p := by
    have h : ∀ a ∈ (Elp.init []).xSigmaP, a.toNat < 256 := forall_of_all (by decide)
    exact h
  xSigmaP k hk := by
    change _ = (X : Gf[X]).coeff k
    rw [coeff_X]
    match k with
    | 0 => exact Gf.of_zero.trans (if_neg (by decide)).symm
    | 1 => exact Gf.of_one.trans (if_pos rfl).symm
    | k + 2 =>
      change Gf.of ((List.replicate 14 (0 : UInt16)).getD k 0) = _
      rw [List.getD_replicate _ (by omega), Gf.of_zero, if_neg (by omega)]
  degSigma := rfl
  pp := (by decide : (0 : UInt16) - 1 + 1 = 0 + 0)
  dP := ⟨(by decide : 1 < 256), Gf.of_one⟩
  d := by
    refine ⟨hb.getD 0, ?_⟩
    rw [State.discrepancy, State.init, one_mul, coeff_toPoly]
    rfl

section

variable {syndromes : List UInt16} {n : Nat} {v : Elp} {b : State Gf}

theorem sigma_step (h : Tracks (toPoly syndromes) n v b) (hi : State.Inv (toPoly syndromes) n b) :
    (elpStep syndromes v n).sigma.length = 16 ∧ Bytes (elpStep syndromes v n).sigma ∧
      ∀ k < 16, Gf.of ((elpStep syndromes v n).sigma.getD k 0) =
        (b.next (toPoly syndromes) n).c.coeff k := by
  have hsigma : (elpStep syndromes v n).sigma = v.sigma.mapIdx (fun i a ↦
      if 1 ≤ i ∧ i ≤ n + 1 ∧ i ≤ 15 then
        a ^^^ gfMul (gfMul v.d (gfInverse v.dP)) (v.xSigmaP.getD i 0) else a) := by
    rw [elpStep]
    split_ifs <;> rfl
  have hc : (b.next (toPoly syndromes) n).c =
      b.c - C (b.discrepancy (toPoly syndromes) n / b.dp) * b.p := by
    rw [State.next]
    split_ifs <;> rfl
  rw [hsigma, hc]
  refine ⟨by rw [List.length_mapIdx, h.length_sigma], bytes_mapIdx fun k hk ↦ ?_, fun k hk ↦ ?_⟩
  · split_ifs
    · exact (h.bytes_sigma.getD k).xor (byte_gfMul _ _)
    · exact h.bytes_sigma.getD k
  · rw [getD_mapIdx (by rwa [h.length_sigma]), coeff_sub, coeff_C_mul, ← h.sigma k hk,
      CharTwo.sub_eq_add]
    split_ifs with hk1
    · rw [Gf.of_xor, Gf.of_gfMul, Gf.of_gfMul, Gf.of_gfInverse, h.xSigmaP k hk, h.dP.2, h.d.2,
        div_eq_mul_inv]
    · have hp : b.p.coeff k = 0 := by
        by_cases h0 : k = 0
        · rw [h0, hi.coeff_p]
        · have hd := hi.degree_p
          exact coeff_eq_zero_of_natDegree_lt (by omega)
      rw [hp, mul_zero, add_zero]

theorem degSigma_step (h : Tracks (toPoly syndromes) n v b)
    (hi : State.Inv (toPoly syndromes) n b) (hn : n < 30) :
    (UInt16.ofNat n - v.pp + v.degSigmaP).toNat = n + 1 - b.len ∧
      (0 : UInt16) - (((0 : UInt16) - v.d) >>> 15) &&&
        ((0 : UInt16) - ((v.degSigma - (UInt16.ofNat n - v.pp + v.degSigmaP)) >>> 15)) =
          maskOf (v.d ≠ 0 ∧ b.len < n + 1 - b.len) := by
  have hlen := hi.len_le
  have hpp := congrArg UInt16.toNat h.pp
  rw [UInt16.toNat_add, UInt16.toNat_add, UInt16.toNat_one, h.degSigma] at hpp
  have hdeg : (UInt16.ofNat n - v.pp + v.degSigmaP).toNat = n + 1 - b.len := by
    have h₁ := v.pp.toNat_lt
    have h₂ := v.degSigmaP.toNat_lt
    rw [UInt16.toNat_add, UInt16.toNat_sub, UInt16.toNat_ofNat',
      Nat.mod_eq_of_lt (show n < 2 ^ 16 by omega)]
    omega
  refine ⟨hdeg, ?_⟩
  rw [mask_of_byte h.d.1, mask_of_lt (by rw [h.degSigma]; omega) (by rw [hdeg]; omega),
    maskOf_and_maskOf, h.degSigma, hdeg]

theorem d_ne_zero_iff (h : Tracks (toPoly syndromes) n v b) :
    v.d ≠ 0 ↔ b.discrepancy (toPoly syndromes) n ≠ 0 := by
  rw [← h.d.2, not_iff_not]
  exact h.d.1.eq_zero_iff.symm

theorem degree_step (h : Tracks (toPoly syndromes) n v b)
    (hi : State.Inv (toPoly syndromes) n b) (hn : n < 30) :
    (elpStep syndromes v n).degSigma.toNat = (b.next (toPoly syndromes) n).len := by
  obtain ⟨hdeg, hmask⟩ := degSigma_step h hi hn
  have hstep : (elpStep syndromes v n).degSigma = v.degSigma ^^^
      (((0 : UInt16) - (((0 : UInt16) - v.d) >>> 15) &&&
        ((0 : UInt16) - ((v.degSigma - (UInt16.ofNat n - v.pp + v.degSigmaP)) >>> 15))) &&&
          ((UInt16.ofNat n - v.pp + v.degSigmaP) ^^^ v.degSigma)) := by
    rw [elpStep]
    split_ifs <;> rfl
  rw [hstep, hmask, xor_maskOf, State.next]
  by_cases hc : v.d ≠ 0 ∧ b.len < n + 1 - b.len
  · rw [if_pos hc, if_pos ⟨(d_ne_zero_iff h).mp hc.1, hc.2⟩]
    exact hdeg
  · rw [if_neg hc, if_neg fun hc' ↦ hc ⟨(d_ne_zero_iff h).mpr hc'.1, hc'.2⟩]
    exact h.degSigma

theorem discrepancy_eq {sigma : List UInt16} (hs : ∀ k < 16, Gf.of (sigma.getD k 0) = b.c.coeff k)
    (h0 : b.c.coeff 0 = 1) (hdeg : b.c.natDegree ≤ 15) :
    Gf.of (syndromes.getD (n + 1) 0) + ∑ i ∈ Finset.range (min (n + 1) 15),
        Gf.of (gfMul (sigma.getD (i + 1) 0) (syndromes.getD (n + 1 - (i + 1)) 0)) =
      b.discrepancy (toPoly syndromes) (n + 1) := by
  rw [State.discrepancy, coeff_mul,
    Finset.Nat.sum_antidiagonal_eq_sum_range_succ
      (fun i j ↦ b.c.coeff i * (toPoly syndromes).coeff j), Finset.sum_range_succ', h0, one_mul,
    Nat.sub_zero, coeff_toPoly, add_comm]
  congr 1
  have hsub : Finset.range (min (n + 1) 15) ⊆ Finset.range (n + 1) :=
    Finset.range_subset_range.mpr (Nat.min_le_left _ _)
  rw [← Finset.sum_subset hsub]
  · refine Finset.sum_congr rfl fun i hi ↦ ?_
    have hi := Finset.mem_range.mp hi
    rw [Gf.of_gfMul, hs (i + 1) (by omega), coeff_toPoly]
  · intro i hi hi'
    have hi := Finset.mem_range.mp hi
    have hi' := Finset.mem_range.not.mp hi'
    rw [coeff_eq_zero_of_natDegree_lt (by omega), zero_mul]

theorem Tracks.step (h : Tracks (toPoly syndromes) n v b)
    (hi : State.Inv (toPoly syndromes) n b) (hb : Bytes syndromes) (hn : n < 29)
    (hlen : (b.next (toPoly syndromes) n).len ≤ 15) :
    Tracks (toPoly syndromes) (n + 1) (elpStep syndromes v n) (b.next (toPoly syndromes) n) := by
  obtain ⟨hs1, hs2, hs3⟩ := sigma_step h hi
  obtain ⟨hdeg, hmask⟩ := degSigma_step h hi (by omega)
  have hdegree := degree_step h hi (by omega)
  have hi' := hi.next
  have hlast : ¬n = 2 * paramDelta - 1 := by
    change ¬n = 29
    omega
  let grows := v.d ≠ 0 ∧ b.len < n + 1 - b.len
  have hx : (elpStep syndromes v n).xSigmaP = v.xSigmaP.mapIdx (fun i a ↦
      if i = 0 then a
      else if grows then v.sigma.getD (i - 1) 0 else v.xSigmaP.getD (i - 1) 0) := by
    rw [elpStep, if_neg hlast]
    dsimp only
    rw [hmask]
    simp only [maskOf_xor, grows]
  have hpp : (elpStep syndromes v n).pp = if grows then UInt16.ofNat n else v.pp := by
    rw [elpStep, if_neg hlast]
    dsimp only
    rw [hmask, xor_maskOf]
  have hdsp : (elpStep syndromes v n).degSigmaP = if grows then v.degSigma else v.degSigmaP := by
    rw [elpStep, if_neg hlast]
    dsimp only
    rw [hmask, xor_maskOf]
  have hdP : (elpStep syndromes v n).dP = if grows then v.d else v.dP := by
    rw [elpStep, if_neg hlast]
    dsimp only
    rw [hmask, xor_maskOf]
  have hd : (elpStep syndromes v n).d = (List.range' 1 (min (n + 1) 15)).foldl (fun d i ↦
      d ^^^ gfMul ((elpStep syndromes v n).sigma.getD i 0) (syndromes.getD (n + 1 - i) 0))
        (syndromes.getD (n + 1) 0) := by
    rw [elpStep, if_neg hlast]
    rfl
  have hnext : (b.next (toPoly syndromes) n).p = (if grows then X * b.c else X * b.p) ∧
      (b.next (toPoly syndromes) n).dp = (if grows then b.discrepancy (toPoly syndromes) n
        else b.dp) ∧
      (b.next (toPoly syndromes) n).len = if grows then n + 1 - b.len else b.len := by
    have hiff : (b.discrepancy (toPoly syndromes) n ≠ 0 ∧ b.len < n + 1 - b.len) ↔ grows :=
      and_congr_left fun _ ↦ (d_ne_zero_iff h).symm
    rw [State.next]
    by_cases hg : grows
    · rw [if_pos (hiff.mpr hg), if_pos hg, if_pos hg, if_pos hg]
      exact ⟨rfl, rfl, rfl⟩
    · rw [if_neg (hiff.not.mpr hg), if_neg hg, if_neg hg, if_neg hg]
      exact ⟨rfl, rfl, rfl⟩
  exact {
    length_sigma := hs1
    bytes_sigma := hs2
    sigma := hs3
    length_p := by rw [hx, List.length_mapIdx, h.length_p]
    bytes_p := by
      rw [hx]
      refine bytes_mapIdx fun k hk ↦ ?_
      split_ifs
      · exact h.bytes_p.getD k
      · exact h.bytes_sigma.getD _
      · exact h.bytes_p.getD _
    xSigmaP := fun k hk ↦ by
      rw [hx, getD_mapIdx (by rwa [h.length_p]), hnext.1]
      cases k with
      | zero =>
        rw [if_pos rfl, h.xSigmaP 0 hk, hi.coeff_p]
        split_ifs
        · exact (coeff_X_mul_zero _).symm
        · exact (coeff_X_mul_zero _).symm
      | succ k =>
        rw [if_neg (Nat.succ_ne_zero k), Nat.add_sub_cancel]
        split_ifs
        · rw [coeff_X_mul, h.sigma k (by omega)]
        · rw [coeff_X_mul, h.xSigmaP k (by omega)]
    degSigma := hdegree
    pp := by
      have hto := hdegree
      rw [hnext.2.2] at hto
      rw [hpp, hdsp]
      split_ifs at hto ⊢
      · have hle := hi.len_le
        rw [← UInt16.toNat_inj, UInt16.toNat_add, UInt16.toNat_add, UInt16.toNat_one,
          UInt16.toNat_ofNat', hto, h.degSigma, Nat.mod_eq_of_lt (show n < 2 ^ 16 by omega)]
        congr 1
        omega
      · rw [UInt16.toNat_inj.mp (hto.trans h.degSigma.symm)]
        exact h.pp
    dP := by
      rw [hdP, hnext.2.1]
      split_ifs
      · exact h.d
      · exact h.dP
    d := by
      rw [hd]
      refine ⟨byte_foldl_xor (fun _ ↦ byte_gfMul _ _) (hb.getD _) _, ?_⟩
      rw [of_foldl_xor]
      exact discrepancy_eq hs3 hi'.coeff_c (hi'.degree_c.trans hlen) }

/-- Before the place `n`, while the recurrences stay short. -/
theorem tracks_run (hb : Bytes syndromes)
    (hlen : ∀ n ≤ 29, (State.run (toPoly syndromes) n).len ≤ 15) : ∀ n ≤ 29,
      Tracks (toPoly syndromes) n ((List.range n).foldl (elpStep syndromes) (Elp.init syndromes))
        (State.run (toPoly syndromes) n)
  | 0, _ => tracks_init hb
  | n + 1, hn => by
    rw [List.range_succ, List.foldl_concat]
    exact (tracks_run hb hlen n (by omega)).step (State.inv_run _ n) hb (by omega)
      (hlen (n + 1) hn)

def elpBeforeLast (syndromes : List UInt16) : Elp :=
  (List.range 29).foldl (elpStep syndromes) (Elp.init syndromes)

theorem computeElp_last (syndromes : List UInt16) : computeElp syndromes =
    ((elpStep syndromes (elpBeforeLast syndromes) 29).sigma,
      (elpStep syndromes (elpBeforeLast syndromes) 29).degSigma) := by
  have hr : List.range (2 * paramDelta) = List.range 29 ++ [29] := List.range_succ
  rw [computeElp, hr, List.foldl_concat, elpBeforeLast]

/-- `compute_elp` finds the shortest recurrence of the syndromes, when it is short enough. -/
theorem computeElp_eq (hb : Bytes syndromes)
    (hlen : ∀ n ≤ 30, (State.run (toPoly syndromes) n).len ≤ 15) :
    (computeElp syndromes).1.length = 16 ∧ Bytes (computeElp syndromes).1 ∧
      toPoly (computeElp syndromes).1 = (State.run (toPoly syndromes) 30).c ∧
      (computeElp syndromes).2.toNat = (State.run (toPoly syndromes) 30).len := by
  have h : Tracks (toPoly syndromes) 29 (elpBeforeLast syndromes)
      (State.run (toPoly syndromes) 29) := tracks_run hb (fun n hn ↦ hlen n (by omega)) 29 le_rfl
  have hi := State.inv_run (toPoly syndromes) 29
  have hrun : State.run (toPoly syndromes) 30 =
      (State.run (toPoly syndromes) 29).next (toPoly syndromes) 29 := by rw [State.run]
  have hle := hlen 30 le_rfl
  have hdeg := (State.inv_run (toPoly syndromes) 30).degree_c
  obtain ⟨h1, h2, h3⟩ := sigma_step h hi
  have h4 := degree_step h hi (by decide)
  rw [← hrun] at h3 h4
  rw [computeElp_last]
  dsimp only
  refine ⟨h1, h2, ?_, h4⟩
  ext k : 1
  rw [coeff_toPoly]
  by_cases hk : k < 16
  · exact h3 k hk
  · rw [List.getD_eq_default _ _ (h1.trans_le (Nat.le_of_not_lt hk)),
      coeff_eq_zero_of_natDegree_lt (by omega), Gf.of_zero]

end

end KemtlsMavlink.Hqc
