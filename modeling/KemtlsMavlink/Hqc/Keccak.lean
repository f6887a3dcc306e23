import KemtlsMavlink.Library.Keccak
import Mathlib.Data.Fintype.Basic
import Mathlib.Data.List.GetD
import Mathlib.Tactic.FinCases

namespace KemtlsMavlink.Hqc

open Library

def keccakFRoundConstants : List UInt64 :=
  [0x0000000000000001, 0x0000000000008082, 0x800000000000808a, 0x8000000080008000,
    0x000000000000808b, 0x0000000080000001, 0x8000000080008081, 0x8000000000008009,
    0x000000000000008a, 0x0000000000000088, 0x0000000080008009, 0x000000008000000a,
    0x000000008000808b, 0x800000000000008b, 0x8000000000008089, 0x8000000000008003,
    0x8000000000008002, 0x8000000000000080, 0x000000000000800a, 0x800000008000000a,
    0x8000000080008081, 0x8000000000008080, 0x0000000080000001, 0x8000000080008008]

def rol (a offset : UInt64) : UInt64 := (a <<< offset) ^^^ (a >>> (64 - offset))

/-- The variables `Aba` to `Asu`, and `Eba` to `Esu`. -/
structure Lanes where
  (ba be bi bo bu : UInt64)
  (ga ge gi go gu : UInt64)
  (ka ke ki ko ku : UInt64)
  (ma me mi mo mu : UInt64)
  (sa se si so su : UInt64)

def copyFromState (s : List UInt64) : Lanes where
  ba := s.getD 0 0
  be := s.getD 1 0
  bi := s.getD 2 0
  bo := s.getD 3 0
  bu := s.getD 4 0
  ga := s.getD 5 0
  ge := s.getD 6 0
  gi := s.getD 7 0
  go := s.getD 8 0
  gu := s.getD 9 0
  ka := s.getD 10 0
  ke := s.getD 11 0
  ki := s.getD 12 0
  ko := s.getD 13 0
  ku := s.getD 14 0
  ma := s.getD 15 0
  me := s.getD 16 0
  mi := s.getD 17 0
  mo := s.getD 18 0
  mu := s.getD 19 0
  sa := s.getD 20 0
  se := s.getD 21 0
  si := s.getD 22 0
  so := s.getD 23 0
  su := s.getD 24 0

def copyToState (a : Lanes) : List UInt64 :=
  [a.ba, a.be, a.bi, a.bo, a.bu, a.ga, a.ge, a.gi, a.go, a.gu, a.ka, a.ke, a.ki, a.ko, a.ku,
    a.ma, a.me, a.mi, a.mo, a.mu, a.sa, a.se, a.si, a.so, a.su]

/-- `prepareTheta` and `thetaRhoPiChiIotaPrepareTheta`, from one set of variables to the other. The
loop body has this twice, with the sets exchanged. -/
def thetaRhoPiChiIota (c : UInt64) (a : Lanes) : Lanes :=
  let bca := a.ba ^^^ a.ga ^^^ a.ka ^^^ a.ma ^^^ a.sa
  let bce := a.be ^^^ a.ge ^^^ a.ke ^^^ a.me ^^^ a.se
  let bci := a.bi ^^^ a.gi ^^^ a.ki ^^^ a.mi ^^^ a.si
  let bco := a.bo ^^^ a.go ^^^ a.ko ^^^ a.mo ^^^ a.so
  let bcu := a.bu ^^^ a.gu ^^^ a.ku ^^^ a.mu ^^^ a.su
  let da := bcu ^^^ rol bce 1
  let de := bca ^^^ rol bci 1
  let di := bce ^^^ rol bco 1
  let d0 := bci ^^^ rol bcu 1
  let du := bco ^^^ rol bca 1
  let bca := a.ba ^^^ da
  let bce := rol (a.ge ^^^ de) 44
  let bci := rol (a.ki ^^^ di) 43
  let bco := rol (a.mo ^^^ d0) 21
  let bcu := rol (a.su ^^^ du) 14
  let eba := bca ^^^ (~~~bce &&& bci)
  let eba := eba ^^^ c
  let ebe := bce ^^^ (~~~bci &&& bco)
  let ebi := bci ^^^ (~~~bco &&& bcu)
  let ebo := bco ^^^ (~~~bcu &&& bca)
  let ebu := bcu ^^^ (~~~bca &&& bce)
  let bca := rol (a.bo ^^^ d0) 28
  let bce := rol (a.gu ^^^ du) 20
  let bci := rol (a.ka ^^^ da) 3
  let bco := rol (a.me ^^^ de) 45
  let bcu := rol (a.si ^^^ di) 61
  let ega := bca ^^^ (~~~bce &&& bci)
  let ege := bce ^^^ (~~~bci &&& bco)
  let egi := bci ^^^ (~~~bco &&& bcu)
  let ego := bco ^^^ (~~~bcu &&& bca)
  let egu := bcu ^^^ (~~~bca &&& bce)
  let bca := rol (a.be ^^^ de) 1
  let bce := rol (a.gi ^^^ di) 6
  let bci := rol (a.ko ^^^ d0) 25
  let bco := rol (a.mu ^^^ du) 8
  let bcu := rol (a.sa ^^^ da) 18
  let eka := bca ^^^ (~~~bce &&& bci)
  let eke := bce ^^^ (~~~bci &&& bco)
  let eki := bci ^^^ (~~~bco &&& bcu)
  let eko := bco ^^^ (~~~bcu &&& bca)
  let eku := bcu ^^^ (~~~bca &&& bce)
  let bca := rol (a.bu ^^^ du) 27
  let bce := rol (a.ga ^^^ da) 36
  let bci := rol (a.ke ^^^ de) 10
  let bco := rol (a.mi ^^^ di) 15
  let bcu := rol (a.so ^^^ d0) 56
  let ema := bca ^^^ (~~~bce &&& bci)
  let eme := bce ^^^ (~~~bci &&& bco)
  let emi := bci ^^^ (~~~bco &&& bcu)
  let emo := bco ^^^ (~~~bcu &&& bca)
  let emu := bcu ^^^ (~~~bca &&& bce)
  let bca := rol (a.bi ^^^ di) 62
  let bce := rol (a.go ^^^ d0) 55
  let bci := rol (a.ku ^^^ du) 39
  let bco := rol (a.ma ^^^ da) 41
  let bcu := rol (a.se ^^^ de) 2
  let esa := bca ^^^ (~~~bce &&& bci)
  let ese := bce ^^^ (~~~bci &&& bco)
  let esi := bci ^^^ (~~~bco &&& bcu)
  let eso := bco ^^^ (~~~bcu &&& bca)
  let esu := bcu ^^^ (~~~bca &&& bce)
  ⟨eba, ebe, ebi, ebo, ebu, ega, ege, egi, ego, egu, eka, eke, eki, eko, eku, ema, eme, emi, emo,
    emu, esa, ese, esi, eso, esu⟩

def keccakF1600StatePermute (state : List UInt64) : List UInt64 :=
  copyToState ((List.range 12).foldl (fun a i ↦
    thetaRhoPiChiIota (keccakFRoundConstants.getD (2 * i + 1) 0)
      (thetaRhoPiChiIota (keccakFRoundConstants.getD (2 * i) 0) a)) (copyFromState state))

/-- The lanes of a state, as bits. -/
def lanes (s : List UInt64) : Keccak.Lanes 64 := fun x y ↦ (s.getD (5 * y.val + x.val) 0).toBitVec

theorem toBitVec_rol (a : UInt64) {n : Nat} (h0 : 0 < n) (hn : n < 64) :
    (rol a (UInt64.ofNat n)).toBitVec = a.toBitVec.rotateLeft n := by
  have hof : (UInt64.ofNat n).toNat = n := by
    rw [UInt64.toNat_ofNat']
    omega
  have h64 : (64 : UInt64).toNat = 64 := rfl
  have hb64 : (64 : BitVec 64).toNat = 64 := rfl
  have hsub : (64 - UInt64.ofNat n).toNat = 64 - n := by
    rw [UInt64.toNat_sub_of_le _ _ (UInt64.le_iff_toNat_le.mpr (by omega)), h64, hof]
  have hmod : n % 64 = n := Nat.mod_eq_of_lt hn
  have hmod' : (64 - n) % 64 = 64 - n := Nat.mod_eq_of_lt (by omega)
  refine BitVec.eq_of_getLsbD_eq fun i hi ↦ ?_
  rw [rol, UInt64.toBitVec_xor, UInt64.toBitVec_shiftLeft, UInt64.toBitVec_shiftRight,
    BitVec.getLsbD_xor, BitVec.shiftLeft_eq', BitVec.ushiftRight_eq', BitVec.toNat_umod,
    BitVec.toNat_umod, UInt64.toNat_toBitVec, hb64, hof, hmod, UInt64.toNat_toBitVec, hsub, hmod',
    BitVec.getLsbD_shiftLeft, BitVec.getLsbD_ushiftRight, BitVec.getLsbD_rotateLeft, hmod,
    decide_eq_true hi, Bool.true_and]
  by_cases h : i < n
  · rw [decide_eq_true h, cond_true, Bool.not_true, Bool.false_and, Bool.false_xor]
  · rw [decide_eq_false h, cond_false, Bool.not_false, Bool.true_and,
      BitVec.getLsbD_of_ge _ (64 - n + i) (by omega), Bool.xor_false]

theorem rotateLeft_zero (v : BitVec 64) : v.rotateLeft 0 = v := by
  refine BitVec.eq_of_getLsbD_eq fun i hi ↦ ?_
  rw [BitVec.getLsbD_rotateLeft, Nat.zero_mod, decide_eq_false (Nat.not_lt_zero i), cond_false,
    decide_eq_true hi, Bool.true_and, Nat.sub_zero]

theorem getD_flatten_rows {rows : List (List UInt64)} (h : ∀ row ∈ rows, row.length = 5) (y : Nat)
    {x : Nat} (hx : x < 5) : rows.flatten.getD (5 * y + x) 0 = (rows.getD y []).getD x 0 := by
  induction rows generalizing y with
  | nil => rfl
  | cons row rows ih =>
    have hlen := h row List.mem_cons_self
    cases y with
    | zero =>
      rw [List.flatten_cons, List.getD_cons_zero, Nat.mul_zero, Nat.zero_add,
        List.getD_append _ _ _ _ (hx.trans_eq hlen.symm)]
    | succ y =>
      have hsub : 5 * (y + 1) + x - row.length = 5 * y + x := by omega
      rw [List.flatten_cons, List.getD_cons_succ, List.getD_append_right _ _ _ _ (by omega), hsub,
        ih fun r hr ↦ h r (List.mem_cons_of_mem row hr)]

def chiRow (bca bce bci bco bcu : UInt64) : List UInt64 :=
  [bca ^^^ (~~~bce &&& bci), bce ^^^ (~~~bci &&& bco), bci ^^^ (~~~bco &&& bcu),
    bco ^^^ (~~~bcu &&& bca), bcu ^^^ (~~~bca &&& bce)]

theorem getD_chiRow {b : Fin 5 → BitVec 64} {bca bce bci bco bcu : UInt64}
    (ha : bca.toBitVec = b 0) (he : bce.toBitVec = b 1) (hi : bci.toBitVec = b 2)
    (ho : bco.toBitVec = b 3) (hu : bcu.toBitVec = b 4) (x : Fin 5) :
    ((chiRow bca bce bci bco bcu).getD x.val 0).toBitVec =
      b x ^^^ (~~~b (x + 1) &&& b (x + 2)) := by
  have hcell {u v w : UInt64} {r s t : BitVec 64} (h₁ : u.toBitVec = r) (h₂ : v.toBitVec = s)
      (h₃ : w.toBitVec = t) : (u ^^^ (~~~v &&& w)).toBitVec = r ^^^ (~~~s &&& t) := by
    rw [UInt64.toBitVec_xor, UInt64.toBitVec_and, UInt64.toBitVec_not, h₁, h₂, h₃]
  fin_cases x
  · exact hcell ha he hi
  · exact hcell he hi ho
  · exact hcell hi ho hu
  · exact hcell ho hu ha
  · exact hcell hu ha he

theorem toBitVec_lane {A : Keccak.Lanes 64} {v d : UInt64} (x y : Fin 5) (n : Nat)
    (hn : Keccak.offset x y % 64 = n ∧ 0 < n ∧ n < 64) (hv : v.toBitVec = A x y)
    (hd : d.toBitVec = Keccak.parity A (x - 1) ^^^ (Keccak.parity A (x + 1)).rotateLeft 1) :
    (rol (v ^^^ d) (UInt64.ofNat n)).toBitVec = Keccak.rho (Keccak.theta A) x y := by
  obtain ⟨hoff, h0, hlt⟩ := hn
  have hrot : (Keccak.theta A x y).rotateLeft (Keccak.offset x y % 64) = _ :=
    BitVec.rotateLeft_mod_eq_rotateLeft
  rw [toBitVec_rol _ h0 hlt, UInt64.toBitVec_xor, hv, hd, Keccak.rho, ← hrot, hoff, Keccak.theta]

/-- From one set of variables to the other is one round. -/
theorem lanes_thetaRhoPiChiIota (c : UInt64) (a : Lanes) :
    lanes (copyToState (thetaRhoPiChiIota c a)) =
      Keccak.round c.toBitVec (lanes (copyToState a)) := by
  let A := lanes (copyToState a)
  let B := Keccak.pi (Keccak.rho (Keccak.theta A))
  let bca := a.ba ^^^ a.ga ^^^ a.ka ^^^ a.ma ^^^ a.sa
  let bce := a.be ^^^ a.ge ^^^ a.ke ^^^ a.me ^^^ a.se
  let bci := a.bi ^^^ a.gi ^^^ a.ki ^^^ a.mi ^^^ a.si
  let bco := a.bo ^^^ a.go ^^^ a.ko ^^^ a.mo ^^^ a.so
  let bcu := a.bu ^^^ a.gu ^^^ a.ku ^^^ a.mu ^^^ a.su
  have hD {u v : UInt64} (x : Fin 5) (hu : u.toBitVec = Keccak.parity A (x - 1))
      (hv : v.toBitVec = Keccak.parity A (x + 1)) : (u ^^^ rol v 1).toBitVec =
        Keccak.parity A (x - 1) ^^^ (Keccak.parity A (x + 1)).rotateLeft 1 := by
    rw [UInt64.toBitVec_xor, hu, ← hv]
    exact congrArg (_ ^^^ ·) (toBitVec_rol v (n := 1) (by decide) (by decide))
  have hda : (bcu ^^^ rol bce 1).toBitVec = _ := hD 0 rfl rfl
  have hde : (bca ^^^ rol bci 1).toBitVec = _ := hD 1 rfl rfl
  have hdi : (bce ^^^ rol bco 1).toBitVec = _ := hD 2 rfl rfl
  have hdo : (bci ^^^ rol bcu 1).toBitVec = _ := hD 3 rfl rfl
  have hdu : (bco ^^^ rol bca 1).toBitVec = _ := hD 4 rfl rfl
  have h00 : (a.ba ^^^ (bcu ^^^ rol bce 1)).toBitVec = B 0 0 := by
    rw [UInt64.toBitVec_xor, hda]
    exact (rotateLeft_zero _).symm
  have h10 : _ = B 1 0 := toBitVec_lane 1 1 44 (by decide) (v := a.ge) rfl hde
  have h20 : _ = B 2 0 := toBitVec_lane 2 2 43 (by decide) (v := a.ki) rfl hdi
  have h30 : _ = B 3 0 := toBitVec_lane 3 3 21 (by decide) (v := a.mo) rfl hdo
  have h40 : _ = B 4 0 := toBitVec_lane 4 4 14 (by decide) (v := a.su) rfl hdu
  have h01 : _ = B 0 1 := toBitVec_lane 3 0 28 (by decide) (v := a.bo) rfl hdo
  have h11 : _ = B 1 1 := toBitVec_lane 4 1 20 (by decide) (v := a.gu) rfl hdu
  have h21 : _ = B 2 1 := toBitVec_lane 0 2 3 (by decide) (v := a.ka) rfl hda
  have h31 : _ = B 3 1 := toBitVec_lane 1 3 45 (by decide) (v := a.me) rfl hde
  have h41 : _ = B 4 1 := toBitVec_lane 2 4 61 (by decide) (v := a.si) rfl hdi
  have h02 : _ = B 0 2 := toBitVec_lane 1 0 1 (by decide) (v := a.be) rfl hde
  have h12 : _ = B 1 2 := toBitVec_lane 2 1 6 (by decide) (v := a.gi) rfl hdi
  have h22 : _ = B 2 2 := toBitVec_lane 3 2 25 (by decide) (v := a.ko) rfl hdo
  have h32 : _ = B 3 2 := toBitVec_lane 4 3 8 (by decide) (v := a.mu) rfl hdu
  have h42 : _ = B 4 2 := toBitVec_lane 0 4 18 (by decide) (v := a.sa) rfl hda
  have h03 : _ = B 0 3 := toBitVec_lane 4 0 27 (by decide) (v := a.bu) rfl hdu
  have h13 : _ = B 1 3 := toBitVec_lane 0 1 36 (by decide) (v := a.ga) rfl hda
  have h23 : _ = B 2 3 := toBitVec_lane 1 2 10 (by decide) (v := a.ke) rfl hde
  have h33 : _ = B 3 3 := toBitVec_lane 2 3 15 (by decide) (v := a.mi) rfl hdi
  have h43 : _ = B 4 3 := toBitVec_lane 3 4 56 (by decide) (v := a.so) rfl hdo
  have h04 : _ = B 0 4 := toBitVec_lane 2 0 62 (by decide) (v := a.bi) rfl hdi
  have h14 : _ = B 1 4 := toBitVec_lane 3 1 55 (by decide) (v := a.go) rfl hdo
  have h24 : _ = B 2 4 := toBitVec_lane 4 2 39 (by decide) (v := a.ku) rfl hdu
  have h34 : _ = B 3 4 := toBitVec_lane 0 3 41 (by decide) (v := a.ma) rfl hda
  have h44 : _ = B 4 4 := toBitVec_lane 1 4 2 (by decide) (v := a.se) rfl hde
  have hrow0 := getD_chiRow (b := fun x ↦ B x 0) h00 h10 h20 h30 h40
  have hrow1 := getD_chiRow (b := fun x ↦ B x 1) h01 h11 h21 h31 h41
  have hrow2 := getD_chiRow (b := fun x ↦ B x 2) h02 h12 h22 h32 h42
  have hrow3 := getD_chiRow (b := fun x ↦ B x 3) h03 h13 h23 h33 h43
  have hrow4 := getD_chiRow (b := fun x ↦ B x 4) h04 h14 h24 h34 h44
  let da := bcu ^^^ rol bce 1
  let de := bca ^^^ rol bci 1
  let di := bce ^^^ rol bco 1
  let d0 := bci ^^^ rol bcu 1
  let du := bco ^^^ rol bca 1
  let row0 := chiRow (a.ba ^^^ da) (rol (a.ge ^^^ de) 44) (rol (a.ki ^^^ di) 43)
    (rol (a.mo ^^^ d0) 21) (rol (a.su ^^^ du) 14)
  let row1 := chiRow (rol (a.bo ^^^ d0) 28) (rol (a.gu ^^^ du) 20) (rol (a.ka ^^^ da) 3)
    (rol (a.me ^^^ de) 45) (rol (a.si ^^^ di) 61)
  let row2 := chiRow (rol (a.be ^^^ de) 1) (rol (a.gi ^^^ di) 6) (rol (a.ko ^^^ d0) 25)
    (rol (a.mu ^^^ du) 8) (rol (a.sa ^^^ da) 18)
  let row3 := chiRow (rol (a.bu ^^^ du) 27) (rol (a.ga ^^^ da) 36) (rol (a.ke ^^^ de) 10)
    (rol (a.mi ^^^ di) 15) (rol (a.so ^^^ d0) 56)
  let row4 := chiRow (rol (a.bi ^^^ di) 62) (rol (a.go ^^^ d0) 55) (rol (a.ku ^^^ du) 39)
    (rol (a.ma ^^^ da) 41) (rol (a.se ^^^ de) 2)
  let rows := [row0.modify 0 (· ^^^ c), row1, row2, row3, row4]
  have hstate : copyToState (thetaRhoPiChiIota c a) = rows.flatten := rfl
  have hlen : ∀ row ∈ rows, row.length = 5 :=
    List.forall_iff_forall_mem.mp ⟨rfl, rfl, rfl, rfl, rfl⟩
  funext x y
  have hget : lanes (copyToState (thetaRhoPiChiIota c a)) x y =
      ((rows.getD y.val []).getD x.val 0).toBitVec := by
    rw [lanes, hstate, getD_flatten_rows hlen y.val x.isLt]
  rw [hget]
  fin_cases y
  · by_cases hx : x = 0
    · rw [hx]
      exact (congrArg (· ^^^ c.toBitVec) (hrow0 0)).trans Keccak.round_zero.symm
    · have hfirst : (row0.modify 0 (· ^^^ c)).getD x.val 0 = row0.getD x.val 0 := by
        obtain ⟨k, hk⟩ := Nat.exists_eq_succ_of_ne_zero fun h ↦ hx (Fin.ext h)
        rw [hk]
        rfl
      exact ((congrArg UInt64.toBitVec hfirst).trans (hrow0 x)).trans
        (Keccak.round_of_ne fun h ↦ hx h.1).symm
  · exact (hrow1 x).trans (Keccak.round_of_ne fun h ↦ absurd h.2 (by decide)).symm
  · exact (hrow2 x).trans (Keccak.round_of_ne fun h ↦ absurd h.2 (by decide)).symm
  · exact (hrow3 x).trans (Keccak.round_of_ne fun h ↦ absurd h.2 (by decide)).symm
  · exact (hrow4 x).trans (Keccak.round_of_ne fun h ↦ absurd h.2 (by decide)).symm

theorem lanes_copy (s : List UInt64) : lanes (copyToState (copyFromState s)) = lanes s := by
  funext x y
  fin_cases y <;> fin_cases x <;> rfl

theorem toBitVec_roundConstant : ∀ r < 24, (keccakFRoundConstants.getD r 0).toBitVec =
    BitVec.ofNat 64 (Keccak.constant r) := by decide

/-- The permutation is 24 rounds of the step mappings. The loop does two of them at a time, from one
set of variables to the other and back. -/
theorem keccakF1600_rounds (state : List UInt64) :
    lanes (keccakF1600StatePermute state) = Keccak.rounds 24 (lanes state) := by
  have hrun : ∀ n ≤ 12, lanes (copyToState ((List.range n).foldl (fun a i ↦
      thetaRhoPiChiIota (keccakFRoundConstants.getD (2 * i + 1) 0)
        (thetaRhoPiChiIota (keccakFRoundConstants.getD (2 * i) 0) a)) (copyFromState state))) =
          Keccak.rounds (2 * n) (lanes state) := by
    intro n hn
    induction n with
    | zero => exact lanes_copy state
    | succ n ih =>
      have htwo : 2 * (n + 1) = 2 * n + 1 + 1 := rfl
      rw [List.range_succ, List.foldl_concat, lanes_thetaRhoPiChiIota, lanes_thetaRhoPiChiIota,
        ih (by omega), toBitVec_roundConstant _ (by omega), toBitVec_roundConstant _ (by omega),
        htwo, Keccak.rounds_succ, Keccak.rounds_succ]
  exact hrun 12 (Nat.le_refl 12)

example : (keccakF1600StatePermute (List.replicate 25 0)).getD 0 0 = 0xF1258F7940E1DDE7 := by
  decide +kernel

end KemtlsMavlink.Hqc
