import KemtlsMavlink.Library.CrcBurst
import Mathlib.Algebra.Field.ZMod
import Mathlib.Algebra.Polynomial.Div
import Mathlib.Tactic.Ring

namespace KemtlsMavlink.Library.Crc

open Polynomial

/-! A register holds a polynomial over the field with two elements, the highest power in its
least significant bit, and feeding it a message divides with remainder. -/

variable {w k : Nat} (p : BitVec w)

noncomputable def bit (b : Bool) : (ZMod 2)[X] := if b then 1 else 0

noncomputable def poly (r : BitVec w) : (ZMod 2)[X] :=
  ∑ i ∈ Finset.range w, bit (r.getLsbD i) * X ^ (w - 1 - i)

noncomputable def generator : (ZMod 2)[X] := X ^ w + poly p

noncomputable def message (bs : List Bool) : (ZMod 2)[X] := bs.foldl (fun m b ↦ X * m + bit b) 0

variable {p}

theorem bit_xor (b c : Bool) : bit (b ^^ c) = bit b + bit c := by
  cases b <;> cases c <;> simp [bit, CharTwo.add_self_eq_zero]

theorem poly_xor (r s : BitVec w) : poly (r ^^^ s) = poly r + poly s := by
  simp only [poly, BitVec.getLsbD_xor, bit_xor, add_mul, Finset.sum_add_distrib]

theorem degree_poly_lt (r : BitVec w) : (poly r).degree < w := by
  apply (degree_sum_le _ _).trans_lt
  apply (Finset.sup_lt_iff (WithBot.bot_lt_coe w)).mpr
  intro i hi
  have hlt : w - 1 - i < w := by
    have hi := Finset.mem_range.mp hi
    omega
  cases r.getLsbD i with
  | false => simp [bit]
  | true =>
    rw [bit, if_pos rfl, one_mul, degree_X_pow, Nat.cast_withBot]
    exact WithBot.coe_lt_coe.mpr hlt

theorem generator_monic (p : BitVec w) : (generator p).Monic :=
  monic_X_pow_add (degree_poly_lt p)

theorem degree_generator (p : BitVec w) : (generator p).degree = w := by
  rw [generator, degree_add_eq_left_of_degree_lt, degree_X_pow]
  rw [degree_X_pow]
  exact degree_poly_lt p

theorem X_mul_poly (r : BitVec w) (hw : 0 < w) :
    X * poly r = bit (r.getLsbD 0) * X ^ w + poly (r >>> 1) := by
  obtain ⟨w, rfl⟩ := Nat.exists_eq_add_one_of_ne_zero hw.ne'
  have hlast : (r >>> 1).getLsbD w = false := by
    simp
  rw [poly, poly, Finset.sum_range_succ', Finset.sum_range_succ, hlast, mul_add, add_comm,
    Finset.mul_sum]
  congr 1
  · rw [Nat.add_sub_cancel, Nat.sub_zero, pow_succ]
    ring
  · have hz : bit false * X ^ (w + 1 - 1 - w) = 0 := by simp [bit]
    rw [hz, add_zero]
    apply Finset.sum_congr rfl
    intro i hi
    have hi := Finset.mem_range.mp hi
    have he : w + 1 - 1 - i = w + 1 - 1 - (i + 1) + 1 := by omega
    rw [BitVec.getLsbD_ushiftRight, Nat.add_comm 1 i, he, pow_succ]
    ring

theorem X_mul_poly_eq (r : BitVec w) (hw : 0 < w) :
    X * poly r = generator p * bit (r.getLsbD 0) + poly (shift p r) := by
  rw [X_mul_poly r hw, generator, shift]
  cases r.getLsbD 0 with
  | false => simp [bit]
  | true =>
    rw [if_pos rfl, poly_xor, bit, if_pos rfl, mul_one, one_mul]
    calc X ^ w + poly (r >>> 1) = X ^ w + poly (r >>> 1) + (poly p + poly p) := by
          rw [CharTwo.add_self_eq_zero, add_zero]
      _ = X ^ w + poly p + (poly (r >>> 1) + poly p) := by ring

theorem poly_feed (r : BitVec w) (b : Bool) (hw : 0 < w) :
    ∃ q, X * poly r + X ^ w * bit b = generator p * q + poly (feed p r b) := by
  have hb : X * poly (bif b then BitVec.twoPow w 0 else 0) = X ^ w * bit b := by
    obtain ⟨w, rfl⟩ := Nat.exists_eq_add_one_of_ne_zero hw.ne'
    cases b with
    | false => simp [poly, bit]
    | true =>
      rw [cond_true, poly, Finset.sum_eq_single 0]
      · simp [bit, pow_succ']
      · intro i _ hi
        simp [bit, BitVec.getLsbD_twoPow, hi.symm]
      · simp
  rw [← hb, ← mul_add, ← poly_xor, feed_eq r b hw]
  exact ⟨_, X_mul_poly_eq _ hw⟩

theorem foldl_message (m : (ZMod 2)[X]) (bs : List Bool) :
    bs.foldl (fun m b ↦ X * m + bit b) m = X ^ bs.length * m + message bs := by
  induction bs generalizing m with
  | nil => simp [message]
  | cons b bs ih =>
    rw [message, List.foldl_cons, List.foldl_cons, ih, ih (X * 0 + bit b), List.length_cons,
      pow_succ]
    ring

theorem message_cons (b : Bool) (bs : List Bool) :
    message (b :: bs) = X ^ bs.length * bit b + message bs := by
  rw [message, List.foldl_cons, foldl_message, mul_zero, zero_add]

theorem poly_foldl_feed (r : BitVec w) (bs : List Bool) (hw : 0 < w) :
    ∃ q, X ^ bs.length * poly r + X ^ w * message bs =
      generator p * q + poly (bs.foldl (feed p) r) := by
  induction bs generalizing r with
  | nil => exact ⟨0, by simp [message]⟩
  | cons b bs ih =>
    obtain ⟨q, hq⟩ := poly_feed (p := p) r b hw
    obtain ⟨q', hq'⟩ := ih (feed p r b)
    refine ⟨X ^ bs.length * q + q', ?_⟩
    calc X ^ (b :: bs).length * poly r + X ^ w * message (b :: bs)
        = X ^ bs.length * (X * poly r + X ^ w * bit b) + X ^ w * message bs := by
          rw [message_cons, List.length_cons, pow_succ]
          ring
      _ = X ^ bs.length * (generator p * q) +
            (X ^ bs.length * poly (feed p r b) + X ^ w * message bs) := by
          rw [hq]
          ring
      _ = generator p * (X ^ bs.length * q + q') + poly ((b :: bs).foldl (feed p) r) := by
          rw [hq', List.foldl_cons]
          ring

/-- The register after a message is a remainder. -/
theorem poly_register (r : BitVec w) (msg : List (BitVec k)) (hw : 0 < w) :
    poly (register p r msg) =
      (X ^ (k * msg.length) * poly r + X ^ w * message (msg.flatMap bits)) %ₘ generator p := by
  obtain ⟨q, hq⟩ := poly_foldl_feed (p := p) r (msg.flatMap bits) hw
  rw [length_flatMap_bits, add_comm (generator p * q)] at hq
  refine ((div_modByMonic_unique q _ (generator_monic p) ⟨hq.symm, ?_⟩).2).symm
  rw [degree_generator]
  exact degree_poly_lt _

end KemtlsMavlink.Library.Crc
