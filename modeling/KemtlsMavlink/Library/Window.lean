import Mathlib.Data.List.Perm.Subperm
import Mathlib.Data.List.Range
import Mathlib.Data.Nat.Basic

namespace KemtlsMavlink.Library

/-! Elements that are sent in fragments of `mtu`, the last of which can be shorter. -/

variable {mtu len : Nat}

def fragments (mtu len : Nat) : Nat := (len + mtu - 1) / mtu

theorem lt_fragments (hm : 0 < mtu) {i : Nat} : i < fragments mtu len ↔ i * mtu < len := by
  unfold fragments
  rw [Nat.lt_iff_add_one_le, Nat.le_div_iff_mul_le hm, Nat.add_one_mul]
  omega

theorem fragments_le_div_iff (hm : 0 < mtu) : fragments mtu len ≤ len / mtu ↔ mtu ∣ len := by
  rw [← Nat.not_lt, lt_fragments hm, Nat.not_lt]
  constructor
  · exact fun h ↦ ⟨len / mtu, by rw [Nat.mul_comm]; exact h.antisymm (Nat.div_mul_le_self len mtu)⟩
  · exact fun h ↦ Nat.le_of_eq (Nat.div_mul_cancel h).symm

def cut (mtu len k : Nat) : Nat := min (k * mtu) len

theorem cut_zero : cut mtu len 0 = 0 := by
  rw [cut, Nat.zero_mul, Nat.zero_min]

theorem cut_le (k : Nat) : cut mtu len k ≤ len := Nat.min_le_right _ _

theorem cut_of_lt {k : Nat} (h : k * mtu < len) : cut mtu len k = k * mtu :=
  Nat.min_eq_left (Nat.le_of_lt h)

theorem cut_succ {k : Nat} (h : k * mtu < len) :
    k * mtu + min mtu (len - k * mtu) = cut mtu len (k + 1) := by
  rw [cut, Nat.add_one_mul]
  omega

theorem cut_lt_iff (hm : 0 < mtu) {k : Nat} : cut mtu len k < len ↔ k < fragments mtu len := by
  rw [lt_fragments hm, cut]
  omega

theorem mul_lt_cut (hm : 0 < mtu) {i k : Nat} :
    i * mtu < cut mtu len k ↔ i < k ∧ i * mtu < len := by
  rw [cut, Nat.lt_min, Nat.mul_lt_mul_right hm]

theorem cut_mono {j k : Nat} (h : j ≤ k) : cut mtu len j ≤ cut mtu len k := by
  have := Nat.mul_le_mul_right mtu h
  unfold cut
  omega

def Aligned (mtu len sent : Nat) : Prop := ∃ k, sent = cut mtu len k

theorem aligned_zero : Aligned mtu len 0 := ⟨0, cut_zero.symm⟩

theorem Aligned.le_and {sent : Nat} (h : Aligned mtu len sent) :
    sent ≤ len ∧ (sent = len ∨ mtu ∣ sent) := by
  obtain ⟨k, rfl⟩ := h
  refine ⟨cut_le k, ?_⟩
  rcases Nat.lt_or_ge (k * mtu) len with h | h
  · rw [cut_of_lt h]
    exact .inr (Nat.dvd_mul_left mtu k)
  · exact .inl (Nat.min_eq_right h)

theorem countP_range_le {n : Nat} {p q : Nat → Bool} {l : List Nat}
    (h : ∀ i < n, q i = true → p i = true ∨ i ∈ l) :
    (List.range n).countP q ≤ (List.range n).countP p + l.length := by
  have hsub : (List.range n).filter q ⊆ (List.range n).filter p ++ l := by
    intro i hi
    obtain ⟨hin, hq⟩ := List.mem_filter.mp hi
    rcases h i (List.mem_range.mp hin) hq with hp | hl
    · exact List.mem_append_left _ (List.mem_filter.mpr ⟨hin, hp⟩)
    · exact List.mem_append_right _ hl
  have hle := (List.Nodup.subperm (List.nodup_range.filter q) hsub).length_le
  rw [List.length_append] at hle
  rwa [List.countP_eq_length_filter, List.countP_eq_length_filter]

end KemtlsMavlink.Library
