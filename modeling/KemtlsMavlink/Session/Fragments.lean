import KemtlsMavlink.Library.Flags
import KemtlsMavlink.Library.Window
import KemtlsMavlink.Session.PkChunk
import Mathlib.Data.Nat.Basic

namespace KemtlsMavlink

open Library

namespace HqcRxBuf

variable {rx : HqcRxBuf} {m : PkChunk}

def Received (rx : HqcRxBuf) (i : Nat) : Prop := rx.pkeAcked.getD i false = true

instance (rx : HqcRxBuf) (i : Nat) : Decidable (rx.Received i) :=
  inferInstanceAs (Decidable (_ = _))

/-- The invariant of the reassembly: the vector is empty or has one entry a
fragment, and every fragment that starts below `pke_rcvd` has been received. -/
structure Fragments (rx : HqcRxBuf) : Prop where
  mtu_pos : 0 < rx.mtu
  length : rx.pkeAcked = [] ∨ rx.pkeAcked.length = rx.pkChunks
  rcvd_le : rx.pkeRcvd ≤ rx.pkLen
  received : ∀ i, i * rx.mtu < rx.pkeRcvd → rx.Received i

theorem pkeAcks_getD (i : Nat) : rx.pkeAcks.getD i false = rx.pkeAcked.getD i false := by
  unfold pkeAcks
  split_ifs with h
  · rw [List.isEmpty_iff.mp h, getD_replicate_false]
    rfl
  · rfl

theorem Fragments.length_pkeAcks (h : rx.Fragments) : rx.pkeAcks.length = rx.pkChunks := by
  unfold pkeAcks
  split_ifs with he
  · exact List.length_replicate
  · exact h.length.resolve_left fun hn ↦ he (List.isEmpty_iff.mpr hn)

theorem storeFragment_of_received (h : rx.Received (rx.fragIdx m)) :
    rx.storeFragment m = ({ rx with pkeAcked := rx.pkeAcks }, []) := by
  have ha : rx.pkeAcks.getD (rx.fragIdx m) false = true := (pkeAcks_getD _).trans h
  simp only [storeFragment, ha, Bool.not_true, Bool.false_eq_true, if_false]

theorem storeFragment_of_not_received (h : ¬ rx.Received (rx.fragIdx m)) :
    rx.storeFragment m =
      ({ rx with
          pke := rx.pke.map fun b ↦ b.write m.offset.toNat (m.data.toList.take m.count.toNat)
          pkeAcked := rx.pkeAcks.set (rx.fragIdx m) true },
        [.pkeCopy m.offset.toNat (m.data.toList.take m.count.toNat)]) := by
  have ha : rx.pkeAcks.getD (rx.fragIdx m) false = false :=
    (pkeAcks_getD _).trans (Bool.not_eq_true _ ▸ h)
  simp only [storeFragment, ha, Bool.not_false, if_true]

theorem forall_stored_effect {Q : Effect → Prop} (hcopy : ∀ offset data, Q (.pkeCopy offset data))
    {sid : UInt64} {base : Nat} {mask : UInt32} (hack : Q (.pkAck sid base mask)) (rx : HqcRxBuf)
    (m : PkChunk) : ∀ o ∈ (rx.storeFragment m).2 ++ [.pkAck sid base mask], Q o := by
  refine List.forall_mem_append.mpr ⟨?_, List.forall_mem_singleton.mpr hack⟩
  by_cases h : rx.Received (rx.fragIdx m)
  · rw [storeFragment_of_received h]
    exact List.forall_mem_nil _
  · rw [storeFragment_of_not_received h]
    exact List.forall_mem_singleton.mpr (hcopy _ _)

theorem afterChunk_eq (rx : HqcRxBuf) (m : PkChunk) :
    ∃ pke acked rcvd,
      rx.afterChunk m = { rx with pke := pke, pkeAcked := acked, pkeRcvd := rcvd } := by
  unfold afterChunk advanceBase
  by_cases h : rx.Received (rx.fragIdx m)
  · rw [storeFragment_of_received h]
    exact ⟨_, _, _, rfl⟩
  · rw [storeFragment_of_not_received h]
    exact ⟨_, _, _, rfl⟩

section Frame

variable (rx m)

@[simp] theorem afterChunk_sessionId : (rx.afterChunk m).sessionId = rx.sessionId := by
  obtain ⟨_, _, _, h⟩ := afterChunk_eq rx m; rw [h]

@[simp] theorem afterChunk_pkLen : (rx.afterChunk m).pkLen = rx.pkLen := by
  obtain ⟨_, _, _, h⟩ := afterChunk_eq rx m; rw [h]

@[simp] theorem afterChunk_mtu : (rx.afterChunk m).mtu = rx.mtu := by
  obtain ⟨_, _, _, h⟩ := afterChunk_eq rx m; rw [h]

@[simp] theorem afterChunk_pkChunks : (rx.afterChunk m).pkChunks = rx.pkChunks := by
  simp [pkChunks]

@[simp] theorem afterChunk_salt : (rx.afterChunk m).salt = rx.salt := by
  obtain ⟨_, _, _, h⟩ := afterChunk_eq rx m; rw [h]

@[simp] theorem afterChunk_cte : (rx.afterChunk m).cte = rx.cte := by
  obtain ⟨_, _, _, h⟩ := afterChunk_eq rx m; rw [h]

@[simp] theorem afterChunk_cts : (rx.afterChunk m).cts = rx.cts := by
  obtain ⟨_, _, _, h⟩ := afterChunk_eq rx m; rw [h]

@[simp] theorem afterChunk_stream (kind : UInt8) :
    (rx.afterChunk m).stream kind = rx.stream kind :=
  stream_rel (afterChunk_cte rx m) (afterChunk_cts rx m) kind

@[simp] theorem afterChunk_window : (rx.afterChunk m).window = rx.window := by
  obtain ⟨_, _, _, h⟩ := afterChunk_eq rx m; rw [h]

@[simp] theorem afterChunk_rs : (rx.afterChunk m).rs = rx.rs := by
  obtain ⟨_, _, _, h⟩ := afterChunk_eq rx m; rw [h]

end Frame

theorem afterChunk_pke_of_received (h : rx.Received (rx.fragIdx m)) :
    (rx.afterChunk m).pke = rx.pke := by
  unfold afterChunk advanceBase
  rw [storeFragment_of_received h]

theorem afterChunk_pke_of_not_received (h : ¬ rx.Received (rx.fragIdx m)) :
    (rx.afterChunk m).pke =
      rx.pke.map fun b ↦ b.write m.offset.toNat (m.data.toList.take m.count.toNat) := by
  unfold afterChunk advanceBase
  rw [storeFragment_of_not_received h]

theorem received_afterChunk (h : rx.Fragments) (ha : ChunkAccepted rx m) (i : Nat) :
    (rx.afterChunk m).Received i ↔ i = rx.fragIdx m ∨ rx.Received i := by
  change (rx.storeFragment m).1.pkeAcked.getD i false = true ↔ _
  by_cases hr : rx.Received (rx.fragIdx m)
  · rw [storeFragment_of_received hr]
    change rx.pkeAcks.getD i false = true ↔ _
    rw [pkeAcks_getD]
    exact ⟨.inr, fun hi ↦ hi.elim (fun hi ↦ hi ▸ hr) id⟩
  · rw [storeFragment_of_not_received hr]
    change (rx.pkeAcks.set (rx.fragIdx m) true).getD i false = true ↔ _
    have hl : rx.fragIdx m < rx.pkeAcks.length := h.length_pkeAcks ▸ ha.frag_lt
    rw [getD_set_true, pkeAcks_getD]
    constructor
    · rintro (hi | ⟨-, rfl⟩)
      · exact .inr hi
      · exact .inl rfl
    · rintro (rfl | hi)
      · exact .inr ⟨hl, rfl⟩
      · exact .inl hi

theorem length_afterChunk (h : rx.Fragments) (m : PkChunk) :
    (rx.afterChunk m).pkeAcked.length = rx.pkChunks := by
  change (rx.storeFragment m).1.pkeAcked.length = _
  by_cases hr : rx.Received (rx.fragIdx m)
  · rw [storeFragment_of_received hr]
    exact h.length_pkeAcks
  · rw [storeFragment_of_not_received hr]
    exact List.length_set.trans h.length_pkeAcks

theorem scanAcked_spec (acked : List Bool) (left base : Nat) :
    base ≤ scanAcked acked left base ∧ scanAcked acked left base ≤ base + left ∧
      (∀ i, base ≤ i → i < scanAcked acked left base → acked.getD i false = true) ∧
      (scanAcked acked left base = base + left ∨
        acked.getD (scanAcked acked left base) false = false) := by
  induction left generalizing base with
  | zero => exact ⟨le_rfl, le_rfl, fun i h₁ h₂ ↦ absurd h₂ (Nat.not_lt.mpr h₁), .inl rfl⟩
  | succ left ih =>
    unfold scanAcked
    split_ifs with hb
    · obtain ⟨h₁, h₂, h₃, h₄⟩ := ih (base + 1)
      refine ⟨by omega, by omega, fun i hi hlt ↦ ?_, h₄.imp_left (by omega)⟩
      rcases Nat.eq_or_lt_of_le hi with rfl | hi
      · exact hb
      · exact h₃ i hi hlt
    · exact ⟨le_rfl, by omega, fun i h₁ h₂ ↦ absurd h₂ (Nat.not_lt.mpr h₁),
        .inr (Bool.not_eq_true _ ▸ hb)⟩

theorem lt_pkChunks_iff (h : rx.Fragments) (i : Nat) : i < rx.pkChunks ↔ i * rx.mtu < rx.pkLen :=
  lt_fragments h.mtu_pos

theorem baseFrag_spec (h : rx.Fragments) :
    (∀ i < rx.baseFrag, rx.Received i) ∧
      (rx.pkChunks ≤ rx.baseFrag ∨ ¬ rx.Received rx.baseFrag) := by
  have hm := h.mtu_pos
  have hstart : rx.pkeRcvd / rx.mtu ≤ rx.pkChunks := by
    have := h.rcvd_le
    exact Nat.div_le_div_right (by omega)
  obtain ⟨-, -, h₃, h₄⟩ :=
    scanAcked_spec rx.pkeAcked (rx.pkChunks - rx.pkeRcvd / rx.mtu) (rx.pkeRcvd / rx.mtu)
  refine ⟨fun i hi ↦ ?_, ?_⟩
  · rcases Nat.lt_or_ge i (rx.pkeRcvd / rx.mtu) with hlt | hge
    · have := (Nat.le_div_iff_mul_le hm).mp hlt
      rw [Nat.succ_mul] at this
      exact h.received i (by omega)
    · exact h₃ i hge hi
  · rcases h₄ with he | he
    · left
      apply Nat.le_of_eq
      change _ = scanAcked _ _ _
      omega
    · exact .inr ((Bool.not_eq_true _).mpr he)

theorem Fragments.storeFragment (h : rx.Fragments) (ha : ChunkAccepted rx m) :
    (rx.storeFragment m).1.Fragments := by
  have hr : ∀ i, rx.Received i → (rx.storeFragment m).1.Received i := fun i hi ↦
    (received_afterChunk h ha i).mpr (.inr hi)
  have hl : (rx.storeFragment m).1.pkeAcked.length = rx.pkChunks := length_afterChunk h m
  obtain ⟨hm, hk, hn⟩ : (rx.storeFragment m).1.mtu = rx.mtu ∧
      (rx.storeFragment m).1.pkLen = rx.pkLen ∧ (rx.storeFragment m).1.pkeRcvd = rx.pkeRcvd := by
    by_cases hr : rx.Received (rx.fragIdx m)
    · rw [storeFragment_of_received hr]
      exact ⟨rfl, rfl, rfl⟩
    · rw [storeFragment_of_not_received hr]
      exact ⟨rfl, rfl, rfl⟩
  refine ⟨hm ▸ h.mtu_pos, .inr ?_, by rw [hn, hk]; exact h.rcvd_le, fun i hi ↦ ?_⟩
  · rw [hl, pkChunks, pkChunks, hm, hk]
  · rw [hm, hn] at hi
    exact hr i (h.received i hi)

theorem Fragments.advanceBase (h : rx.Fragments) : rx.advanceBase.Fragments := by
  refine ⟨h.mtu_pos, h.length, Nat.min_le_right _ _, fun i hi ↦ ?_⟩
  have hb : i * rx.mtu < rx.baseFrag * rx.mtu := (Nat.lt_min.mp hi).1
  exact (baseFrag_spec h).1 i (Nat.lt_of_mul_lt_mul_right hb)

theorem Fragments.afterChunk (h : rx.Fragments) (ha : ChunkAccepted rx m) :
    (rx.afterChunk m).Fragments := (h.storeFragment ha).advanceBase

theorem Fragments.received_of_complete (h : rx.Fragments) (hk : rx.KeyComplete) {i : Nat}
    (hi : i < rx.pkChunks) : rx.Received i :=
  h.received i (Nat.lt_of_lt_of_le ((lt_pkChunks_iff h i).mp hi) hk)

theorem advanceBase_keyComplete (h : rx.Fragments) (hr : ∀ i < rx.pkChunks, rx.Received i) :
    rx.advanceBase.KeyComplete := by
  have hb : rx.pkChunks ≤ rx.baseFrag := by
    by_contra hn
    exact (baseFrag_spec h).2.elim hn fun hb ↦ hb (hr _ (Nat.lt_of_not_le hn))
  have hlen : ¬ rx.baseFrag * rx.mtu < rx.pkLen := fun hlt ↦
    Nat.not_le_of_lt ((lt_pkChunks_iff h _).mpr hlt) hb
  exact Nat.le_min.mpr ⟨Nat.le_of_not_lt hlen, le_rfl⟩

theorem keyComplete_afterChunk (h : rx.Fragments) (ha : ChunkAccepted rx m) :
    (rx.afterChunk m).KeyComplete ↔ ∀ i < rx.pkChunks, i = rx.fragIdx m ∨ rx.Received i := by
  constructor
  · intro hk i hi
    rw [← received_afterChunk h ha]
    exact (h.afterChunk ha).received_of_complete hk (by rwa [afterChunk_pkChunks])
  · intro hr
    apply advanceBase_keyComplete (h.storeFragment ha)
    intro i hi
    exact (received_afterChunk h ha i).mpr (hr i (afterChunk_pkChunks rx m ▸ hi))

theorem KeyComplete.afterChunk (hk : rx.KeyComplete) (h : rx.Fragments) (ha : ChunkAccepted rx m) :
    (rx.afterChunk m).KeyComplete :=
  (keyComplete_afterChunk h ha).mpr fun _ hi ↦ .inr (h.received_of_complete hk hi)

end HqcRxBuf

end KemtlsMavlink
