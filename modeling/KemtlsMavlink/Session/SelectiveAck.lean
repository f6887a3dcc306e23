import KemtlsMavlink.Library.Mask
import KemtlsMavlink.Session.Fragments
import KemtlsMavlink.Session.Transmit

namespace KemtlsMavlink

open Library

namespace HqcRxBuf

variable {rx : HqcRxBuf}

/-- The base and the mask of the `PK_ACK` that the received-fragment vector gives. -/
def sack (rx : HqcRxBuf) : Nat × UInt32 := (rx.advanceBase.pkeRcvd, rx.sackMask rx.baseFrag)

def ackedPrefix (rx : HqcRxBuf) : Nat := (rx.pkeAcked.takeWhile id).length

theorem lt_ackedPrefix (i : Nat) : i < rx.ackedPrefix ↔ ∀ j ≤ i, rx.Received j := by
  unfold ackedPrefix Received
  generalize rx.pkeAcked = l
  induction l generalizing i with
  | nil =>
    refine ⟨fun h ↦ absurd h (Nat.not_lt_zero i), fun h ↦ ?_⟩
    simpa using h 0 (Nat.zero_le i)
  | cons b l ih =>
    cases b with
    | false =>
      refine ⟨fun h ↦ absurd h (by simp), fun h ↦ ?_⟩
      simpa using h 0 (Nat.zero_le i)
    | true =>
      cases i with
      | zero => simp
      | succ i =>
        simp only [List.takeWhile_cons, id_eq, if_true, List.length_cons, Nat.succ_lt_succ_iff, ih]
        constructor
        · rintro h (_ | j) hj
          · rfl
          · exact h j (Nat.le_of_succ_le_succ hj)
        · exact fun h j hj ↦ h (j + 1) (Nat.succ_le_succ hj)

theorem baseFrag_le (h : rx.Fragments) : rx.baseFrag ≤ rx.pkChunks := by
  have hm := h.mtu_pos
  have hle := h.rcvd_le
  have hstart : rx.pkeRcvd / rx.mtu ≤ rx.pkChunks := Nat.div_le_div_right (by omega)
  have hscan := (scanAcked_spec rx.pkeAcked (rx.pkChunks - rx.pkeRcvd / rx.mtu)
    (rx.pkeRcvd / rx.mtu)).2.1
  exact hscan.trans (Nat.le_of_eq (Nat.add_sub_of_le hstart))

theorem received_lt (hl : rx.pkeAcked.length ≤ rx.pkChunks) {i : Nat} (h : rx.Received i) :
    i < rx.pkChunks := by
  by_contra hi
  rw [Received, List.getD_eq_default _ _ (hl.trans (Nat.not_lt.mp hi))] at h
  exact Bool.false_ne_true h

theorem baseFrag_eq (h : rx.Fragments) : rx.baseFrag = rx.ackedPrefix := by
  obtain ⟨hbelow, hstop⟩ := baseFrag_spec h
  have hl : rx.pkeAcked.length ≤ rx.pkChunks :=
    h.length.elim (fun he ↦ he ▸ Nat.zero_le _) Nat.le_of_eq
  apply Nat.le_antisymm
  · by_contra hlt
    have hj : ¬ ∀ j ≤ rx.ackedPrefix, rx.Received j := fun hj ↦
      Nat.lt_irrefl _ ((lt_ackedPrefix _).mpr hj)
    exact hj fun j hj ↦ hbelow j (by omega)
  · by_contra hlt
    have hr := (lt_ackedPrefix rx.baseFrag).mp (Nat.not_le.mp hlt) _ le_rfl
    exact hstop.elim (fun hc ↦ Nat.not_lt.mpr hc (received_lt hl hr)) fun hn ↦ hn hr

theorem sackMask_bit {j : Nat} (hj : j < 32) (base : Nat) :
    (rx.sackMask base >>> UInt32.ofNat j) &&& 1 = 1 ↔
      base + j < rx.pkChunks ∧ rx.Received (base + j) := by
  rw [shiftRight_and_one32 hj, sackMask, testBit_foldl_mask _ (by simp) _ hj]
  simp [hj, Received]

def sackAck (rx : HqcRxBuf) : CtAck := ⟨rx.sessionId, 0, UInt32.ofNat rx.sack.1, rx.sack.2⟩

def unackedStream (rx : HqcRxBuf) : CtStream :=
  { len := rx.pkLen, acked := List.replicate rx.pkChunks false }

def sackDecoded (rx : HqcRxBuf) : List Bool :=
  (markedStream rx.unackedStream rx.mtu rx.sackAck).acked

/-- The decoded vector has the fragments of the acknowledged prefix, and the acknowledged
ones among the 32 that follow it. -/
def SackAgrees (rx : HqcRxBuf) : Prop :=
  rx.sackDecoded.length = rx.pkChunks ∧ ∀ i, rx.sackDecoded.getD i false = true ↔
    i < rx.ackedPrefix ∨ rx.Received i ∧ i < rx.ackedPrefix + 32

theorem sack_base (h : rx.Fragments) : rx.sack.1 = cut rx.mtu rx.pkLen rx.ackedPrefix := by
  rw [← baseFrag_eq h]
  rfl

theorem length_unackedStream :
    rx.unackedStream.acked.length = rx.unackedStream.chunks rx.mtu := List.length_replicate

theorem length_sackDecoded : rx.sackDecoded.length = rx.pkChunks := by
  rw [sackDecoded, markedStream, CtStream.sizedAcks_of_length length_unackedStream,
    length_markAcked]
  exact List.length_replicate

theorem getD_sackDecoded (h : rx.Fragments) (hl : rx.pkLen < 2 ^ 32) (i : Nat) :
    rx.sackDecoded.getD i false = true ↔ i < rx.pkChunks ∧
      (i < cut rx.mtu rx.pkLen rx.ackedPrefix / rx.mtu ∨ ∃ j < 32,
        (rx.ackedPrefix + j < rx.pkChunks ∧ rx.Received (rx.ackedPrefix + j)) ∧
          cut rx.mtu rx.pkLen rx.ackedPrefix / rx.mtu + j = i) := by
  have hbase : rx.sackAck.base.toNat = cut rx.mtu rx.pkLen rx.ackedPrefix := by
    rw [← sack_base h, sackAck, UInt32.toNat_ofNat']
    exact Nat.mod_eq_of_lt (Nat.lt_of_le_of_lt (Nat.min_le_right _ _) hl)
  have hbit : ∀ j < 32, (rx.sackAck.mask >>> UInt32.ofNat j) &&& 1 = 1 ↔
      rx.ackedPrefix + j < rx.pkChunks ∧ rx.Received (rx.ackedPrefix + j) := fun j hj ↦ by
    rw [← baseFrag_eq h]
    exact sackMask_bit hj _
  have hnone : rx.unackedStream.acked.getD i false = false := getD_replicate_false _ _
  rw [sackDecoded, markedStream, CtStream.sizedAcks_of_length length_unackedStream,
    getD_markAcked length_unackedStream, hnone, CtAck.Names, hbase]
  simp only [Bool.false_eq_true, false_or]
  refine and_congr_right fun _ ↦ or_congr_right ⟨?_, ?_⟩
  · rintro ⟨j, hj, hb, he⟩
    exact ⟨j, hj, (hbit j hj).mp hb, he⟩
  · rintro ⟨j, hj, hb, he⟩
    exact ⟨j, hj, (hbit j hj).mpr hb, he⟩

theorem sackAgrees_of_missing (h : rx.Fragments) (hl : rx.pkLen < 2 ^ 32)
    (hp : rx.ackedPrefix < rx.pkChunks) : rx.SackAgrees := by
  have hbase : cut rx.mtu rx.pkLen rx.ackedPrefix / rx.mtu = rx.ackedPrefix := by
    rw [cut_of_lt ((lt_pkChunks_iff h _).mp hp)]
    exact Nat.mul_div_cancel _ h.mtu_pos
  refine ⟨length_sackDecoded, fun i ↦ ?_⟩
  rw [getD_sackDecoded h hl, hbase]
  constructor
  · rintro ⟨hi, hlt | ⟨j, hj, ⟨-, hr⟩, rfl⟩⟩
    · exact .inl hlt
    · exact .inr ⟨hr, Nat.add_lt_add_left hj _⟩
  · rintro (hlt | ⟨hr, hlt⟩)
    · exact ⟨hlt.trans hp, .inl hlt⟩
    · have hi : i < rx.pkChunks :=
        received_lt (h.length.elim (fun he ↦ he ▸ Nat.zero_le _) Nat.le_of_eq) hr
      refine ⟨hi, ?_⟩
      by_cases hge : i < rx.ackedPrefix
      · exact .inl hge
      · have hadd : rx.ackedPrefix + (i - rx.ackedPrefix) = i := by omega
        exact .inr ⟨i - rx.ackedPrefix, by omega, by rw [hadd]; exact ⟨hi, hr⟩, hadd⟩

theorem sackAgrees_of_complete (h : rx.Fragments) (hl : rx.pkLen < 2 ^ 32)
    (hp : rx.ackedPrefix = rx.pkChunks) : rx.SackAgrees ↔ rx.mtu ∣ rx.pkLen := by
  have hm := h.mtu_pos
  have hbase : cut rx.mtu rx.pkLen rx.ackedPrefix = rx.pkLen := by
    apply Nat.le_antisymm (cut_le _)
    rw [← not_lt, cut_lt_iff hm, hp]
    exact Nat.lt_irrefl _
  have hdecoded : ∀ i, rx.sackDecoded.getD i false = true ↔
      i < rx.pkChunks ∧ i < rx.pkLen / rx.mtu := fun i ↦ by
    rw [getD_sackDecoded h hl, hbase]
    refine and_congr_right fun hi ↦ or_iff_left ?_
    rintro ⟨j, hj, ⟨hlt, -⟩, -⟩
    omega
  rw [← fragments_le_div_iff hm]
  constructor
  · rintro ⟨-, hagree⟩
    by_contra hlt
    have hlast := (hagree (rx.pkLen / rx.mtu)).mpr (.inl (hp ▸ Nat.not_le.mp hlt))
    exact Nat.lt_irrefl _ ((hdecoded _).mp hlast).2
  · intro hle
    refine ⟨length_sackDecoded, fun i ↦ ?_⟩
    rw [hdecoded, hp]
    constructor
    · exact fun hi ↦ .inl hi.1
    · rintro (hi | ⟨hr, -⟩)
      · exact ⟨hi, hi.trans_le hle⟩
      · have hi : i < rx.pkChunks :=
          received_lt (h.length.elim (fun he ↦ he ▸ Nat.zero_le _) Nat.le_of_eq) hr
        exact ⟨hi, hi.trans_le hle⟩

/-- The two codecs are inverse unless everything has been received and the last
fragment is short. -/
theorem sack_inverse_iff (rx : HqcRxBuf) (h : rx.Fragments) (hl : rx.pkLen < 2 ^ 32) :
    rx.SackAgrees ↔ (∃ i < rx.pkChunks, ¬ rx.Received i) ∨ rx.mtu ∣ rx.pkLen := by
  have hle : rx.ackedPrefix ≤ rx.pkChunks := baseFrag_eq h ▸ baseFrag_le h
  rcases Nat.lt_or_eq_of_le hle with hlt | heq
  · have hn : ¬ rx.Received rx.ackedPrefix :=
      baseFrag_eq h ▸ (baseFrag_spec h).2.resolve_left (baseFrag_eq h ▸ Nat.not_le.mpr hlt)
    exact iff_of_true (sackAgrees_of_missing h hl hlt) (.inl ⟨_, hlt, hn⟩)
  · have hall : ¬ ∃ i < rx.pkChunks, ¬ rx.Received i := fun ⟨i, hi, hn⟩ ↦
      hn ((lt_ackedPrefix i).mp (heq ▸ hi) i le_rfl)
    rw [sackAgrees_of_complete h hl heq, or_iff_right hall]

/-- The reassembly of a key of `len` bytes with the vector `acked`. -/
def ofAcked (len mtu : Nat) (acked : List Bool) : HqcRxBuf :=
  { pkLen := len, mtu := mtu, pkeAcked := acked }

theorem fragments_ofAcked {len mtu : Nat} {acked : List Bool} (hm : 0 < mtu)
    (hl : acked.length = (len + mtu - 1) / mtu) : (ofAcked len mtu acked).Fragments :=
  ⟨hm, .inr hl, Nat.zero_le len, fun _ hi ↦ absurd hi (Nat.not_lt_zero _)⟩

theorem sack_inverse_ten_of_eleven :
    (ofAcked 2249 220 (List.replicate 10 true ++ [false])).SackAgrees :=
  (sack_inverse_iff _ (fragments_ofAcked (by decide) (by decide)) (by decide)).mpr
    (.inl ⟨10, by decide, by decide⟩)

/-- All of a key of 2249 bytes is acknowledged, and the last of the 11 fragments comes
back as missing. -/
theorem complete_vector_comes_back_incomplete :
    (ofAcked 2249 220 (List.replicate 11 true)).Fragments ∧
      ¬ (ofAcked 2249 220 (List.replicate 11 true)).SackAgrees := by
  refine ⟨fragments_ofAcked (by decide) (by decide), fun ⟨_, h⟩ ↦ ?_⟩
  exact absurd ((h 10).mpr (.inl (by decide))) (by decide)

end HqcRxBuf

end KemtlsMavlink
