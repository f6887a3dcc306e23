import KemtlsMavlink.Library.Window
import KemtlsMavlink.Session.Transmit
import Mathlib.Order.Lattice
import Mathlib.Order.MinMax

namespace KemtlsMavlink

open Library

def fragment (ct : Block) (sessionId : UInt64) (kind : UInt8) (mtu len i : Nat) : Effect :=
  .ctChunk (ctChunkAt ct sessionId kind mtu len (i * mtu))

section Loops

variable {mtu : Nat} (hm : 0 < mtu) (ct : Block) (sessionId : UInt64) (kind : UInt8) (len : Nat)

include hm

/-- From a fragment's start on, `sendWindow` sends as many fragments as it may
and as there are. -/
theorem sendWindow_eq (budget k : Nat) :
    sendWindow ct sessionId kind mtu len budget (cut mtu len k) =
      ((List.range' k (min budget (fragments mtu len - k))).map
          (fragment ct sessionId kind mtu len),
        cut mtu len (k + min budget (fragments mtu len - k))) := by
  induction budget generalizing k with
  | zero => simp [sendWindow]
  | succ budget ih =>
    unfold sendWindow
    by_cases hlt : cut mtu len k < len
    · have hk : k < fragments mtu len := (cut_lt_iff hm).mp hlt
      have hoff : k * mtu < len := (lt_fragments hm).mp hk
      have hn : min (budget + 1) (fragments mtu len - k) =
          min budget (fragments mtu len - (k + 1)) + 1 := by omega
      rw [if_pos hlt, cut_of_lt hoff, cut_succ hoff, ih, hn, List.range'_succ, List.map_cons,
        Nat.add_right_comm k 1]
      rfl
    · have hk : ¬ k < fragments mtu len := fun h ↦ hlt ((cut_lt_iff hm).mpr h)
      have hn : min (budget + 1) (fragments mtu len - k) = 0 := by omega
      rw [if_neg hlt, hn]
      rfl

end Loops

section AckSend

variable (ct : Block) (sessionId : UInt64) (kind : UInt8) (mtu len window : Nat)
  (maxRetries : UInt8) (acked : List Bool) (inflight : Nat) (is : List Nat) (a : AckSend)

def sendable (i : Nat) : Bool :=
  !acked.getD i false && !decide (i * mtu < a.sent ∧ a.retries (i * mtu) ≥ maxRetries)

def ackSendList : List Nat :=
  (is.filter (sendable mtu maxRetries acked a)).take (window - (a.sentNow + inflight))

/-- What the loop has done when it has sent the fragments of `l`. -/
structure AckSent (l : List Nat) (r : List Effect × AckSend) : Prop where
  effects : r.1 = l.map (fragment ct sessionId kind mtu len)
  counted : ∀ i ∈ l, r.2.retries (i * mtu) = a.retries (i * mtu) + 1
  retries : ∀ off, (∀ i ∈ l, off ≠ i * mtu) → r.2.retries off = a.retries off
  le : a.sent ≤ r.2.sent
  sent : r.2.sent = a.sent ∨ ∃ i ∈ l, r.2.sent = cut mtu len (i + 1)
  below : ∀ i ∈ l, i * mtu < r.2.sent
  cover : ∀ i ∈ is, acked.getD i false = false → i * mtu < r.2.sent → i * mtu < a.sent ∨ i ∈ l

variable {ct sessionId kind mtu len window maxRetries acked inflight is a}

theorem AckSent.nil : AckSent ct sessionId kind mtu len acked is a [] ([], a) where
  effects := rfl
  counted := List.forall_mem_nil _
  retries _ _ := rfl
  le := le_rfl
  sent := .inl rfl
  below := List.forall_mem_nil _
  cover _ _ _ h := .inl h

theorem AckSent.skip {i : Nat} {l : List Nat} {r : List Effect × AckSend}
    (h : AckSent ct sessionId kind mtu len acked is a l r)
    (hi : acked.getD i false = true ∨ i * mtu < a.sent) :
    AckSent ct sessionId kind mtu len acked (i :: is) a l r := by
  refine { h with cover := List.forall_mem_cons.mpr ⟨fun hu _ ↦ ?_, h.cover⟩ }
  exact hi.elim (fun ha ↦ absurd (hu.symm.trans ha) (by decide)) .inl

def sendNext (mtu len i : Nat) (a : AckSend) : AckSend :=
  ⟨max a.sent (cut mtu len (i + 1)), Function.update a.retries (i * mtu) (a.retries (i * mtu) + 1),
    a.sentNow + 1⟩

theorem sendable_iff {i : Nat} : sendable mtu maxRetries acked a i = true ↔
    acked.getD i false = false ∧ ¬ (i * mtu < a.sent ∧ a.retries (i * mtu) ≥ maxRetries) := by
  rw [sendable, Bool.and_eq_true, Bool.not_eq_true', Bool.not_eq_true', decide_eq_false_iff_not]

theorem ackSend_cons (hm : 0 < mtu) {i : Nat} (hi : i * mtu < len)
    (hroom : a.sentNow + inflight < window) (hs : sendable mtu maxRetries acked a i = true) :
    ackSend ct sessionId kind mtu len window maxRetries acked inflight (i :: is) a =
      (fragment ct sessionId kind mtu len i :: (ackSend ct sessionId kind mtu len window maxRetries
        acked inflight is (sendNext mtu len i a)).1,
        (ackSend ct sessionId kind mtu len window maxRetries acked inflight is
          (sendNext mtu len i a)).2) := by
  obtain ⟨hu, ht⟩ := sendable_iff.mp hs
  have hsent : i * mtu < max a.sent (cut mtu len (i + 1)) :=
    lt_max_of_lt_right ((mul_lt_cut hm).mpr ⟨Nat.lt_succ_self i, hi⟩)
  rw [ackSend]
  simp only [hroom, not_true, if_false, hu, Bool.false_eq_true, ht, cut_succ hi, hsent, if_true]
  rfl

theorem sendable_sendNext (hm : 0 < mtu) {i j : Nat} (h : i < j) :
    sendable mtu maxRetries acked (sendNext mtu len i a) j =
      sendable mtu maxRetries acked a j := by
  have hoff : j * mtu ≠ i * mtu := fun he ↦ Nat.ne_of_gt h (Nat.eq_of_mul_eq_mul_right hm he)
  have hsent : j * mtu < max a.sent (cut mtu len (i + 1)) ↔ j * mtu < a.sent := by
    rw [lt_max_iff, mul_lt_cut hm]
    omega
  simp only [sendable, sendNext, Function.update_of_ne hoff, hsent]

theorem AckSent.send (hm : 0 < mtu) {i : Nat} {l : List Nat} {r : List Effect × AckSend}
    (hi : i * mtu < len) (hlt : ∀ j ∈ is, i < j) (hl : ∀ j ∈ l, i < j)
    (h : AckSent ct sessionId kind mtu len acked is (sendNext mtu len i a) l r) :
    AckSent ct sessionId kind mtu len acked (i :: is) a (i :: l)
      (fragment ct sessionId kind mtu len i :: r.1, r.2) where
  effects := congrArg (_ :: ·) h.effects
  counted := by
    have hne : ∀ j ∈ l, j * mtu ≠ i * mtu := fun j hj he ↦
      Nat.ne_of_gt (hl j hj) (Nat.eq_of_mul_eq_mul_right hm he)
    refine List.forall_mem_cons.mpr ⟨?_, fun j hj ↦ ?_⟩
    · rw [h.retries _ fun j hj ↦ (hne j hj).symm]
      exact Function.update_self ..
    · rw [h.counted j hj]
      exact congrArg (· + 1) (Function.update_of_ne (hne j hj) ..)
  retries off ho := by
    obtain ⟨hi, hl⟩ := List.forall_mem_cons.mp ho
    rw [h.retries off hl]
    exact Function.update_of_ne hi ..
  le := le_trans (le_max_left _ _) h.le
  sent := by
    rcases h.sent with he | ⟨j, hj, he⟩
    · rcases max_choice a.sent (cut mtu len (i + 1)) with hc | hc
      · exact .inl (he.trans hc)
      · exact .inr ⟨i, List.mem_cons_self, he.trans hc⟩
    · exact .inr ⟨j, List.mem_cons_of_mem _ hj, he⟩
  below := by
    refine List.forall_mem_cons.mpr ⟨lt_of_lt_of_le ?_ h.le, h.below⟩
    exact lt_max_of_lt_right ((mul_lt_cut hm).mpr ⟨Nat.lt_succ_self i, hi⟩)
  cover := by
    refine List.forall_mem_cons.mpr ⟨fun _ _ ↦ .inr List.mem_cons_self, fun j hj hu hs ↦ ?_⟩
    rcases h.cover j hj hu hs with hlt' | hm'
    · left
      have := hlt j hj
      have hcut : j * mtu < cut mtu len (i + 1) ↔ j < i + 1 ∧ j * mtu < len := mul_lt_cut hm
      simp only [sendNext, lt_max_iff] at hlt'
      omega
    · exact .inr (List.mem_cons_of_mem _ hm')

theorem ackSend_spec (hm : 0 < mtu) (hs : is.Pairwise (· < ·)) (hl : ∀ i ∈ is, i * mtu < len) :
    AckSent ct sessionId kind mtu len acked is a
      (ackSendList mtu window maxRetries acked inflight is a)
      (ackSend ct sessionId kind mtu len window maxRetries acked inflight is a) := by
  induction is generalizing a with
  | nil =>
    rw [ackSendList, List.filter_nil, List.take_nil]
    exact .nil
  | cons i is ih =>
    obtain ⟨hlt, hs⟩ := List.pairwise_cons.mp hs
    obtain ⟨hi, hl⟩ := List.forall_mem_cons.mp hl
    by_cases hroom : a.sentNow + inflight < window
    · cases hsend : sendable mtu maxRetries acked a i with
      | true =>
        have hlist : ackSendList mtu window maxRetries acked inflight (i :: is) a =
            i :: ackSendList mtu window maxRetries acked inflight is (sendNext mtu len i a) := by
          have hn : window - (a.sentNow + inflight) =
            window - (a.sentNow + 1 + inflight) + 1 := by omega
          have hf : is.filter (sendable mtu maxRetries acked (sendNext mtu len i a)) =
              is.filter (sendable mtu maxRetries acked a) :=
            List.filter_congr fun j hj ↦ sendable_sendNext hm (hlt j hj)
          rw [ackSendList, List.filter_cons_of_pos hsend, hn, List.take_succ_cons, ackSendList, hf]
          rfl
        rw [hlist, ackSend_cons hm hi hroom hsend]
        refine .send hm hi hlt (fun j hj ↦ ?_) (ih hs hl)
        exact hlt j (List.mem_of_mem_filter (List.mem_of_mem_take hj))
      | false =>
        have hlist : ackSendList mtu window maxRetries acked inflight (i :: is) a =
            ackSendList mtu window maxRetries acked inflight is a := by
          rw [ackSendList, List.filter_cons_of_neg (by simp [hsend]), ackSendList]
        rw [hlist, ackSend]
        simp only [hroom, not_true, if_false]
        cases hu : acked.getD i false with
        | true => exact (ih hs hl).skip (.inl hu)
        | false =>
          have ht : i * mtu < a.sent ∧ a.retries (i * mtu) ≥ maxRetries := by
            by_contra ht
            exact nomatch hsend.symm.trans (sendable_iff.mpr ⟨hu, ht⟩)
          simp only [Bool.false_eq_true, if_false, if_pos ht]
          exact (ih hs hl).skip (.inr ht.1)
    · have hn : window - (a.sentNow + inflight) = 0 := by omega
      rw [ackSendList, hn, List.take_zero, ackSend, if_pos hroom]
      exact .nil

end AckSend

end KemtlsMavlink
