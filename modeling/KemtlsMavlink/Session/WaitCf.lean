import KemtlsMavlink.Session.Phase
import KemtlsMavlink.Session.Sample

namespace KemtlsMavlink

open Library

variable {ρ : Type} {P : Platform ρ} {s : HqcSession} {i : Input ρ}

theorem Move.waitCf_done {r : HqcSession × List Effect} (hm : Move P s i r) (hz : s.rx.Sized)
    (h : s.state = .waitCf → s.BothDone) (hs' : r.1.state = .waitCf) : r.1.BothDone := by
  cases hm with
  | quiet s' fx ht hs hfx => exact ht.bothDone hz (h (hs.symm.trans hs'))
  | acked s' fx ht hs hd hw hfx => exact hd
  | wiped s₀ s' fx ht hs hr hfx => exact nomatch hs.symm.trans hs'
  | chunk m sid base mask hi ha hk =>
    have hd := h hs'
    unfold HqcSession.BothDone at hd ⊢
    rwa [HqcSession.setRx_rx, HqcRxBuf.afterChunk_cte, HqcRxBuf.afterChunk_cts]
  | encap m sid base mask pke r hi ha hk hp hr =>
    cases hr with
    | noBuffer hb => exact nomatch hs'
    | failed ct hb ho => exact nomatch hs'
    | done ct fx hb ho hfx => exact nomatch hs'
  | finished m hi ha => exact nomatch hs'

theorem handle_waitCf_done (hz : s.rx.Sized) (h : s.state = .waitCf → s.BothDone)
    (hs' : (handle P s i).1.state = .waitCf) : (handle P s i).1.BothDone := by
  by_cases hi : i.event.IsHello
  · obtain ⟨m, he⟩ := hi.exists
    simp only [handle, he] at hs'
    rcases hello_phase P i.env s m with ⟨-, hs⟩ | ⟨-, hs⟩
    · cases hs.symm.trans hs'
    · cases hs.symm.trans hs'
  · exact (handle_move hz hi).waitCf_done hz h hs'

/-- Both transfers are over: the whole key is there, and both ciphertexts are, with all
their fragments acknowledged. -/
structure TransfersDone (rx : HqcRxBuf) : Prop where
  pke : rx.pke.isSome
  cte : rx.cte.buf.isSome
  cts : rx.cts.buf.isSome
  pkeRcvd : rx.pkeRcvd = rx.pkLen
  cteLen : rx.cte.len = apKemCiphertextBytes
  ctsLen : rx.cts.len = apKemCiphertextBytes
  cteAcked : rx.cte.acked ≠ [] ∧ ∀ b ∈ rx.cte.acked, b = true
  ctsAcked : rx.cts.acked ≠ [] ∧ ∀ b ∈ rx.cts.acked, b = true

theorem Open.transfersDone {m : Hello} (h : Open m s) (hd : s.BothDone) :
    TransfersDone s.rx := by
  have hlen := CtStream.len_of_done hd.1
  obtain ⟨hcte, hbuf⟩ := h.rx.cte.resolve_left hlen
  obtain ⟨pke, hp, -⟩ := h.rx.pke
  exact ⟨by rw [hp]; rfl, hbuf, h.rx.cts.1,
    Nat.le_antisymm h.rx.fragments.rcvd_le (h.rx.complete hlen), hcte, h.rx.cts.2,
    CtStream.acked_of_done hd.1, CtStream.acked_of_done hd.2⟩

/-- Every state that a run reaches is settled, and in `WAIT_CF` both streams are done. -/
theorem waitCf_run (P : Platform ρ) (kChachaTx kChachaRx : Bytes 32) (is : List (Input ρ)) :
    Settled ((session P).final (.fresh kChachaTx kChachaRx) is) ∧
      (((session P).final (.fresh kChachaTx kChachaRx) is).state = .waitCf →
        ((session P).final (.fresh kChachaTx kChachaRx) is).BothDone) := by
  refine Machine.invariant (M := session P)
    (I := fun s ↦ Settled s ∧ (s.state = .waitCf → s.BothDone)) (fun s i ⟨hs, hd⟩ ↦ ?_)
    ⟨fresh_settled _ _, nofun⟩ is
  exact ⟨hs.step i, handle_waitCf_done hs.sized hd⟩

theorem Settled.transfersDone (h : Settled s) (hs : s.state = .waitCf) (hd : s.BothDone) :
    TransfersDone s.rx := by
  rcases h with h | ⟨m, h⟩
  · exact absurd h.state (by simp [hs])
  · exact h.transfersDone hd

theorem finishError_detail {f : Finish} (hd : s.state = .waitCf → s.BothDone) {value : Nat}
    {status : KexStatus} {detail : UInt8} (h : finishError s f = some (value, status, detail)) :
    detail ≠ 21 := by
  unfold finishError at h
  split_ifs at h with h₁ h₂ h₃ h₄ h₅
  any_goals (cases h; decide)
  have hboth := hd (not_not.mp h₂)
  simp [hboth.1, hboth.2] at h₅

theorem handleHqcFinish_detail (P : Platform ρ) (e : Env ρ) (f : Finish)
    (hd : s.state = .waitCf → s.BothDone) (sid : UInt64) (value : Nat) (status : KexStatus) :
    .hqcStatus sid value status 21 ∉ (handleHqcFinish P e s f).2 := by
  unfold handleHqcFinish
  dsimp only
  cases he : finishError (s.noteRx (e.millis 0)) f with
  | some err =>
    have hne := finishError_detail (s := s.noteRx (e.millis 0)) hd he
    simpa using fun _ _ _ h ↦ hne h.symm
  | none =>
    dsimp only
    split <;> simp

/-- `WAIT_CF` means that both transfers are over, and so no `FINISH` is ever answered that
they are not. -/
theorem waitCf_transfers_done (P : Platform ρ) (kChachaTx kChachaRx : Bytes 32)
    (is : List (Input ρ)) :
    let s := (session P).final (.fresh kChachaTx kChachaRx) is
    (s.state = .waitCf → TransfersDone s.rx) ∧ ∀ (e : Env ρ) (f : Finish) sid value status,
      .hqcStatus sid value status 21 ∉ (handle P s ⟨.finish f, e⟩).2 := by
  obtain ⟨hs, hd⟩ := waitCf_run P kChachaTx kChachaRx is
  exact ⟨fun h ↦ hs.transfersDone h (hd h), fun e f ↦ handleHqcFinish_detail P e f hd⟩

theorem sampleWaiting_transfers_done :
    (sampleWaiting 1).state = .waitCf ∧ TransfersDone (sampleWaiting 1).rx := by
  have hs := (sampleFinish_accepted (r := 1) (by decide)).state
  exact ⟨hs, (waitCf_transfers_done samplePlatform _ _ (sampleHandshake 1)).1 hs⟩

end KemtlsMavlink
