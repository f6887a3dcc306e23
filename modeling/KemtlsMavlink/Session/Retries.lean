import KemtlsMavlink.Session.Acked

namespace KemtlsMavlink

open Library

variable {ρ : Type} {P : Platform ρ} {R : UInt8 → Nat → Prop} {s : HqcSession} {i : Input ρ}
  {rx rx' : HqcRxBuf} {log fx : List Effect} {kind : UInt8} {off : Nat} {ct : Block}

def Effect.isChunkAt (kind : UInt8) (off : Nat) : Effect → Bool
  | .ctChunk c => c.ctKind = kind && c.offset = off
  | _ => false

/-- How often the fragment at an offset of a ciphertext has been sent. -/
def transmissions (log : List Effect) (kind : UInt8) (off : Nat) : Nat :=
  log.countP (Effect.isChunkAt kind off)

/-- The report that the fragment at an offset of a ciphertext is given up. -/
def Effect.GivesUp (kind : UInt8) (off : Nat) : Effect → Prop
  | .hqcAbort _ status detail value => status = .timeout ∧ detail = detailOf kind ∧ value = off
  | _ => False

instance (kind : UInt8) (off : Nat) : DecidablePred (Effect.GivesUp kind off)
  | .hqcAbort .. => inferInstanceAs (Decidable (_ = _ ∧ _ = _ ∧ _ = _))
  | .helloAck _ | .pkAck .. | .hqcStatus .. | .ctChunk _ | .sendText .. | .fsOpen | .fsClose
  | .pkeCopy .. | .pksStore .. | .apKemEnc .. | .enableSigningWithKey _ => isFalse id

/-- When the fragment at an offset is given up, it has been sent once and `max_retries`
times again. -/
def HonestTimeout (kind : UInt8) (off : Nat) (maxRetries : UInt8) (log fx : List Effect) : Prop :=
  ∀ o ∈ fx, o.GivesUp kind off → 1 + maxRetries.toNat ≤ transmissions (log ++ fx) kind off

def HonestTimeouts (maxRetries : UInt8) (log fx : List Effect) : Prop :=
  ∀ kind off, kind = 0 ∨ kind = 1 → HonestTimeout kind off maxRetries log fx

/-- The ciphertext waits for an acknowledgement of fragment `j`. -/
structure HqcRxBuf.Awaits (rx : HqcRxBuf) (kind : UInt8) (j : Nat) : Prop where
  lt : j * rx.mtu < (rx.stream kind).len
  unacked : (rx.stream kind).acked.getD j false = false

/-- While the ciphertext waits for an acknowledgement of its fragment at `off`, the
counter of this offset is charged for retransmissions of that fragment alone, by a
`CT_ACK` as by a tick; and a new ephemeral ciphertext finds the counter at 0. -/
def ChargesFragment (P : Platform ρ) (kind : UInt8) (off : Nat) (s : HqcSession)
    (i : Input ρ) : Prop :=
  match i.event with
  | .ctAck m => m.Held s.rx → ∀ j ∈ s.rx.ackFragments m, j * s.rx.mtu = off →
    s.rx.Awaits kind j → m.ctKind = kind ∧ off < (s.rx.stream kind).sent
  | .tick => ∀ kind' ct j, kind' = 0 ∨ kind' = 1 → s.rx.Holds kind' ct →
    s.Resends (i.env.millis 0) kind' j → j * s.rx.mtu = off → s.rx.Awaits kind j → kind' = kind
  | .pkChunk _ => EncapResult P s i true → kind = 0 → ∀ j, j * s.rx.mtu = off →
    off < apKemCiphertextBytes → s.rx.retries off = 0
  | _ => True

/-- The counter is below the number of transmissions of the fragment at `off`, and 0
before the first of them. -/
structure Charged (rx : HqcRxBuf) (log : List Effect) (kind : UInt8) (off : Nat) : Prop where
  sent : off < (rx.stream kind).sent → (rx.retries off).toNat + 1 ≤ transmissions log kind off
  unsent : (rx.stream kind).sent ≤ off → rx.retries off = 0

def RetryLog (kind : UInt8) (off : Nat) (rx : HqcRxBuf) (log : List Effect) : Prop :=
  ∀ j, j * rx.mtu = off → rx.Awaits kind j → Charged rx log kind off

theorem transmissions_append (log fx : List Effect) (kind : UInt8) (off : Nat) :
    transmissions (log ++ fx) kind off = transmissions log kind off + transmissions fx kind off :=
  List.countP_append

theorem transmissions_pos {j : Nat} (h : rx.fragment kind ct j ∈ fx) :
    0 < transmissions fx kind (j * rx.mtu) := by
  refine List.countP_pos_iff.mpr ⟨_, h, ?_⟩
  simp [HqcRxBuf.fragment, fragment, Effect.isChunkAt, ctChunkAt]

theorem Charged.mono (h : Charged rx log kind off)
    (hs : off < (rx'.stream kind).sent ↔ off < (rx.stream kind).sent)
    (hr : rx'.retries off ≤ rx.retries off) (fx : List Effect) :
    Charged rx' (log ++ fx) kind off := by
  have hle : (rx'.retries off).toNat ≤ (rx.retries off).toNat := hr
  refine ⟨fun hlt ↦ ?_, fun hge ↦ ?_⟩
  · rw [transmissions_append]
    have := h.sent (hs.mp hlt)
    omega
  · have hge' := Nat.le_of_not_lt fun hlt ↦ Nat.not_lt.mpr hge (hs.mpr hlt)
    rw [h.unsent hge'] at hle
    exact UInt8.toNat_inj.mp (Nat.le_zero.mp hle)

theorem Charged.charge (h : Charged rx log kind off)
    (hs : (rx.stream kind).sent ≤ (rx'.stream kind).sent) (hlt : off < (rx.stream kind).sent)
    {old : UInt8} (hold : old ≤ rx.retries off) (hmax : old < rx.maxRetries)
    (hr : rx'.retries off = old + 1) (hfx : 0 < transmissions fx kind off) :
    Charged rx' (log ++ fx) kind off := by
  have hle : old.toNat ≤ (rx.retries off).toNat := hold
  have hlt' : old.toNat < rx.maxRetries.toNat := hmax
  have h256 := rx.maxRetries.toNat_lt
  have hadd : (old + 1).toNat = old.toNat + 1 := by
    rw [UInt8.toNat_add, UInt8.toNat_one]
    omega
  refine ⟨fun _ ↦ ?_, fun hge ↦ ?_⟩
  · rw [hr, hadd, transmissions_append]
    have hsent := h.sent hlt
    omega
  · exact absurd (Nat.lt_of_lt_of_le hlt hs) (Nat.not_lt.mpr hge)

theorem SameStreams.awaits (h : SameStreams rx rx') {j : Nat} :
    rx'.Awaits kind j ↔ rx.Awaits kind j := by
  constructor
  · rintro ⟨hlt, hu⟩
    exact ⟨h.mtu ▸ h.len kind ▸ hlt, h.acked kind ▸ hu⟩
  · rintro ⟨hlt, hu⟩
    refine ⟨?_, ?_⟩
    · rwa [h.mtu, h.len]
    · rwa [h.acked]

theorem RetryLog.mono (h : RetryLog kind off rx log) (hm : rx'.mtu = rx.mtu)
    (hl : (rx'.stream kind).len = (rx.stream kind).len)
    (ha : (rx'.stream kind).acked = (rx.stream kind).acked)
    (hs : (rx'.stream kind).sent = (rx.stream kind).sent) (hr : rx'.retries = rx.retries)
    (fx : List Effect) : RetryLog kind off rx' (log ++ fx) := by
  intro j hj hw
  have hold : rx.Awaits kind j := ⟨hm ▸ hl ▸ hw.lt, ha ▸ hw.unacked⟩
  refine (h j (hm ▸ hj) hold).mono ?_ ?_ fx
  · rw [hs]
  · rw [hr]
    exact UInt8.le_refl _

theorem RetryLog.resend (h : RetryLog kind off rx log) (hm : 0 < rx.mtu) {kind' : UInt8}
    {j' : Nat} (hf : rx.InFlight kind' j') (ht : rx.retries (j' * rx.mtu) < rx.maxRetries)
    (ha : j' * rx.mtu = off → rx.Awaits kind j' → kind' = kind) (ct : Block) :
    RetryLog kind off (rx.countRetry (j' * rx.mtu)) (log ++ [rx.fragment kind' ct j']) := by
  intro j hj hw
  have hw' : rx.Awaits kind j := ⟨hw.lt, hw.unacked⟩
  have hold := h j hj hw'
  by_cases hoff : j' * rx.mtu = off
  · obtain rfl : j' = j := Nat.eq_of_mul_eq_mul_right hm (hoff.trans hj.symm)
    obtain rfl := ha hoff hw'
    subst hoff
    exact hold.charge (Nat.le_refl _) hf.sent (UInt8.le_refl _) ht (Function.update_self ..)
      (transmissions_pos (List.mem_singleton_self _))
  · refine Charged.mono hold ?_ ?_ _
    · exact Iff.rfl
    · unfold HqcRxBuf.countRetry
      dsimp only
      rw [Function.update_of_ne (Ne.symm hoff)]
      exact UInt8.le_refl _

theorem RetryLog.window (h : RetryLog kind off rx log) (hf : Flow rx) (hk : kind = 0 ∨ kind = 1)
    {kind' : UInt8} (hk' : kind' = 0 ∨ kind' = 1) (budget : Nat) (ct : Block) :
    RetryLog kind off (rx.setSent kind' (rx.sendWindow kind' ct budget).2)
      (log ++ (rx.sendWindow kind' ct budget).1) := by
  have hsame := sameStreams_setSent rx kind' (rx.sendWindow kind' ct budget).2
  have hretries : (rx.setSent kind' (rx.sendWindow kind' ct budget).2).retries = rx.retries :=
    HqcRxBuf.setStream_retries ..
  intro j hj hw
  rw [hsame.mtu] at hj
  have hold := h j hj (hsame.awaits.mp hw)
  have hst := stream_setSent rx kind' kind (rx.sendWindow kind' ct budget).2
  by_cases hkk : kind' = 0 ↔ kind = 0
  · obtain rfl := kind_eq hk' hk hkk
    rw [if_pos hkk] at hst
    refine ⟨fun hlt ↦ ?_, fun hge ↦ ?_⟩
    · rw [hst] at hlt
      rw [hretries, transmissions_append]
      by_cases hsent : off < (rx.stream kind).sent
      · have := hold.sent hsent
        omega
      · have hz := hold.unsent (Nat.le_of_not_lt hsent)
        have hpos := transmissions_pos (mem_sendWindow hf (hj ▸ hlt) (hj ▸ hsent))
        rw [hj] at hpos
        rw [hz, UInt8.toNat_zero]
        omega
    · rw [hst] at hge
      rw [hretries]
      exact hold.unsent (Nat.le_trans (le_sendWindow hf ct budget) hge)
  · rw [if_neg hkk] at hst
    exact hold.mono (by rw [hst]) (by rw [hretries]; exact UInt8.le_refl _) _

theorem RetryLog.step (h : RetryLog kind off rx log) (hf : Flow rx) (hk : kind = 0 ∨ kind = 1)
    (hs : RxStep R rx rx' fx) (hR : ∀ kind' ct j, kind' = 0 ∨ kind' = 1 → rx.Holds kind' ct →
      R kind' j → j * rx.mtu = off → rx.Awaits kind j → kind' = kind) :
    RetryLog kind off rx' (log ++ fx) := by
  cases hs with
  | resend kind' ct j hk' hc hr hj hin ht =>
    exact h.resend hf.mtu_pos hin ht (hR kind' ct j hk' hc hr) ct
  | probe kind' ct j hk' hc hj => exact h.mono rfl rfl rfl rfl rfl _
  | window kind' ct budget hk' hc hb => exact h.window hf hk hk' budget ct

theorem RetryLog.steps (h : RetryLog kind off rx log) (hf : Flow rx) (hk : kind = 0 ∨ kind = 1)
    (hs : RxSteps R rx rx' fx) (hR : ∀ kind' ct j, kind' = 0 ∨ kind' = 1 → rx.Holds kind' ct →
      R kind' j → j * rx.mtu = off → rx.Awaits kind j → kind' = kind) :
    RetryLog kind off rx' (log ++ fx) := by
  induction hs generalizing log with
  | refl rx => rwa [List.append_nil]
  | head hstep hrest ih =>
    rw [← List.append_assoc]
    refine ih (h.step hf hk hstep hR) (hf.step hstep).1 fun kind' ct j hk' hc hr hj hw ↦ ?_
    have hsame := hstep.same
    exact hR kind' ct j hk' ⟨hsame.buf kind' ▸ hc.buf, hsame.len kind' ▸ hc.len⟩ hr
      (hsame.mtu ▸ hj) (hsame.awaits.mp hw)

theorem RxStep.isChunk (hs : RxStep R rx rx' fx) : ∀ o ∈ fx, ∃ c, o = .ctChunk c := by
  cases hs with
  | resend kind ct j => exact List.forall_mem_singleton.mpr ⟨_, rfl⟩
  | probe kind ct j => exact List.forall_mem_singleton.mpr ⟨_, rfl⟩
  | window kind ct budget =>
    intro o ho
    obtain ⟨off, he⟩ := sendWindow_chunks _ _ _ _ _ _ _ o ho
    exact ⟨_, he⟩

theorem RxSteps.isChunk (hs : RxSteps R rx rx' fx) : ∀ o ∈ fx, ∃ c, o = .ctChunk c := by
  induction hs with
  | refl rx => exact List.forall_mem_nil _
  | head hstep hrest ih => exact List.forall_mem_append.mpr ⟨hstep.isChunk, ih⟩

theorem not_acked_of_applyCtAck (hz : rx.Sized) {m : CtAck} {j : Nat}
    (h : ((applyCtAck rx m ct).1.stream kind).acked.getD j false = false) :
    (rx.stream kind).acked.getD j false = false := by
  rw [stream_applyCtAck] at h
  split_ifs at h with hk
  · rw [← stream_of_ctKind hk]
    have hgrows := grows_markedStream (rx.stream m.ctKind) rx.mtu (rx.stream m.ctKind).sent m
    refine Bool.eq_false_iff.mpr fun ha ↦ ?_
    have hmarked : (rx.marked m).acked.getD j false = true :=
      hgrows.acked (hz.length m.ctKind) j ha
    exact nomatch h.symm.trans hmarked
  · exact h

theorem HqcRxBuf.Awaits.of_applyCtAck (hz : rx.Sized) {m : CtAck} {j : Nat}
    (h : (applyCtAck rx m ct).1.Awaits kind j) : rx.Awaits kind j := by
  refine ⟨?_, not_acked_of_applyCtAck hz h.unacked⟩
  have hlt := h.lt
  rwa [applyCtAck_mtu, stream_applyCtAck_len] at hlt

theorem le_applyCtAck_sent (hf : Flow rx) (m : CtAck) (kind : UInt8) :
    (rx.stream kind).sent ≤ ((applyCtAck rx m ct).1.stream kind).sent := by
  rw [stream_applyCtAck]
  split_ifs with hk
  · rw [← stream_of_ctKind hk]
    exact (HqcRxBuf.ackRun_sent (m := m) hf.mtu_pos ct).le
  · exact Nat.le_refl _

theorem sent_iff_of_not_mem (hf : Flow rx) (hz : rx.Sized) {m : CtAck} {j : Nat}
    (hw : (applyCtAck rx m ct).1.Awaits kind j) (hj : j ∉ rx.ackFragments m) :
    j * rx.mtu < ((applyCtAck rx m ct).1.stream kind).sent ↔
      j * rx.mtu < (rx.stream kind).sent := by
  refine ⟨fun hlt ↦ ?_, fun hlt ↦ Nat.lt_of_lt_of_le hlt (le_applyCtAck_sent hf m kind)⟩
  have hu := hw.unacked
  rw [stream_applyCtAck] at hlt hu
  split_ifs at hlt hu with hk
  · by_contra hlt'
    rw [← stream_of_ctKind hk] at hlt'
    exact hj (mem_ackFragments_of_sent hf hz hu hlt hlt')
  · exact hlt

theorem RetryLog.ack (h : RetryLog kind off rx log) (hf : Flow rx) (hz : rx.Sized) {m : CtAck}
    (hg : ∀ j ∈ rx.ackFragments m, j * rx.mtu = off → rx.Awaits kind j →
      m.ctKind = kind ∧ off < (rx.stream kind).sent) (ct : Block) :
    RetryLog kind off (applyCtAck rx m ct).1 (log ++ (rx.ackRun m ct).1) := by
  have hs := HqcRxBuf.ackRun_sent (m := m) hf.mtu_pos ct
  intro j hj hw
  rw [applyCtAck_mtu] at hj
  subst hj
  have hw' := hw.of_applyCtAck hz
  have hold := h j rfl hw'
  by_cases hin : j ∈ rx.ackFragments m
  · obtain ⟨rfl, hlt⟩ := hg j hin rfl hw'
    have hmem : rx.fragment m.ctKind ct j ∈ (rx.ackRun m ct).1 := by
      rw [hs.effects]
      exact List.mem_map_of_mem hin
    refine hold.charge (le_applyCtAck_sent hf m _) hlt (dropRetries_le ..)
      ((HqcRxBuf.mem_ackFragments hf.mtu_pos hin).2.2 hlt) ?_ (transmissions_pos hmem)
    rw [applyCtAck_retries, hs.counted j hin]
    rfl
  · refine hold.mono (sent_iff_of_not_mem hf hz hw hin) ?_ _
    rw [applyCtAck_retries, hs.retries _ fun i hi he ↦ hin ?_]
    · exact dropRetries_le ..
    · exact Nat.eq_of_mul_eq_mul_right hf.mtu_pos he ▸ hi

theorem Opened.charged (h : Opened rx kind ct fx) (hm : 0 < rx.mtu) {j : Nat}
    (hr : rx.retries (j * rx.mtu) = 0) (log : List Effect) :
    Charged rx (log ++ fx) kind (j * rx.mtu) := by
  refine ⟨fun hlt ↦ ?_, fun _ ↦ hr⟩
  rw [hr]
  exact transmissions_pos (List.mem_append_right _ (h.mem_of_sent hm hlt))

theorem SameProgress.retryLog (h : SameProgress rx rx') (hl : RetryLog kind off rx log)
    (fx : List Effect) : RetryLog kind off rx' (log ++ fx) :=
  hl.mono h.mtu (h.len _) (h.acked _) (h.sent _) h.retries fx

theorem not_awaits_of_empty (h : rx.stream kind = {}) (j : Nat) : ¬ rx.Awaits kind j := by
  intro hw
  have hlt := hw.lt
  rw [h] at hlt
  exact Nat.not_lt_zero _ hlt

theorem Cleared.retryLog (h : Cleared rx) (log : List Effect) : RetryLog kind off rx log :=
  fun j _ hw ↦ absurd hw (not_awaits_of_empty (h.stream kind) j)

theorem Effect.GivesUp.not_isSilent {o : Effect} {off : Nat} (h : o.GivesUp kind off) :
    ¬ o.IsSilent := by
  cases o with
  | hqcAbort sid status detail value =>
    obtain ⟨-, rfl, -⟩ := h
    change detailOf kind ≠ 2
    unfold detailOf
    split <;> decide
  | _ => exact h.elim

theorem honest_of_silent (h : ∀ o ∈ fx, o.IsSilent) (maxRetries : UInt8) (log : List Effect) :
    HonestTimeout kind off maxRetries log fx :=
  fun o ho hgu ↦ absurd (h o ho) hgu.not_isSilent

theorem honest_of_chunks (h : ∀ o ∈ fx, ∃ c, o = .ctChunk c) (maxRetries : UInt8)
    (log : List Effect) : HonestTimeout kind off maxRetries log fx := by
  intro o ho hgu
  obtain ⟨c, rfl⟩ := h o ho
  exact hgu.elim

theorem detailOf_inj {kind' : UInt8} (hk : kind = 0 ∨ kind = 1) (hk' : kind' = 0 ∨ kind' = 1)
    (h : detailOf kind' = detailOf kind) : kind' = kind := by
  rcases hk with rfl | rfl <;> rcases hk' with rfl | rfl
  · rfl
  · exact absurd h (by decide)
  · exact absurd h (by decide)
  · rfl

theorem RetryLog.honest (h : RetryLog kind off rx (log ++ fx)) (hk : kind = 0 ∨ kind = 1)
    {kind' : UInt8} (hk' : kind' = 0 ∨ kind' = 1) {j : Nat} (hw : rx.Awaits kind' j)
    (hf : rx.InFlight kind' j) (ht : rx.maxRetries ≤ rx.retries (j * rx.mtu))
    (hfx : ∀ o ∈ fx, ∃ c, o = .ctChunk c) (sid : UInt64) :
    HonestTimeout kind off rx.maxRetries log
      (fx ++ [.hqcAbort sid .timeout (detailOf kind') (j * rx.mtu)]) := by
  intro o ho hgu
  rcases List.mem_append.mp ho with ho | ho
  · obtain ⟨c, rfl⟩ := hfx o ho
    exact hgu.elim
  · obtain rfl := List.mem_singleton.mp ho
    obtain ⟨-, hd, rfl⟩ := hgu
    obtain rfl := detailOf_inj hk hk' hd
    have hle : rx.maxRetries.toNat ≤ (rx.retries (j * rx.mtu)).toNat := ht
    have hsent := (h j rfl hw).sent hf.sent
    rw [← List.append_assoc, transmissions_append]
    omega

theorem Opened.honest {kind' : UInt8} (h : Opened rx kind' ct fx) (maxRetries : UInt8)
    (log : List Effect) : HonestTimeout kind off maxRetries log fx := by
  obtain ⟨fx₀, hfx₀, rfl⟩ := h.effects
  intro o ho hgu
  rcases List.mem_append.mp ho with ho | ho
  · exact absurd (hfx₀ o ho) hgu.not_isSilent
  · obtain ⟨off', rfl⟩ := sendWindow_chunks _ _ _ _ _ _ _ _ ho
    exact hgu.elim

theorem StreamStep.retries (hs : StreamStep P s i rx fx) (hk : kind = 0 ∨ kind = 1)
    (h : ¬ i.event.IsHello → RetryLog kind off s.rx log) (hf : Flow s.rx) (hz : s.rx.Sized)
    (hg : ChargesFragment P kind off s i) :
    RetryLog kind off rx (nextLog i log fx) ∧
      HonestTimeout kind off s.rx.maxRetries log fx := by
  unfold ChargesFragment at hg
  cases hs with
  | kept rx fx hp hb hi hfx =>
    rw [nextLog_of_not_isHello hi]
    exact ⟨hp.retryLog (h hi) fx, honest_of_silent hfx _ _⟩
  | cleared rx fx hcl hfx => exact ⟨hcl.retryLog _, honest_of_silent hfx _ _⟩
  | tick rx fx hi hsteps =>
    have hn : ¬ i.event.IsHello := by rw [hi]; exact id
    rw [hi] at hg
    rw [nextLog_of_not_isHello hn]
    exact ⟨(h hn).steps hf hk hsteps hg, honest_of_chunks hsteps.isChunk _ _⟩
  | exhausted rx rx' fx kind' ct j hi hsteps hk' hc hin ht hcl =>
    have hn : ¬ i.event.IsHello := by rw [hi]; exact id
    rw [hi] at hg
    have hlt := Nat.lt_of_lt_of_le hin.sent ((hf.steps hsteps).1.stream kind').aligned.le_and.1
    have hlog := (h hn).steps hf hk hsteps hg
    refine ⟨hcl.retryLog _, ?_⟩
    rw [← hsteps.same.maxRetries]
    exact hlog.honest hk hk' ⟨hlt, hin.unacked⟩ hin ht hsteps.isChunk _
  | ack m ct rx hi hm hb hr =>
    have hn : ¬ i.event.IsHello := by rw [hi]; exact id
    rw [hi] at hg
    rw [nextLog_of_not_isHello hn]
    have hchunks : ∀ o ∈ (s.rx.ackRun m ct).1, ∃ c, o = .ctChunk c := by
      rw [(HqcRxBuf.ackRun_sent (m := m) hf.mtu_pos ct).effects]
      exact List.forall_mem_map.mpr fun j _ ↦ ⟨_, rfl⟩
    refine ⟨?_, honest_of_chunks hchunks _ _⟩
    have hack := (h hn).ack hf hz (hg hm) ct
    rcases hr with rfl | rfl
    · exact hack
    · intro j hj hw
      have hold := hack j hj ⟨hw.lt, hw.unacked⟩
      refine ⟨fun hlt ↦ ?_, fun _ ↦ rfl⟩
      have hsent := hold.sent hlt
      exact Nat.le_trans (Nat.succ_le_succ (Nat.zero_le _)) hsent
  | overwritten rx fx hp hs ho hfx =>
    obtain ⟨m, pke, ct, hi, -⟩ := ho
    have hn : ¬ i.event.IsHello := by rw [hi]; exact id
    rw [nextLog_of_not_isHello hn]
    exact ⟨hp.retryLog (h hn) fx, honest_of_silent hfx _ _⟩
  | encapsulated rx fx ct hi hid hmtu hx hr hw hs ho =>
    obtain ⟨m, pke, ct₀, he, -⟩ := id hi
    have hn : ¬ i.event.IsHello := by rw [he]; exact id
    rw [he] at hg
    rw [nextLog_of_not_isHello hn]
    refine ⟨fun j hj haw ↦ ?_, ho.honest _ _⟩
    rcases hk with rfl | rfl
    · subst hj
      have hlt := haw.lt
      rw [ho.stream] at hlt
      exact ho.charged (hmtu ▸ hf.mtu_pos) (hr ▸ hg hi rfl j (hmtu ▸ rfl) hlt) log
    · have hold : s.rx.Awaits 1 j := ⟨hmtu ▸ hs ▸ haw.lt, hs ▸ haw.unacked⟩
      refine (h hn j (hmtu ▸ hj) hold).mono ?_ ?_ fx
      · rw [hs]
      · rw [hr]
        exact UInt8.le_refl _
  | accepted rx fx ct hi hmtu hr hs ho =>
    refine ⟨fun j hj hw ↦ ?_, ho.honest _ _⟩
    subst hj
    rcases hk with rfl | rfl
    · exact absurd hw (not_awaits_of_empty hs j)
    · exact ho.charged (by rw [hmtu]; decide) (by rw [hr]) _

/-- What the runs keep up in which the counter of the fragment is charged for its
retransmissions alone. -/
structure RetryState (kind : UInt8) (off : Nat) (t : HqcSession × List Effect) : Prop where
  settled : Settled t.1
  flow : Flow t.1.rx
  retryLog : RetryLog kind off t.1.rx t.2

theorem retryState_step {t : HqcSession × List Effect} (hk : kind = 0 ∨ kind = 1)
    (hs : Settled t.1) (hf : Flow t.1.rx) (h : ¬ i.event.IsHello → RetryLog kind off t.1.rx t.2)
    (hg : ChargesFragment P kind off t.1 i) :
    RetryState kind off ((loggedSession P).step t i).1 ∧
      HonestTimeout kind off t.1.rx.maxRetries t.2 (handle P t.1 i).2 := by
  obtain ⟨hlog, hh⟩ := (handle_streams P i hf.mtu_pos hs.sized).retries hk h hf hs.sized hg
  exact ⟨⟨hs.step i, (hf.handle P hs i).1, hlog⟩, hh⟩

theorem loggedRun_settled (P : Platform ρ) (kChachaTx kChachaRx : Bytes 32)
    (is : List (Input ρ)) : Settled (loggedRun P kChachaTx kChachaRx is).1 ∧
      Flow (loggedRun P kChachaTx kChachaRx is).1.rx :=
  Machine.invariant (M := loggedSession P) (I := fun t ↦ Settled t.1 ∧ Flow t.1.rx)
    (fun _ i ⟨hs, hf⟩ ↦ ⟨hs.step i, (hf.handle P hs i).1⟩)
    ⟨fresh_settled _ _, fresh_flow _ _⟩ is

/-- As long as the counter of a fragment is charged for its retransmissions alone, from
the last `HELLO` on, the fragment is given up only after `1 + max_retries` transmissions,
whatever has happened to others. -/
theorem timeouts_honest (P : Platform ρ) (kChachaTx kChachaRx : Bytes 32) {as bs : List (Input ρ)}
    (hk : kind = 0 ∨ kind = 1) (hs : as = [] ∨ ∀ i ∈ bs.head?, i.event.IsHello)
    (hg : (session P).Guarded (ChargesFragment P kind off)
      (loggedRun P kChachaTx kChachaRx as).1 bs) :
    (loggedSession P).Guarded
      (fun t i ↦ HonestTimeout kind off t.1.rx.maxRetries t.2 (handle P t.1 i).2)
      (loggedRun P kChachaTx kChachaRx as) bs := by
  have hg' : (loggedSession P).Guarded (fun t i ↦ ChargesFragment P kind off t.1 i)
    (loggedRun P kChachaTx kChachaRx as) bs := Machine.guarded_since.mpr hg
  obtain ⟨hset, hf⟩ := loggedRun_settled P kChachaTx kChachaRx as
  cases bs with
  | nil => trivial
  | cons i bs =>
    have hlog : ¬ i.event.IsHello → RetryLog kind off
        (loggedRun P kChachaTx kChachaRx as).1.rx (loggedRun P kChachaTx kChachaRx as).2 := by
      intro hi
      obtain rfl := hs.resolve_right fun h ↦ hi (h i rfl)
      have hempty : (HqcSession.fresh kChachaTx kChachaRx).rx.stream kind = {} :=
        HqcRxBuf.forall_stream (Q := fun st ↦ st = {}) rfl rfl kind
      exact fun j _ hw ↦ absurd hw (not_awaits_of_empty hempty j)
    obtain ⟨hstate, hh⟩ := retryState_step hk hset hf hlog hg'.1
    refine ⟨hh, hg'.2.of_invariant (fun t i ht hi ↦ ?_) hstate⟩
    exact retryState_step hk ht.settled ht.flow (fun _ ↦ ht.retryLog) hi

def StaticOnly (off : Nat) (s : HqcSession) (i : Input ρ) : Prop :=
  match i.event with
  | .hello _ => True
  | .tick => s.rx.cte.len = 0
  | .ctAck m => m.ctKind = 1 ∧
    ∀ j ∈ s.rx.ackFragments m, j * s.rx.mtu = off → off < (s.rx.stream 1).sent
  | _ => False

instance (off : Nat) (s : HqcSession) : ∀ i : Input ρ, Decidable (StaticOnly off s i)
  | ⟨.tick, _⟩ => inferInstanceAs (Decidable (_ = _))
  | ⟨.ctAck _, _⟩ => inferInstanceAs (Decidable (_ ∧ _))
  | ⟨.hello _, _⟩ => isTrue trivial
  | ⟨.pkChunk _, _⟩ | ⟨.finish _, _⟩ => isFalse id

theorem StaticOnly.chargesFragment (h : StaticOnly off s i) : ChargesFragment P 1 off s i := by
  unfold StaticOnly at h
  unfold ChargesFragment
  cases hi : i.event with
  | hello m => trivial
  | tick =>
    rw [hi] at h
    intro kind ct j hk hc hr hj hw
    refine hk.resolve_left ?_
    rintro rfl
    exact hc.len h
  | ctAck m =>
    rw [hi] at h
    exact fun hm j hj hoff hw ↦ ⟨h.1, h.2 j hj hoff⟩
  | _ =>
    rw [hi] at h
    exact h.elim

/-- All of the first window but fragment 0 is acknowledged, which brings the next
window; then nothing more comes. -/
def sampleGap : List (Input UInt8) :=
  [⟨.hello (sampleHello 1), sampleEnv 0 1⟩, ⟨.ctAck ⟨7, 1, 0, 0xFE⟩, sampleEnv 600 0⟩] ++
    [1300, 2600, 5100].map sampleTick

theorem timeouts_honest_sample :
    (∃ o ∈ (session samplePlatform).outputs (.fresh (Bytes.zeros 32) (Bytes.zeros 32))
      sampleGap, o.GivesUp 1 0) ∧
    (loggedSession samplePlatform).Guarded
      (fun t i ↦ HonestTimeout 1 0 t.1.rx.maxRetries t.2 (handle samplePlatform t.1 i).2)
      (.fresh (Bytes.zeros 32) (Bytes.zeros 32), []) sampleGap := by
  have hg : (session samplePlatform).Guarded (StaticOnly 0)
      (.fresh (Bytes.zeros 32) (Bytes.zeros 32)) sampleGap := by decide +kernel
  have hcharges : (session samplePlatform).Guarded (ChargesFragment samplePlatform 1 0)
      (.fresh (Bytes.zeros 32) (Bytes.zeros 32)) sampleGap :=
    hg.imp fun _ _ ↦ StaticOnly.chargesFragment
  exact ⟨by decide +kernel, timeouts_honest samplePlatform (Bytes.zeros 32) (Bytes.zeros 32)
    (.inr rfl) (.inl rfl) hcharges⟩

def sampleStall : List (Input UInt8) :=
  [⟨.hello (sampleHello 1), sampleEnv 0 1⟩, ⟨.ctAck (sampleAckTo 1 1760), sampleEnv 600 0⟩] ++
    [700, 1950].map sampleTick

/-- The acknowledgement has charged the first transmission of the fragment at 1760
to its retries: it is given up after three. -/
theorem early_timeout : ¬ (loggedSession samplePlatform).Guarded
    (fun t i ↦ HonestTimeouts t.1.rx.maxRetries t.2 (handle samplePlatform t.1 i).2)
    (.fresh (Bytes.zeros 32) (Bytes.zeros 32), []) (sampleStall ++ [sampleTick 4400]) := by
  intro h
  have hlast := (Machine.guarded_snoc.mp h).2
  have hgu : ∃ o ∈ (handle samplePlatform (sampleLogged sampleStall).1 (sampleTick 4400)).2,
      o.GivesUp 1 1760 := by decide +kernel
  have hmax : (sampleLogged sampleStall).1.rx.maxRetries = 3 := by decide +kernel
  have hsent : transmissions ((sampleLogged sampleStall).2 ++
      (handle samplePlatform (sampleLogged sampleStall).1 (sampleTick 4400)).2) 1 1760 = 3 := by
    decide +kernel
  unfold sampleLogged loggedRun at hgu hmax hsent
  obtain ⟨o, ho, hgu⟩ := hgu
  have hle := hlast 1 1760 (.inr rfl) o ho hgu
  rw [hmax, hsent] at hle
  exact absurd hle (by decide)

end KemtlsMavlink
