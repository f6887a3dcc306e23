import KemtlsMavlink.Session.Flow
import KemtlsMavlink.Session.WaitCf

namespace KemtlsMavlink

open Library

variable {ρ : Type} {P : Platform ρ} {R : UInt8 → Nat → Prop} {s : HqcSession} {i : Input ρ}
  {rx rx' : HqcRxBuf} {log log' fx : List Effect} {kind : UInt8} {ct : Block}

/-- A session with what has been sent in it: the log starts with the answer to
its `HELLO`. -/
def loggedSession (P : Platform ρ) : Machine (HqcSession × List Effect) (Input ρ) Effect :=
  (session P).since fun i ↦ i.event.IsHello

/-- Every acknowledged fragment of a ciphertext that is held has been sent. -/
def AckedSent (rx : HqcRxBuf) (log : List Effect) : Prop :=
  ∀ kind, kind = 0 ∨ kind = 1 → ∀ ct, rx.Holds kind ct →
    ∀ j, (rx.stream kind).acked.getD j false = true → rx.fragment kind ct j ∈ log

/-- Both ciphertexts are held, and every byte of them has been sent. -/
def Transmitted (rx : HqcRxBuf) (log : List Effect) : Prop :=
  ∀ kind, kind = 0 ∨ kind = 1 → ∃ ct, rx.Holds kind ct ∧ ∀ b < (rx.stream kind).len,
    ∃ c, .ctChunk c ∈ log ∧ c.ctKind = kind ∧ c.offset ≤ b ∧ b < c.offset + c.count ∧
      c.SliceOf (ct.read 0 (rx.stream kind).len)

/-- A `CT_ACK` names fragments that have been sent, and does not make the handler
send new fragments under a kind that no ciphertext has; and `start_encap` does
not fail on the buffer of a ciphertext that is there. -/
def AcksSent (P : Platform ρ) (s : HqcSession) (i : Input ρ) : Prop :=
  match i.event with
  | .ctAck m => m.Held s.rx →
    (∀ j, j * s.rx.mtu < (s.rx.stream m.ctKind).len → m.Names s.rx.mtu j →
      j * s.rx.mtu < (s.rx.stream m.ctKind).sent) ∧
    (m.ctKind = 0 ∨ m.ctKind = 1 ∨
      ∀ j ∈ s.rx.ackFragments m, j * s.rx.mtu < (s.rx.stream m.ctKind).sent)
  | .pkChunk _ => s.rx.cte.len ≠ 0 → ¬ EncapResult P s i false
  | _ => True

/-- Of a ciphertext, everything below `sent_bytes` has been sent, and nothing
else is acknowledged. -/
structure StreamSent (rx : HqcRxBuf) (log : List Effect) (kind : UInt8) (ct : Block) : Prop where
  sent : ∀ j, j * rx.mtu < (rx.stream kind).sent → rx.fragment kind ct j ∈ log
  acked : ∀ j, (rx.stream kind).acked.getD j false = true → j * rx.mtu < (rx.stream kind).sent

def SentLog (rx : HqcRxBuf) (log : List Effect) : Prop :=
  ∀ kind, kind = 0 ∨ kind = 1 → ∀ ct, rx.Holds kind ct → StreamSent rx log kind ct

theorem SentLog.ackedSent (h : SentLog rx log) : AckedSent rx log := by
  intro kind hk ct hc j hj
  have hs := h kind hk ct hc
  exact hs.sent j (hs.acked j hj)

theorem fragment_congr (hid : rx'.sessionId = rx.sessionId) (hm : rx'.mtu = rx.mtu)
    (hl : (rx'.stream kind).len = (rx.stream kind).len) (ct : Block) (j : Nat) :
    rx'.fragment kind ct j = rx.fragment kind ct j := by
  unfold HqcRxBuf.fragment
  rw [hid, hm, hl]

theorem HqcRxBuf.Holds.unique {ct' : Block} (h : rx.Holds kind ct) (h' : rx.Holds kind ct') :
    ct = ct' :=
  Option.some.inj (h.buf.symm.trans h'.buf)

theorem StreamSent.mono (h : StreamSent rx log kind ct) (hid : rx'.sessionId = rx.sessionId)
    (hm : rx'.mtu = rx.mtu) (hl : (rx'.stream kind).len = (rx.stream kind).len)
    (ha : (rx'.stream kind).acked = (rx.stream kind).acked)
    (hs : (rx'.stream kind).sent = (rx.stream kind).sent) (fx : List Effect) :
    StreamSent rx' (log ++ fx) kind ct := by
  refine ⟨fun j hj ↦ ?_, fun j hj ↦ ?_⟩
  · rw [hs, hm] at hj
    rw [fragment_congr hid hm hl]
    exact List.mem_append_left _ (h.sent j hj)
  · rw [hs, hm]
    rw [ha] at hj
    exact h.acked j hj

theorem StreamSent.same (h : StreamSent rx log kind ct) (hid : rx'.sessionId = rx.sessionId)
    (hm : rx'.mtu = rx.mtu) (hst : rx'.stream kind = rx.stream kind) (fx : List Effect) :
    StreamSent rx' (log ++ fx) kind ct :=
  h.mono hid hm (by rw [hst]) (by rw [hst]) (by rw [hst]) fx

theorem kind_eq {kind' : UInt8} (hk : kind = 0 ∨ kind = 1) (hk' : kind' = 0 ∨ kind' = 1)
    (h : kind = 0 ↔ kind' = 0) : kind' = kind := by
  rcases hk with rfl | rfl
  · exact h.mp rfl
  · exact hk'.resolve_left fun h' ↦ absurd (h.mpr h') (by decide)

theorem SentLog.window (h : SentLog rx log) (hf : Flow rx) (hk : kind = 0 ∨ kind = 1)
    (hc : rx.Holds kind ct) (budget : Nat) :
    SentLog (rx.setSent kind (rx.sendWindow kind ct budget).2)
      (log ++ (rx.sendWindow kind ct budget).1) := by
  have hsame := sameStreams_setSent rx kind (rx.sendWindow kind ct budget).2
  intro kind' hk' ct' hc'
  have hold : rx.Holds kind' ct' := ⟨hsame.buf kind' ▸ hc'.buf, hsame.len kind' ▸ hc'.len⟩
  have hs := h kind' hk' ct' hold
  have hst := stream_setSent rx kind kind' (rx.sendWindow kind ct budget).2
  by_cases hkk : kind = 0 ↔ kind' = 0
  · obtain rfl := kind_eq hk hk' hkk
    obtain rfl := hold.unique hc
    rw [if_pos hkk] at hst
    refine ⟨fun j hj ↦ ?_, fun j hj ↦ ?_⟩
    · rw [hst, hsame.mtu] at hj
      rw [fragment_congr hsame.sessionId hsame.mtu (hsame.len _)]
      by_cases hlt : j * rx.mtu < (rx.stream kind').sent
      · exact List.mem_append_left _ (hs.sent j hlt)
      · exact List.mem_append_right _ (mem_sendWindow hf hj hlt)
    · rw [hst] at hj ⊢
      rw [hsame.mtu]
      exact Nat.lt_of_lt_of_le (hs.acked j hj) (le_sendWindow hf ct' budget)
  · rw [if_neg hkk] at hst
    exact hs.same hsame.sessionId hsame.mtu hst _

theorem SentLog.step (h : SentLog rx log) (hf : Flow rx) (hs : RxStep R rx rx' fx) :
    SentLog rx' (log ++ fx) := by
  cases hs with
  | resend kind ct j hk hc hr hj hin ht =>
    intro kind' hk' ct' hc'
    have hs := h kind' hk' ct' ⟨hc'.buf, hc'.len⟩
    refine hs.same ?_ ?_ ?_ _ <;> rfl
  | probe kind ct j hk hc hj =>
    intro kind' hk' ct' hc'
    exact (h kind' hk' ct' hc').same rfl rfl rfl _
  | window kind ct budget hk hc hb => exact h.window hf hk hc budget

theorem SentLog.steps (h : SentLog rx log) (hf : Flow rx) (hs : RxSteps R rx rx' fx) :
    SentLog rx' (log ++ fx) := by
  induction hs generalizing log with
  | refl rx => rwa [List.append_nil]
  | head hstep hrest ih =>
    rw [← List.append_assoc]
    exact ih (h.step hf hstep) (hf.step hstep).1

theorem acked_of_marked (hz : rx.Sized) {m : CtAck} {j : Nat}
    (h : (rx.marked m).acked.getD j false = true) :
    (rx.stream m.ctKind).acked.getD j false = true ∨
      j < (rx.stream m.ctKind).chunks rx.mtu ∧ m.Names rx.mtu j := by
  have hmark := (getD_markAcked CtStream.length_sizedAcks m rx.mtu j).mp h
  rwa [hz.stream] at hmark

theorem StreamSent.marked (h : StreamSent rx log kind ct) (hz : rx.Sized) {m : CtAck}
    (hst : rx.stream m.ctKind = rx.stream kind)
    (hn : ∀ j, j * rx.mtu < (rx.stream m.ctKind).len → m.Names rx.mtu j →
      j * rx.mtu < (rx.stream m.ctKind).sent) (hm : 0 < rx.mtu) {j : Nat}
    (hj : (rx.marked m).acked.getD j false = true) : j * rx.mtu < (rx.stream kind).sent := by
  rw [← hst]
  rcases acked_of_marked hz hj with ha | ⟨hlt, hname⟩
  · rw [hst] at ha ⊢
    exact h.acked j ha
  · exact hn j ((lt_fragments hm).mp hlt) hname

theorem mem_ackFragments_of_sent (hf : Flow rx) (hz : rx.Sized) {m : CtAck} {j : Nat}
    (hu : (rx.marked m).acked.getD j false = false) (hj : j * rx.mtu < (rx.ackRun m ct).2.sent)
    (hlt : ¬ j * rx.mtu < (rx.stream m.ctKind).sent) : j ∈ rx.ackFragments m := by
  have hs := HqcRxBuf.ackRun_sent (m := m) hf.mtu_pos ct
  have hle := ((hf.ack hz m ct).stream m.ctKind).aligned.le_and.1
  rw [stream_applyCtAck, if_pos Iff.rfl] at hle
  have hj' : j < (rx.marked m).chunks rx.mtu :=
    (lt_fragments hf.mtu_pos).mpr (Nat.lt_of_lt_of_le hj hle)
  exact (hs.cover j (List.mem_range.mpr hj') hu hj).resolve_left hlt

theorem SentLog.ack (h : SentLog rx log) (hf : Flow rx) (hz : rx.Sized) {m : CtAck}
    (hb : (rx.stream m.ctKind).buf = some ct)
    (hn : ∀ j, j * rx.mtu < (rx.stream m.ctKind).len → m.Names rx.mtu j →
      j * rx.mtu < (rx.stream m.ctKind).sent)
    (hk : m.ctKind = 0 ∨ m.ctKind = 1 ∨
      ∀ j ∈ rx.ackFragments m, j * rx.mtu < (rx.stream m.ctKind).sent) :
    SentLog (applyCtAck rx m ct).1 (log ++ (rx.ackRun m ct).1) := by
  have hs := HqcRxBuf.ackRun_sent (m := m) hf.mtu_pos ct
  intro kind hkind ct' hc
  have hold : rx.Holds kind ct' := hc.of_applyCtAck
  have hst := stream_applyCtAck rx m ct kind
  by_cases hkk : m.ctKind = 0 ↔ kind = 0
  · rw [if_pos hkk] at hst
    have hstream : rx.stream m.ctKind = rx.stream kind := stream_of_ctKind hkk
    obtain rfl : ct = ct' := by
      rw [hstream] at hb
      exact Option.some.inj (hb.symm.trans hold.buf)
    have hsent := h kind hkind ct hold
    refine ⟨fun j hj ↦ ?_, fun j hj ↦ ?_⟩
    · rw [hst, applyCtAck_mtu] at hj
      rw [fragment_congr (applyCtAck_sessionId ..) (applyCtAck_mtu ..) (stream_applyCtAck_len ..)]
      by_cases hlt : j * rx.mtu < (rx.stream kind).sent
      · exact List.mem_append_left _ (hsent.sent j hlt)
      · have hu : (rx.marked m).acked.getD j false = false :=
          Bool.eq_false_iff.mpr fun ht ↦ hlt (hsent.marked hz hstream hn hf.mtu_pos ht)
        have hl := mem_ackFragments_of_sent hf hz hu hj (hstream ▸ hlt)
        have hkm : m.ctKind = 0 ∨ m.ctKind = 1 := by
          rcases hk with hk | hk | hk
          · exact .inl hk
          · exact .inr hk
          · exact absurd (hk j hl) (hstream ▸ hlt)
        rw [hs.effects, kind_eq hkm hkind hkk]
        exact List.mem_append_right _ (List.mem_map_of_mem hl)
    · rw [hst] at hj ⊢
      rw [applyCtAck_mtu]
      have hle : (rx.stream kind).sent ≤ (rx.ackRun m ct).2.sent := hstream ▸ hs.le
      exact Nat.lt_of_lt_of_le (hsent.marked hz hstream hn hf.mtu_pos hj) hle
  · rw [if_neg hkk] at hst
    exact (h kind hkind ct' hold).same (applyCtAck_sessionId ..) (applyCtAck_mtu ..) hst _

theorem Opened.sentLog (h : Opened rx kind ct fx) (hm : 0 < rx.mtu) (log : List Effect) :
    StreamSent rx (log ++ fx) kind ct := by
  refine ⟨fun j hj ↦ List.mem_append_right _ (h.mem_of_sent hm hj), fun j hj ↦ ?_⟩
  rw [h.stream] at hj
  exact nomatch (getD_replicate_false _ j).symm.trans hj

def nextLog (i : Input ρ) (log fx : List Effect) : List Effect :=
  (if i.event.IsHello then [] else log) ++ fx

theorem nextLog_of_not_isHello (hi : ¬ i.event.IsHello) (log fx : List Effect) :
    nextLog i log fx = log ++ fx := by rw [nextLog, if_neg hi]

theorem StreamStep.sentLog (hs : StreamStep P s i rx fx) (h : SentLog s.rx log) (hf : Flow s.rx)
    (hz : s.rx.Sized) (hg : AcksSent P s i) : SentLog rx (nextLog i log fx) := by
  cases hs with
  | kept rx fx hp hb hi hfx =>
    rw [nextLog_of_not_isHello hi]
    intro kind hk ct hc
    have hold : s.rx.Holds kind ct := ⟨hb kind ct hc.buf, hp.len kind ▸ hc.len⟩
    exact (h kind hk ct hold).mono hp.sessionId hp.mtu (hp.len _) (hp.acked _) (hp.sent _) _
  | cleared rx fx hcl hfx =>
    intro kind hk ct hc
    exact absurd (congrArg CtStream.len (hcl.stream kind)) hc.len
  | tick rx fx hi hsteps =>
    rw [nextLog_of_not_isHello (by rw [hi]; exact id)]
    exact h.steps hf hsteps
  | exhausted rx rx' fx kind ct j hi hsteps hk hc hin ht hcl =>
    intro kind hk ct hc
    exact absurd (congrArg CtStream.len (hcl.stream kind)) hc.len
  | ack m ct rx hi hm hb hr =>
    rw [nextLog_of_not_isHello (by rw [hi]; exact id)]
    unfold AcksSent at hg
    rw [hi] at hg
    obtain ⟨hn, hk⟩ := hg hm
    have hack := h.ack hf hz hb hn hk
    rcases hr with rfl | rfl
    · exact hack
    · intro kind hk ct hc
      have hs := hack kind hk ct ⟨hc.buf, hc.len⟩
      exact ⟨hs.sent, hs.acked⟩
  | overwritten rx fx hp hs ho hfx =>
    obtain ⟨m, pke, ct, hi, -⟩ := id ho
    rw [nextLog_of_not_isHello (by rw [hi]; exact id)]
    unfold AcksSent at hg
    rw [hi] at hg
    have hlen : s.rx.cte.len = 0 := by
      by_contra hlen
      exact hg hlen ho
    intro kind hk ct hc
    rcases hk with rfl | rfl
    · exact absurd ((hp.len 0).trans hlen) hc.len
    · have hold : s.rx.Holds 1 ct := ⟨hs ▸ hc.buf, hs ▸ hc.len⟩
      exact (h 1 (.inr rfl) ct hold).same hp.sessionId hp.mtu hs _
  | encapsulated rx fx ct hi hid hmtu hx hr hw hs ho =>
    obtain ⟨m, pke, ct₀, hi, -⟩ := hi
    rw [nextLog_of_not_isHello (by rw [hi]; exact id)]
    intro kind hk ct' hc
    rcases hk with rfl | rfl
    · obtain rfl := hc.unique ho.holds
      exact ho.sentLog (hmtu ▸ hf.mtu_pos) log
    · have hold : s.rx.Holds 1 ct' := ⟨hs ▸ hc.buf, hs ▸ hc.len⟩
      exact (h 1 (.inr rfl) ct' hold).same hid hmtu hs _
  | accepted rx fx ct hi hmtu hr hs ho =>
    rw [nextLog, if_pos hi]
    intro kind hk ct' hc
    rcases hk with rfl | rfl
    · exact absurd (congrArg CtStream.len hs) hc.len
    · obtain rfl := hc.unique ho.holds
      exact ho.sentLog (by rw [hmtu]; decide) []

theorem Settled.holds (h : Settled s) (hs : s.state = .waitCf) (hk : kind = 0 ∨ kind = 1) :
    ∃ ct, s.rx.Holds kind ct := by
  rcases h with h | ⟨m, h⟩
  · exact absurd h.state (by rw [hs]; decide)
  · have hlen : s.rx.cte.len ≠ 0 := by
      rcases h.state with hst | ⟨-, hlen⟩ | ⟨hst, -⟩
      · exact nomatch hst.symm.trans hs
      · exact hlen
      · exact nomatch hst.symm.trans hs
    rcases hk with rfl | rfl
    · obtain ⟨ct, hct⟩ := Option.isSome_iff_exists.mp (h.rx.cte.resolve_left hlen).2
      exact ⟨ct, hct, hlen⟩
    · obtain ⟨ct, hct⟩ := Option.isSome_iff_exists.mp h.rx.cts.1
      refine ⟨ct, hct, ?_⟩
      change s.rx.cts.len ≠ 0
      rw [h.rx.cts.2]
      decide

theorem StreamSent.bytes (h : StreamSent rx log kind ct) (hm : 0 < rx.mtu) (hz : rx.Sized)
    (hd : (rx.stream kind).done = true) {b : Nat} (hb : b < (rx.stream kind).len) :
    ∃ c, .ctChunk c ∈ log ∧ c.ctKind = kind ∧ c.offset ≤ b ∧ b < c.offset + c.count ∧
      c.SliceOf (ct.read 0 (rx.stream kind).len) := by
  have hle := Nat.div_mul_le_self b rx.mtu
  have hlt : b < b / rx.mtu * rx.mtu + rx.mtu := Nat.lt_div_mul_add hm
  have hj : b / rx.mtu < (rx.stream kind).acked.length := by
    rw [hz.length]
    exact (lt_fragments hm).mpr (Nat.lt_of_le_of_lt hle hb)
  have hacked := (allAcked_iff.mp (Bool.and_eq_true_iff.mp hd).1).2 _ hj
  refine ⟨_, h.sent _ (h.acked _ hacked), rfl, hle, ?_, ctChunkAt_sliceOf ct _ kind _ _ _⟩
  change b < b / rx.mtu * rx.mtu + min rx.mtu ((rx.stream kind).len - b / rx.mtu * rx.mtu)
  omega

/-- A run from a fresh session, with the log of its last handshake. -/
def loggedRun (P : Platform ρ) (kChachaTx kChachaRx : Bytes 32) (is : List (Input ρ)) :
    HqcSession × List Effect :=
  (loggedSession P).final (.fresh kChachaTx kChachaRx, []) is

/-- What the runs keep up in which acknowledgements are for what was sent. -/
structure SentState (t : HqcSession × List Effect) : Prop where
  settled : Settled t.1
  flow : Flow t.1.rx
  sentLog : SentLog t.1.rx t.2
  done : t.1.state = .waitCf → t.1.BothDone

theorem SentState.step {t : HqcSession × List Effect} (h : SentState t) (hg : AcksSent P t.1 i) :
    SentState ((loggedSession P).step t i).1 := by
  have hz := h.settled.sized
  exact ⟨h.settled.step i, (h.flow.handle P h.settled i).1,
    (handle_streams P i h.flow.mtu_pos hz).sentLog h.sentLog h.flow hz hg,
    handle_waitCf_done hz h.done⟩

theorem SentState.transmitted {t : HqcSession × List Effect} (h : SentState t)
    (hs : t.1.state = .waitCf) : Transmitted t.1.rx t.2 := by
  intro kind hk
  obtain ⟨ct, hc⟩ := h.settled.holds hs hk
  have hd : (t.1.rx.stream kind).done = true := by
    rcases hk with rfl | rfl
    · exact (h.done hs).1
    · exact (h.done hs).2
  exact ⟨ct, hc, fun b hb ↦
    (h.sentLog kind hk ct hc).bytes h.flow.mtu_pos h.settled.sized hd hb⟩

theorem fresh_sentState (kChachaTx kChachaRx : Bytes 32) :
    SentState (.fresh kChachaTx kChachaRx, []) := by
  refine ⟨fresh_settled _ _, fresh_flow _ _, fun kind hk ct hc ↦ ?_, nofun⟩
  rcases hk with rfl | rfl
  · exact nomatch hc.buf
  · exact nomatch hc.buf

/-- Along the runs in which every acknowledgement is for what was sent, nothing
is acknowledged before it is sent, and `WAIT_CF` means that everything was. -/
theorem acked_fragments_sent (P : Platform ρ) (kChachaTx kChachaRx : Bytes 32)
    {is : List (Input ρ)} (hg : (session P).Guarded (AcksSent P) (.fresh kChachaTx kChachaRx) is) :
    AckedSent (loggedRun P kChachaTx kChachaRx is).1.rx (loggedRun P kChachaTx kChachaRx is).2 ∧
      ((loggedRun P kChachaTx kChachaRx is).1.state = .waitCf →
        Transmitted (loggedRun P kChachaTx kChachaRx is).1.rx
          (loggedRun P kChachaTx kChachaRx is).2) := by
  have hg' : (loggedSession P).Guarded (fun t i ↦ AcksSent P t.1 i)
    (.fresh kChachaTx kChachaRx, []) is := Machine.guarded_since.mpr hg
  have h : SentState (loggedRun P kChachaTx kChachaRx is) :=
    hg'.invariant (fun t i ht hi ↦ ht.step hi) (fresh_sentState _ _)
  exact ⟨h.sentLog.ackedSent, h.transmitted⟩

/-- A plain acknowledgement of what was sent, or the first completion of the key. -/
def PlainAck (s : HqcSession) (i : Input ρ) : Prop :=
  match i.event with
  | .ctAck m => m.mask = 0 ∧ (m.ctKind = 0 ∨ m.ctKind = 1) ∧
    (m.base.toNat ≤ (s.rx.stream m.ctKind).sent ∨
      (s.rx.stream m.ctKind).sent = (s.rx.stream m.ctKind).len)
  | .pkChunk _ => s.rx.cte.len = 0
  | _ => True

instance (s : HqcSession) : ∀ i : Input ρ, Decidable (PlainAck s i)
  | ⟨.ctAck _, _⟩ => inferInstanceAs (Decidable (_ ∧ (_ ∨ _) ∧ (_ ∨ _)))
  | ⟨.pkChunk _, _⟩ => inferInstanceAs (Decidable (_ = _))
  | ⟨.hello _, _⟩ | ⟨.finish _, _⟩ | ⟨.tick, _⟩ => isTrue trivial

theorem PlainAck.acksSent (h : PlainAck s i) : AcksSent P s i := by
  unfold PlainAck at h
  unfold AcksSent
  cases hi : i.event with
  | ctAck m =>
    rw [hi] at h
    obtain ⟨hmask, hk, hb⟩ := h
    refine fun _ ↦ ⟨fun j hj hn ↦ ?_, hk.imp_right .inl⟩
    rcases hb with hb | hs
    · have hlt : j < m.base.toNat / s.rx.mtu := by
        refine hn.resolve_right fun ⟨k, _, hbit, _⟩ ↦ ?_
        rw [hmask, UInt32.zero_shiftRight, UInt32.zero_and] at hbit
        exact nomatch hbit
      have hm : 0 < s.rx.mtu := Nat.pos_of_ne_zero fun h ↦ by simp [h] at hlt
      have hle := (Nat.le_div_iff_mul_le hm).mp hlt
      rw [Nat.succ_mul] at hle
      omega
    · exact hs ▸ hj
  | pkChunk m =>
    rw [hi] at h
    exact fun hlen ↦ absurd h hlen
  | _ => trivial

def sampleAckTo (kind : UInt8) (base : UInt32) : CtAck := ⟨7, kind, base, 0⟩

def sampleTransfer : List (Input UInt8) :=
  [⟨.hello (sampleHello 1), sampleEnv 0 1⟩, ⟨.pkChunk (sampleChunk 0 1), sampleEnv 1 2⟩] ++
    [0, 1].flatMap fun kind ↦
      [1760, 3520, 4620].map fun base ↦ ⟨.ctAck (sampleAckTo kind base), sampleEnv 2 0⟩

def sampleLogged (is : List (Input UInt8)) : HqcSession × List Effect :=
  loggedRun samplePlatform (Bytes.zeros 32) (Bytes.zeros 32) is

theorem acked_fragments_sent_sample :
    AckedSent (sampleLogged sampleTransfer).1.rx (sampleLogged sampleTransfer).2 ∧
      Transmitted (sampleLogged sampleTransfer).1.rx (sampleLogged sampleTransfer).2 := by
  have hg : (session samplePlatform).Guarded PlainAck (.fresh (Bytes.zeros 32) (Bytes.zeros 32))
      sampleTransfer := by decide +kernel
  have hs : (sampleLogged sampleTransfer).1.state = .waitCf := by decide +kernel
  have h := acked_fragments_sent samplePlatform (Bytes.zeros 32) (Bytes.zeros 32)
    (hg.imp fun _ _ ↦ PlainAck.acksSent)
  exact ⟨h.1, h.2 hs⟩

def Effect.EndsBy (b : Nat) : Effect → Prop
  | .ctChunk c => c.offset + c.count ≤ b
  | _ => True

instance (b : Nat) : DecidablePred (Effect.EndsBy b)
  | .ctChunk _ => inferInstanceAs (Decidable (_ ≤ _))
  | .helloAck _ | .pkAck .. | .hqcStatus .. | .hqcAbort .. | .sendText .. | .fsOpen | .fsClose
  | .pkeCopy .. | .pksStore .. | .apKemEnc .. | .enableSigningWithKey _ => isTrue trivial

/-- Two acknowledgements of everything, after the first window of each ciphertext,
lead to `WAIT_CF` with the last fragments acknowledged and never sent. -/
theorem early_ack_skips_fragments :
    (sampleLogged (sampleHandshake 1)).1.state = .waitCf ∧
      ¬ AckedSent (sampleLogged (sampleHandshake 1)).1.rx (sampleLogged (sampleHandshake 1)).2 ∧
      ¬ Transmitted (sampleLogged (sampleHandshake 1)).1.rx
        (sampleLogged (sampleHandshake 1)).2 := by
  have hlog : ∀ o ∈ (sampleLogged (sampleHandshake 1)).2, o.EndsBy 4400 := by decide +kernel
  have hmtu : (sampleLogged (sampleHandshake 1)).1.rx.mtu = 220 := by decide +kernel
  have hlen : ((sampleLogged (sampleHandshake 1)).1.rx.stream 1).len = 4433 := by decide +kernel
  have hbuf : ((sampleLogged (sampleHandshake 1)).1.rx.stream 1).buf.isSome := by decide +kernel
  have hacked : ((sampleLogged (sampleHandshake 1)).1.rx.stream 1).acked.getD 20 false = true := by
    decide +kernel
  refine ⟨by decide +kernel, fun h ↦ ?_, fun h ↦ ?_⟩
  · obtain ⟨ct, hct⟩ := Option.isSome_iff_exists.mp hbuf
    have hends := hlog _ (h 1 (.inr rfl) ct ⟨hct, by rw [hlen]; decide⟩ 20 hacked)
    change 20 * _ + min _ (_ - 20 * _) ≤ 4400 at hends
    rw [hmtu, hlen] at hends
    omega
  · obtain ⟨ct, -, h⟩ := h 1 (.inr rfl)
    obtain ⟨c, hc, -, -, hlt, -⟩ := h 4400 (by rw [hlen]; decide)
    exact absurd (Nat.lt_of_lt_of_le hlt (hlog _ hc)) (Nat.lt_irrefl _)

end KemtlsMavlink
