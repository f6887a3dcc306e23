import KemtlsMavlink.Session.Phase
import KemtlsMavlink.Session.Streams

namespace KemtlsMavlink

open Library

variable {ρ : Type} {P : Platform ρ} {s : HqcSession} {i : Input ρ} {rx rx' : HqcRxBuf}
  {fx : List Effect} {kind : UInt8}

namespace HqcRxBuf

variable (rx : HqcRxBuf) (m : CtAck)

def marked : CtStream := markedStream (rx.stream m.ctKind) rx.mtu m

def ackStart : AckSend :=
  ⟨(rx.marked m).sent,
    dropRetries rx.retries (rx.marked m).acked ((rx.marked m).chunks rx.mtu) rx.mtu, 0⟩

def markedInflight : Nat :=
  CtStream.inflight (rx.marked m).acked ((rx.marked m).chunks rx.mtu) rx.mtu (rx.marked m).sent

def ackFragments : List Nat :=
  ackSendList rx.mtu rx.window rx.maxRetries (rx.marked m).acked (rx.markedInflight m)
    (List.range ((rx.marked m).chunks rx.mtu)) (rx.ackStart m)

def ackRun (ct : Block) : List Effect × AckSend :=
  ackSend ct rx.sessionId m.ctKind rx.mtu (rx.marked m).len rx.window rx.maxRetries
    (rx.marked m).acked (rx.markedInflight m) (List.range ((rx.marked m).chunks rx.mtu))
    (rx.ackStart m)

variable {rx m}

theorem ackRun_sent (hm : 0 < rx.mtu) (ct : Block) :
    AckSent ct rx.sessionId m.ctKind rx.mtu (rx.stream m.ctKind).len (rx.marked m).acked
      (List.range ((rx.marked m).chunks rx.mtu)) (rx.ackStart m) (rx.ackFragments m)
      (rx.ackRun m ct) :=
  ackSend_spec hm List.pairwise_lt_range fun _ hi ↦ (lt_fragments hm).mp (List.mem_range.mp hi)

theorem mem_ackFragments (hm : 0 < rx.mtu) {j : Nat} (h : j ∈ rx.ackFragments m) :
    j * rx.mtu < (rx.stream m.ctKind).len ∧ (rx.marked m).acked.getD j false = false ∧
      (j * rx.mtu < (rx.stream m.ctKind).sent →
        (rx.ackStart m).retries (j * rx.mtu) < rx.maxRetries) := by
  obtain ⟨hr, hs⟩ := List.mem_filter.mp (List.mem_of_mem_take h)
  obtain ⟨hu, ht⟩ := sendable_iff.mp hs
  refine ⟨(lt_fragments hm).mp (List.mem_range.mp hr), hu, fun hj ↦ ?_⟩
  exact UInt8.not_le.mp fun hle ↦ ht ⟨hj, hle⟩

theorem length_ackFragments : (rx.ackFragments m).length ≤ rx.window - rx.markedInflight m := by
  have h : (rx.ackFragments m).length ≤ rx.window - (0 + rx.markedInflight m) :=
    List.length_take_le ..
  rwa [Nat.zero_add] at h

end HqcRxBuf

theorem dropRetries_le (retries : Nat → UInt8) (acked : List Bool) (chunks mtu off : Nat) :
    dropRetries retries acked chunks mtu off ≤ retries off := by
  unfold dropRetries
  induction List.range chunks generalizing retries with
  | nil => exact UInt8.le_refl _
  | cons i is ih =>
    rw [List.foldl_cons]
    apply UInt8.le_trans (ih _)
    split_ifs
    · rw [Function.update_apply]
      split_ifs
      · exact UInt8.zero_le
      · exact UInt8.le_refl _
    · exact UInt8.le_refl _

theorem applyCtAck_eq (rx : HqcRxBuf) (m : CtAck) (ct : Block) : applyCtAck rx m ct =
    (({ rx with retries := (rx.ackRun m ct).2.retries }).setStream m.ctKind
      { rx.marked m with sent := (rx.ackRun m ct).2.sent }, (rx.ackRun m ct).1) := rfl

theorem stream_applyCtAck (rx : HqcRxBuf) (m : CtAck) (ct : Block) (kind : UInt8) :
    (applyCtAck rx m ct).1.stream kind =
      if m.ctKind = 0 ↔ kind = 0 then { rx.marked m with sent := (rx.ackRun m ct).2.sent }
      else rx.stream kind := by
  rw [applyCtAck_eq, stream_setStream]
  rfl

theorem applyCtAck_mtu (rx : HqcRxBuf) (m : CtAck) (ct : Block) :
    (applyCtAck rx m ct).1.mtu = rx.mtu := by
  rw [applyCtAck_eq, HqcRxBuf.setStream_mtu]

theorem applyCtAck_sessionId (rx : HqcRxBuf) (m : CtAck) (ct : Block) :
    (applyCtAck rx m ct).1.sessionId = rx.sessionId := by
  rw [applyCtAck_eq, HqcRxBuf.setStream_sessionId]

theorem applyCtAck_retries (rx : HqcRxBuf) (m : CtAck) (ct : Block) :
    (applyCtAck rx m ct).1.retries = (rx.ackRun m ct).2.retries := by
  rw [applyCtAck_eq, HqcRxBuf.setStream_retries]

theorem stream_of_ctKind {m : CtAck} (h : m.ctKind = 0 ↔ kind = 0) :
    rx.stream m.ctKind = rx.stream kind := if_congr h rfl rfl

theorem stream_applyCtAck_len (rx : HqcRxBuf) (m : CtAck) (ct : Block) (kind : UInt8) :
    ((applyCtAck rx m ct).1.stream kind).len = (rx.stream kind).len := by
  rw [stream_applyCtAck]
  split_ifs with hk
  · rw [← stream_of_ctKind hk]
    rfl
  · rfl

theorem HqcRxBuf.Holds.of_applyCtAck {m : CtAck} {ct ct' : Block}
    (h : (applyCtAck rx m ct).1.Holds kind ct') : rx.Holds kind ct' := by
  refine ⟨?_, stream_applyCtAck_len rx m ct kind ▸ h.len⟩
  have hbuf := h.buf
  rw [stream_applyCtAck] at hbuf
  split_ifs at hbuf with hk
  · rw [← stream_of_ctKind hk]
    exact hbuf
  · exact hbuf

def Effect.IsSilent : Effect → Prop
  | .ctChunk _ => False
  | .hqcAbort _ _ detail _ => detail = 2
  | _ => True

structure SameProgress (rx rx' : HqcRxBuf) : Prop where
  sessionId : rx'.sessionId = rx.sessionId
  mtu : rx'.mtu = rx.mtu
  window : rx'.window = rx.window
  maxRetries : rx'.maxRetries = rx.maxRetries
  retries : rx'.retries = rx.retries
  len : ∀ kind, (rx'.stream kind).len = (rx.stream kind).len
  acked : ∀ kind, (rx'.stream kind).acked = (rx.stream kind).acked
  sent : ∀ kind, (rx'.stream kind).sent = (rx.stream kind).sent

structure Cleared (rx : HqcRxBuf) : Prop where
  mtu : rx.mtu = 220
  stream : ∀ kind, rx.stream kind = {}

/-- The stream is new, and its first window is all that has been sent in the step. -/
structure Opened (rx : HqcRxBuf) (kind : UInt8) (ct : Block) (fx : List Effect) : Prop where
  stream : rx.stream kind = ⟨some ct, apKemCiphertextBytes,
    List.replicate (fragments rx.mtu apKemCiphertextBytes) false,
    (sendWindow ct rx.sessionId kind rx.mtu apKemCiphertextBytes rx.window 0).2⟩
  effects : ∃ fx₀, (∀ o ∈ fx₀, o.IsSilent) ∧
    fx = fx₀ ++ (sendWindow ct rx.sessionId kind rx.mtu apKemCiphertextBytes rx.window 0).1

/-- The input is a chunk that leaves the key complete, and the `ap_kem_enc` that
`start_encap` then calls has this result. -/
def EncapResult (P : Platform ρ) (s : HqcSession) (i : Input ρ) (ok : Bool) : Prop :=
  ∃ m pke ct, i.event = .pkChunk m ∧ pkChunkError s.rx m = none ∧
    (s.rx.afterChunk m).KeyComplete ∧ (s.rx.afterChunk m).pke = some pke ∧
    (s.rx.afterChunk m).encapBuf i.env = some ct ∧ (encapOut P i.env pke ct).ok = ok

inductive StreamStep (P : Platform ρ) (s : HqcSession) (i : Input ρ) :
    HqcRxBuf → List Effect → Prop
  | kept (rx : HqcRxBuf) (fx : List Effect) (h : SameProgress s.rx rx)
      (hb : ∀ kind ct, (rx.stream kind).buf = some ct → (s.rx.stream kind).buf = some ct)
      (hi : ¬ i.event.IsHello) (hfx : ∀ o ∈ fx, o.IsSilent) : StreamStep P s i rx fx
  | cleared (rx : HqcRxBuf) (fx : List Effect) (h : Cleared rx)
      (hfx : ∀ o ∈ fx, o.IsSilent) : StreamStep P s i rx fx
  | tick (rx : HqcRxBuf) (fx : List Effect) (hi : i.event = .tick)
      (h : RxSteps (s.Resends (i.env.millis 0)) s.rx rx fx) : StreamStep P s i rx fx
  | exhausted (rx rx' : HqcRxBuf) (fx : List Effect) (kind : UInt8) (ct : Block) (j : Nat)
      (hi : i.event = .tick) (h : RxSteps (s.Resends (i.env.millis 0)) s.rx rx fx)
      (hk : kind = 0 ∨ kind = 1) (hc : rx.Holds kind ct) (hf : rx.InFlight kind j)
      (ht : rx.maxRetries ≤ rx.retries (j * rx.mtu)) (hs : Cleared rx') :
      StreamStep P s i rx'
        (fx ++ [.hqcAbort rx.sessionId .timeout (detailOf kind) (j * rx.mtu)])
  | ack (m : CtAck) (ct : Block) (rx : HqcRxBuf) (hi : i.event = .ctAck m) (hm : m.Held s.rx)
      (hb : (s.rx.stream m.ctKind).buf = some ct)
      (hr : rx = (applyCtAck s.rx m ct).1 ∨
        rx = { (applyCtAck s.rx m ct).1 with retries := fun _ ↦ 0 }) :
      StreamStep P s i rx (s.rx.ackRun m ct).1
  | overwritten (rx : HqcRxBuf) (fx : List Effect) (h : SameProgress s.rx rx)
      (hs : rx.stream 1 = s.rx.stream 1) (ho : EncapResult P s i false)
      (hfx : ∀ o ∈ fx, o.IsSilent) : StreamStep P s i rx fx
  | encapsulated (rx : HqcRxBuf) (fx : List Effect) (ct : Block) (hi : EncapResult P s i true)
      (hid : rx.sessionId = s.rx.sessionId) (hm : rx.mtu = s.rx.mtu)
      (hx : rx.maxRetries = s.rx.maxRetries) (hr : rx.retries = s.rx.retries)
      (hw : rx.window = s.rx.window) (hs : rx.stream 1 = s.rx.stream 1)
      (ho : Opened rx 0 ct fx) : StreamStep P s i rx fx
  | accepted (rx : HqcRxBuf) (fx : List Effect) (ct : Block) (hi : i.event.IsHello)
      (hm : rx.mtu = 220) (hr : rx.retries = fun _ ↦ 0) (hs : rx.stream 0 = {})
      (ho : Opened rx 1 ct fx) : StreamStep P s i rx fx

theorem isSilent_of_setup {o : Effect} (h : o.IsSetup) : o.IsSilent := by
  cases o with
  | ctChunk c => exact h
  | hqcAbort sid status detail value => exact h.elim
  | _ => trivial

theorem cleared_wipe (s : HqcSession) : Cleared s.wipe.rx :=
  ⟨rfl, HqcRxBuf.forall_stream (Q := fun st ↦ st = {}) rfl rfl⟩

theorem hello_streams {m : Hello} (hi : i.event = .hello m) :
    StreamStep P s i (handleHqcHello P i.env s m).1.rx (handleHqcHello P i.env s m).2 := by
  have h := handleHqcHello_spec P i.env s m
  have hset : ∀ o, HelloEffect P i.env s m o → o.IsSilent := by
    intro o ho
    rcases ho with ho | ⟨k, fx, ok, -, -, rfl⟩
    · exact isSilent_of_setup ho
    · trivial
  generalize handleHqcHello P i.env s m = r at h ⊢
  cases h with
  | refused th alg fx hfx =>
    exact .cleared _ _ ⟨rfl, HqcRxBuf.forall_stream (Q := fun st ↦ st = {}) rfl rfl⟩
      fun o ho ↦ hset o (hfx o ho)
  | accepted pke cts k ss fx fx' hf hs hw hk hfx =>
    refine .accepted _ _ cts (by rw [hi]; trivial) rfl rfl rfl ⟨rfl, ?_⟩
    have hack : ∀ ack, (Effect.helloAck ack).IsSilent := fun _ ↦ trivial
    refine ⟨_, ?_, List.append_cons fx' _ _⟩
    exact List.forall_mem_append.mpr
      ⟨fun o ho ↦ hset o (hfx o ho), List.forall_mem_singleton.mpr (hack _)⟩

theorem sameProgress_afterChunk (rx : HqcRxBuf) (m : PkChunk) :
    SameProgress rx (rx.afterChunk m) := by
  obtain ⟨_, _, _, h⟩ := HqcRxBuf.afterChunk_eq rx m
  rw [h]
  exact ⟨rfl, rfl, rfl, rfl, rfl, fun _ ↦ rfl, fun _ ↦ rfl, fun _ ↦ rfl⟩

theorem stored_silent (sid : UInt64) (base : Nat) (mask : UInt32) (rx : HqcRxBuf) (c : PkChunk) :
    ∀ o ∈ (rx.storeFragment c).2 ++ [.pkAck sid base mask], o.IsSilent :=
  HqcRxBuf.forall_stored_effect (fun _ _ ↦ trivial) trivial rx c

theorem completeKey_done {e : Env ρ} {pke ct : Block} (hp : s.rx.pke = some pke)
    (hb : s.rx.encapBuf e = some ct) (ho : (encapOut P e pke ct).ok = true) :
    completeKey P e s =
      (encapsulatedSession P s pke (ct.write 0 (encapOut P e pke ct).ct.toList)
          (encapOut P e pke ct).ss,
        .apKemEnc 0 pke true :: (sendWindow (ct.write 0 (encapOut P e pke ct).ct.toList)
          s.rx.sessionId 0 s.rx.mtu apKemCiphertextBytes s.rx.window 0).1) := by
  have hp' : ((s.setTh (pkSummaryTh P s pke)).setState .encapReady).rx.pke = some pke := hp
  unfold completeKey
  simp only [hp]
  rw [startEncap_done hp' hb ho]
  rfl

theorem keyCompletion_streams {m : PkChunk} (hi : i.event = .pkChunk m)
    (he : pkChunkError s.rx m = none) (hk : (s.rx.afterChunk m).KeyComplete) {s₁ : HqcSession}
    (hs₁ : s₁.rx = s.rx.afterChunk m) {fx₀ : List Effect} (hfx : ∀ o ∈ fx₀, o.IsSilent) :
    StreamStep P s i (completeKey P i.env s₁).1.rx (fx₀ ++ (completeKey P i.env s₁).2) := by
  have hkeep := hs₁ ▸ sameProgress_afterChunk s.rx m
  obtain ⟨pke, hp⟩ := Option.isSome_iff_exists.mp
    (afterChunk_pke_isSome m (pkChunkError_eq_none.mp he).pke)
  have hp₁ : s₁.rx.pke = some pke := hs₁ ▸ hp
  have htext : ∀ o ∈ fx₀ ++ [encapFailedText], o.IsSilent :=
    List.forall_mem_append.mpr ⟨hfx, List.forall_mem_singleton.mpr trivial⟩
  have hkem : ∀ ok, ∀ o ∈ fx₀ ++ [.apKemEnc 0 pke ok], o.IsSilent := fun _ ↦
    List.forall_mem_append.mpr ⟨hfx, List.forall_mem_singleton.mpr trivial⟩
  have hstatic : s₁.rx.stream 1 = s.rx.stream 1 :=
    (congrArg HqcRxBuf.cts hs₁).trans (HqcRxBuf.afterChunk_cts s.rx m)
  by_cases hdone : ∃ ct, s₁.rx.encapBuf i.env = some ct ∧ (encapOut P i.env pke ct).ok = true
  · obtain ⟨ct, hb, ho⟩ := hdone
    rw [completeKey_done hp₁ hb ho]
    exact .encapsulated _ _ _ ⟨m, pke, ct, hi, he, hk, hp, hs₁ ▸ hb, ho⟩ hkeep.sessionId
      hkeep.mtu hkeep.maxRetries hkeep.retries hkeep.window hstatic
      ⟨rfl, _, hkem true, List.append_cons fx₀ _ _⟩
  · have hr := completeKey_spec (P := P) (e := i.env) hp₁
    generalize completeKey P i.env s₁ = r at hr ⊢
    cases hr with
    | noBuffer hb =>
      refine .kept _ _ hkeep (fun kind ct h ↦ ?_) (by rw [hi]; exact id) htext
      have hst : s₁.rx.stream kind = s.rx.stream kind := by rw [hs₁, HqcRxBuf.afterChunk_stream]
      exact hst ▸ h
    | failed ct hb ho =>
      refine .overwritten _ _ ⟨hkeep.sessionId, hkeep.mtu, hkeep.window, hkeep.maxRetries,
        hkeep.retries, fun kind ↦ ?_, fun kind ↦ ?_, fun kind ↦ ?_⟩ hstatic
        ⟨m, pke, ct, hi, he, hk, hp, hs₁ ▸ hb, ho⟩ ?_
      · rw [← hkeep.len kind]
        refine HqcRxBuf.stream_rel (R := fun a b ↦ a.len = b.len) ?_ ?_ kind <;> rfl
      · rw [← hkeep.acked kind]
        refine HqcRxBuf.stream_rel (R := fun a b ↦ a.acked = b.acked) ?_ ?_ kind <;> rfl
      · rw [← hkeep.sent kind]
        refine HqcRxBuf.stream_rel (R := fun a b ↦ a.sent = b.sent) ?_ ?_ kind <;> rfl
      · rw [List.append_cons]
        exact List.forall_mem_append.mpr ⟨hkem false, List.forall_mem_singleton.mpr trivial⟩
    | done ct fx hb ho hfx => exact absurd ⟨ct, hb, ho⟩ hdone

theorem pkChunk_streams {m : PkChunk} (hi : i.event = .pkChunk m) :
    StreamStep P s i (handleHqcPkChunk P i.env s m).1.rx (handleHqcPkChunk P i.env s m).2 := by
  have hn : ¬ i.event.IsHello := by
    rw [hi]
    exact id
  unfold handleHqcPkChunk
  simp only [HqcSession.noteRx_rx]
  cases he : pkChunkError s.rx m with
  | some err =>
    exact .kept _ _ ⟨rfl, rfl, rfl, rfl, rfl, fun _ ↦ rfl, fun _ ↦ rfl, fun _ ↦ rfl⟩
      (fun _ _ h ↦ h) hn (List.forall_mem_singleton.mpr trivial)
  | none =>
    have hfx := stored_silent (s.rx.afterChunk m).sessionId (s.rx.afterChunk m).pkeRcvd
      ((s.rx.afterChunk m).sackMask (s.rx.storeFragment m).1.baseFrag) s.rx m
    by_cases hk : (s.rx.afterChunk m).KeyComplete
    · simp only [hk, if_true]
      exact keyCompletion_streams hi he hk rfl hfx
    · simp only [hk, if_false]
      refine .kept _ _ (sameProgress_afterChunk s.rx m) (fun kind ct h ↦ ?_) hn hfx
      rwa [HqcSession.setRx_rx, HqcRxBuf.afterChunk_stream] at h

theorem ctAck_streams {m : CtAck} (hi : i.event = .ctAck m) :
    StreamStep P s i (handleHqcCtAck i.env s m).1.rx (handleHqcCtAck i.env s m).2 := by
  by_cases hm : m.Held s.rx
  · obtain ⟨ct, hb, h⟩ := handleHqcCtAck_held i.env hm
    rw [h]
    refine .ack m ct _ hi hm hb ?_
    unfold settleCtAck
    split
    · exact .inr rfl
    · exact .inl rfl
  · rw [handleHqcCtAck_ignored i.env hm]
    exact .kept _ _ ⟨rfl, rfl, rfl, rfl, rfl, fun _ ↦ rfl, fun _ ↦ rfl, fun _ ↦ rfl⟩
      (fun _ _ h ↦ h) (by rw [hi]; exact id) (List.forall_mem_nil _)

theorem finish_streams {m : Finish} (hi : i.event = .finish m) :
    StreamStep P s i (handleHqcFinish P i.env s m).1.rx (handleHqcFinish P i.env s m).2 := by
  have hn : ¬ i.event.IsHello := by
    rw [hi]
    exact id
  have h := handleHqcFinish_spec P i.env s m
  generalize handleHqcFinish P i.env s m = r at h ⊢
  cases h with
  | refused value status detail =>
    exact .kept _ _ ⟨rfl, rfl, rfl, rfl, rfl, fun _ ↦ rfl, fun _ ↦ rfl, fun _ ↦ rfl⟩
      (fun _ _ h ↦ h) hn (List.forall_mem_singleton.mpr trivial)
  | rejected s₀ hs =>
    exact .cleared _ _ (cleared_wipe s₀) (List.forall_mem_singleton.mpr trivial)
  | accepted ha =>
    refine .kept _ _ ⟨rfl, rfl, rfl, rfl, rfl, ?_, ?_, ?_⟩ (fun kind ct h ↦ ?_) hn
      (List.forall_mem_cons.mpr ⟨trivial, List.forall_mem_singleton.mpr trivial⟩)
    · exact HqcRxBuf.stream_rel (R := fun a b ↦ a.len = b.len) rfl rfl
    · exact HqcRxBuf.stream_rel (R := fun a b ↦ a.acked = b.acked) rfl rfl
    · exact HqcRxBuf.stream_rel (R := fun a b ↦ a.sent = b.sent) rfl rfl
    · have hnone : (s.rx.release.stream kind).buf = none :=
        HqcRxBuf.forall_stream (Q := fun st ↦ st.buf = none) rfl rfl kind
      exact nomatch hnone.symm.trans h

theorem tick_streams (hi : i.event = .tick) (hm : 0 < s.rx.mtu) (hz : s.rx.Sized) :
    StreamStep P s i (tick P i.env s).1.rx (tick P i.env s).2 := by
  have h := tick_outcome P i.env hm hz
  generalize tick P i.env s = r at h ⊢
  cases h with
  | went s' fx h => exact .tick _ fx hi h
  | exhausted s₀ s' rx fx kind ct j h hk hc hf ht hs =>
    exact .exhausted rx _ fx kind ct j hi h hk hc hf ht (hs ▸ cleared_wipe s₀)
  | timeout s₀ s' hs =>
    exact .cleared _ _ (hs ▸ cleared_wipe s₀) (List.forall_mem_singleton.mpr rfl)

/-- All that any input can do to the ciphertexts of a session. -/
theorem handle_streams (P : Platform ρ) (i : Input ρ) (hm : 0 < s.rx.mtu) (hz : s.rx.Sized) :
    StreamStep P s i (handle P s i).1.rx (handle P s i).2 := by
  unfold handle
  cases hi : i.event with
  | hello m => exact hello_streams hi
  | pkChunk m => exact pkChunk_streams hi
  | ctAck m => exact ctAck_streams hi
  | finish m => exact finish_streams hi
  | tick => exact tick_streams hi hm hz

end KemtlsMavlink
