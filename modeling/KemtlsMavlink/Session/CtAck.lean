import KemtlsMavlink.Session.State

namespace KemtlsMavlink

open Library

variable {ρ : Type}

/-- The marking of a `CT_ACK`: every fragment below its base, then those its
mask names among the 32 that follow. -/
def markAcked (acked : List Bool) (chunks baseIdx : Nat) (mask : UInt32) : List Bool :=
  let acked := (List.range (min baseIdx acked.length)).foldl (fun a i ↦ a.set i true) acked
  (List.range 32).foldl (fun a i ↦
    if baseIdx + i < chunks ∧ (mask >>> UInt32.ofNat i) &&& 1 = 1 then a.set (baseIdx + i) true
    else a) acked

def dropRetries (retries : Nat → UInt8) (acked : List Bool) (chunks mtu : Nat) : Nat → UInt8 :=
  (List.range chunks).foldl (fun r i ↦
    if acked.getD i false then Function.update r (i * mtu) 0 else r) retries

structure AckSend where
  sent : Nat
  retries : Nat → UInt8
  sentNow : Nat

/-- `for (i; i < chunks && sent_now + inflight < window; i++)` over the indices
that are left. -/
def ackSend (ct : Block) (sessionId : UInt64) (kind : UInt8) (mtu len window : Nat)
    (maxRetries : UInt8) (acked : List Bool) (inflight : Nat) :
    List Nat → AckSend → List Effect × AckSend
  | [], a => ([], a)
  | i :: is, a =>
    if ¬ a.sentNow + inflight < window then ([], a)
    else if acked.getD i false then
      ackSend ct sessionId kind mtu len window maxRetries acked inflight is a
    else
      let off := i * mtu
      if off < a.sent ∧ a.retries off ≥ maxRetries then
        ackSend ct sessionId kind mtu len window maxRetries acked inflight is a
      else
        let sent := max a.sent (off + min mtu (len - off))
        let retries :=
          if off < sent then Function.update a.retries off (a.retries off + 1) else a.retries
        let r := ackSend ct sessionId kind mtu len window maxRetries acked inflight is
          ⟨sent, retries, a.sentNow + 1⟩
        (.ctChunk (ctChunkAt ct sessionId kind mtu len off) :: r.1, r.2)

def markedStream (st : CtStream) (mtu : Nat) (m : CtAck) : CtStream :=
  { st with
    acked := markAcked (st.sizedAcks mtu) (st.chunks mtu) (m.base.toNat / mtu) m.mask }

/-- From the marking to the end of the sending loop, on a stream that is present. -/
def applyCtAck (rx : HqcRxBuf) (m : CtAck) (ct : Block) : HqcRxBuf × List Effect :=
  let st := markedStream (rx.stream m.ctKind) rx.mtu m
  let chunks := st.chunks rx.mtu
  let retries := dropRetries rx.retries st.acked chunks rx.mtu
  let inflight := CtStream.inflight st.acked chunks rx.mtu st.sent
  let (fx, a) := ackSend ct rx.sessionId m.ctKind rx.mtu st.len rx.window rx.maxRetries
    st.acked inflight (List.range chunks) ⟨st.sent, retries, 0⟩
  ({ rx with retries := a.retries }.setStream m.ctKind { st with sent := a.sent }, fx)

def settleCtAck (s : HqcSession) (rx : HqcRxBuf) : HqcSession :=
  if rx.cte.done && rx.cts.done then
    (s.setRx { rx with retries := fun _ ↦ 0 }).setState .waitCf
  else s.setRx rx

def handleHqcCtAck (e : Env ρ) (s : HqcSession) (m : CtAck) : HqcSession × List Effect :=
  let s := s.noteRx (e.millis 0)
  if m.sessionId ≠ s.rx.sessionId then (s, [])
  else
    match (s.rx.stream m.ctKind).buf with
    | none => (s, [])
    | some ct =>
      if (s.rx.stream m.ctKind).len = 0 then (s, [])
      else
        let r := applyCtAck s.rx m ct
        (settleCtAck s r.1, r.2)

def CtAck.Held (m : CtAck) (rx : HqcRxBuf) : Prop :=
  m.sessionId = rx.sessionId ∧ (rx.stream m.ctKind).buf.isSome ∧ (rx.stream m.ctKind).len ≠ 0

theorem handleHqcCtAck_ignored (e : Env ρ) {s : HqcSession} {m : CtAck} (h : ¬ m.Held s.rx) :
    handleHqcCtAck e s m = (s.noteRx (e.millis 0), []) := by
  unfold handleHqcCtAck
  by_cases hsid : m.sessionId = s.rx.sessionId
  · cases hb : (s.rx.stream m.ctKind).buf with
    | none => simp [hsid, hb]
    | some ct =>
      have hl : (s.rx.stream m.ctKind).len = 0 := by
        by_contra hl
        exact h ⟨hsid, by rw [hb]; rfl, hl⟩
      simp [hsid, hb, hl]
  · simp [hsid]

theorem handleHqcCtAck_held (e : Env ρ) {s : HqcSession} {m : CtAck} (h : m.Held s.rx) :
    ∃ ct, (s.rx.stream m.ctKind).buf = some ct ∧
      handleHqcCtAck e s m = (settleCtAck (s.noteRx (e.millis 0)) (applyCtAck s.rx m ct).1,
        (applyCtAck s.rx m ct).2) := by
  obtain ⟨hsid, hb, hl⟩ := h
  obtain ⟨ct, hb⟩ := Option.isSome_iff_exists.mp hb
  exact ⟨ct, hb, by simp [handleHqcCtAck, hsid, hb, hl]⟩

end KemtlsMavlink
