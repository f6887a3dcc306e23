import KemtlsMavlink.Session.State
import Mathlib.Logic.Function.Iterate

namespace KemtlsMavlink

open Library

variable {ρ : Type} (P : Platform ρ)

def hsTimeoutMs : Nat := 20000
def idleNudgeMs : Nat := 1500
def rtoBaseMs : Nat := 300
def rtoMaxMs : Nat := 4000

def rtoFor (tries : UInt8) : Nat :=
  (fun r ↦ if r < rtoMaxMs then r * 2 else rtoMaxMs)^[tries.toNat] rtoBaseMs

def detailOf (kind : UInt8) : UInt8 := if kind = 0 then 0 else 1

/-- The canonical record goes into a transcript that the wipe clears at once. -/
def abortTimeout (s : HqcSession) (detail : UInt8) (value : Nat) : HqcSession × List Effect :=
  let s := s.setTh (thAddAbort P s.th s.rx.sessionId .timeout detail (UInt32.ofNat value))
  (s.wipe, [.hqcAbort s.rx.sessionId .timeout detail value])

/-- What the first loop of `pump_stream` finds: nothing is due, the fragment
with this index is, or its retries are exhausted. -/
inductive Due
  | none
  | resend (i : Nat)
  | exhausted (i : Nat)

/-- The loop looks at nothing beyond the first fragment that is not
acknowledged or lies at or past `sent_bytes`. -/
def dueFragment (now : UInt32) (s : HqcSession) (st : CtStream) : Due :=
  match (List.range (st.chunks s.rx.mtu)).find? fun i ↦
      st.sent ≤ i * s.rx.mtu || !st.acked.getD i false with
  | .none => .none
  | some i =>
    if st.sent ≤ i * s.rx.mtu then .none
    else
      let tries := s.rx.retries (i * s.rx.mtu)
      if (now - s.tLastTx).toNat < rtoFor tries then .none
      else if tries ≥ s.rx.maxRetries then .exhausted i
      else .resend i

def pumpNew (now : UInt32) (kind : UInt8) (s : HqcSession) (st : CtStream) (ct : Block)
    (inflight : Nat) : HqcSession × List Effect :=
  let w := sendWindow ct s.rx.sessionId kind s.rx.mtu st.len (s.rx.window - inflight) st.sent
  let s := s.setRx (s.rx.setStream kind { st with sent := w.2 })
  (if w.1.isEmpty then s else s.noteTx now, w.1)

def HqcRxBuf.countRetry (rx : HqcRxBuf) (off : Nat) : HqcRxBuf :=
  { rx with retries := Function.update rx.retries off (rx.retries off + 1) }

def pumpCt (now : UInt32) (kind : UInt8) (s : HqcSession) (ct : Block) :
    HqcSession × List Effect × Bool :=
  let st := s.rx.stream kind
  let st := { st with acked := st.sizedAcks s.rx.mtu }
  let inflight := CtStream.inflight st.acked (st.chunks s.rx.mtu) s.rx.mtu st.sent
  match dueFragment now s st with
  | .exhausted i =>
    let r := abortTimeout P s (detailOf kind) (i * s.rx.mtu)
    (r.1, r.2, false)
  | .none =>
    let r := pumpNew now kind s st ct inflight
    (r.1, r.2, true)
  | .resend i =>
    let off := i * s.rx.mtu
    let chunk := ctChunkAt ct s.rx.sessionId kind s.rx.mtu st.len off
    let s := (s.setRx (s.rx.countRetry off)).noteTx now
    let r := pumpNew now kind s st ct (inflight + 1)
    (r.1, .ctChunk chunk :: r.2, true)

/-- `pump_stream`; the flag is its result, `false` after an abort. -/
def pumpStream (now : UInt32) (kind : UInt8) (s : HqcSession) :
    HqcSession × List Effect × Bool :=
  match (s.rx.stream kind).buf with
  | none => (s, [], true)
  | some ct => if (s.rx.stream kind).len = 0 then (s, [], true) else pumpCt P now kind s ct

def pumpDone (s : HqcSession) : HqcSession :=
  if s.rx.cte.done && s.rx.cts.done && s.state = .ctTx then s.setState .waitCf else s

def pumpTx (now : UInt32) (s : HqcSession) : HqcSession × List Effect :=
  if !s.owner then (s, [])
  else
    let r := pumpStream P now 0 s
    if !r.2.2 then (r.1, r.2.1)
    else
      let r' := pumpStream P now 1 r.1
      (if !r'.2.2 then r'.1 else pumpDone r'.1, r.2.1 ++ r'.2.1)

/-- `probe_stream`: the first fragment that is not acknowledged is sent again,
outside window and retry accounting. -/
def probeStream (now : UInt32) (kind : UInt8) (s : HqcSession) : HqcSession × List Effect :=
  let st := s.rx.stream kind
  match st.buf with
  | none => (s, [])
  | some ct =>
    if st.len = 0 then (s, [])
    else
      let st := { st with acked := st.sizedAcks s.rx.mtu }
      let s := s.setRx (s.rx.setStream kind st)
      match (List.range (st.chunks s.rx.mtu)).find? fun i ↦ !st.acked.getD i false with
      | none => (s, [])
      | some i =>
        (s.noteTx now,
          [.ctChunk (ctChunkAt ct s.rx.sessionId kind s.rx.mtu st.len (i * s.rx.mtu))])

/-- The clock is read again for each probe that sends. -/
def kickAcks (e : Env ρ) (s : HqcSession) : HqcSession × List Effect :=
  if !s.owner then (s, [])
  else
    let r := probeStream (e.millis 1) 0 s
    let r' := probeStream (e.millis 2) 1 r.1
    (r'.1, r.2 ++ r'.2)

def tick (e : Env ρ) (s : HqcSession) : HqcSession × List Effect :=
  let now := e.millis 0
  if s.state = .idle ∨ s.state = .fail ∨ s.state = .active then (s, [])
  else if (now - s.tStart).toNat > hsTimeoutMs then abortTimeout P s 2 0
  else
    let r := pumpTx P now s
    if (now - r.1.tLastRx).toNat > idleNudgeMs then
      let r' := kickAcks e r.1
      (r'.1.noteRx now, r.2 ++ r'.2)
    else r

end KemtlsMavlink
