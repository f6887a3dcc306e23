import KemtlsMavlink.Library.Checked
import KemtlsMavlink.Library.Window
import KemtlsMavlink.Session.Phase

namespace KemtlsMavlink

open Library

variable {ρ : Type} (P : Platform ρ)

/-! The handlers of fragments and acknowledgements and the tick, with every index
into an ack vector, every range copied, every offset and every division checked. -/

namespace Bounds

/-- `(len + mtu - 1U) / mtu`, for a ciphertext and in `pk_chunks`. -/
def chunks (len mtu : Nat) : Checked Nat := do
  let n ← Checked.word 32 (len + mtu)
  let n ← Checked.sub n 1
  Checked.div n mtu

def ctChunkAt (ct : Block) (sessionId : UInt64) (kind : UInt8) (mtu len off : Nat) :
    Checked CtChunk := do
  let left ← Checked.sub len off
  let n := min mtu left
  Checked.range off n len
  Checked.range 0 n 220
  let data ← Checked.load ct off n
  .ok ⟨sessionId, kind, off, n, data ++ List.replicate (220 - n) 0⟩

def sendWindow (ct : Block) (sessionId : UInt64) (kind : UInt8) (mtu len : Nat) :
    Nat → Nat → Checked (List Effect × Nat)
  | 0, off => .ok ([], off)
  | budget + 1, off =>
    if off < len then do
      let c ← ctChunkAt ct sessionId kind mtu len off
      let next ← Checked.word 32 (off + c.count)
      let r ← sendWindow ct sessionId kind mtu len budget next
      .ok (.ctChunk c :: r.1, r.2)
    else .ok ([], off)

def unacked (acked : List Bool) (i : Nat) : Checked Bool := do
  let acked ← Checked.get acked i
  .ok !acked

def inflight (acked : List Bool) (chunks mtu sent : Nat) : Checked Nat :=
  Checked.count (fun i ↦ do
    let free ← unacked acked i
    let off ← Checked.word 32 (i * mtu)
    .ok (free && off < sent)) (List.range chunks)

def pkChunkError (rx : HqcRxBuf) (m : PkChunk) : Checked (Option (Nat × KexStatus × UInt8)) :=
  let offset := m.offset.toNat
  let count := m.count.toNat
  if m.sessionId ≠ rx.sessionId then .ok (some (0, .badSeq, 1))
  else if rx.pkLen = 0 ∨ rx.pke.isNone then .ok (some (0, .internal, 10))
  else if count = 0 ∨ count > rx.mtu then .ok (some (count, .badLen, 2))
  else if offset > rx.pkLen ∨ offset + count > rx.pkLen then .ok (some (offset, .badLen, 3))
  else do
    let stop ← Checked.word 32 (offset + count)
    let rest ← Checked.mod offset rx.mtu
    if rest ≠ 0 ∧ ¬ stop = rx.pkLen then .ok (some (offset, .badSeq, 4))
    else do
      let frag ← Checked.div offset rx.mtu
      let total ← chunks rx.pkLen rx.mtu
      if frag ≥ total then .ok (some (frag, .badSeq, 5)) else .ok none

def storeFragment (rx : HqcRxBuf) (m : PkChunk) : Checked (HqcRxBuf × List Effect) := do
  let frag ← Checked.div m.offset.toNat rx.mtu
  let acked := rx.pkeAcks
  let stored ← Checked.get acked frag
  if !stored then do
    let data := m.data.toList.take m.count.toNat
    Checked.range m.offset.toNat m.count.toNat rx.pkLen
    Checked.range 0 m.count.toNat 220
    let pke ← Checked.deref rx.pke
    let pke ← Checked.store pke m.offset.toNat data
    let acked ← Checked.set acked frag true
    .ok ({ rx with pke := some pke, pkeAcked := acked }, [.pkeCopy m.offset.toNat data])
  else .ok ({ rx with pkeAcked := acked }, [])

def scanAcked (acked : List Bool) : Nat → Nat → Checked Nat
  | 0, base => .ok base
  | left + 1, base => do
    let stored ← Checked.get acked base
    if stored then do
      let next ← Checked.word 32 (base + 1)
      scanAcked acked left next
    else .ok base

def baseFrag (rx : HqcRxBuf) : Checked Nat := do
  let base ← Checked.div rx.pkeRcvd rx.mtu
  let total ← chunks rx.pkLen rx.mtu
  scanAcked rx.pkeAcked (total - base) base

def advanceBase (rx : HqcRxBuf) (base : Nat) : Checked HqcRxBuf := do
  let bytes ← Checked.word 32 (base * rx.mtu)
  .ok { rx with pkeRcvd := min bytes rx.pkLen }

def sackMask (rx : HqcRxBuf) (base : Nat) : Checked UInt32 := do
  let total ← chunks rx.pkLen rx.mtu
  (List.range 32).foldlM (fun mask i ↦ do
    let idx ← Checked.word 32 (base + i)
    if idx < total then do
      let stored ← Checked.get rx.pkeAcked idx
      .ok (if stored then mask ||| (1 <<< UInt32.ofNat i) else mask)
    else .ok mask) 0

def openEphemeral (s : HqcSession) (ct : Block) : Checked (HqcSession × List Effect) := do
  Checked.range 0 s.rx.cte.len ct.size
  let w ← sendWindow ct s.rx.sessionId 0 s.rx.mtu s.rx.cte.len s.rx.window 0
  .ok (((s.setTh (cteSummaryTh P s ct)).setRx
    (s.rx.setStream 0 { s.rx.cte with sent := w.2 })).setState .ctTx, w.1)

def completeKey (e : Env ρ) (s : HqcSession) : Checked (HqcSession × List Effect) := do
  let pke ← Checked.deref s.rx.pke
  Checked.range 0 s.rx.pkLen pke.size
  let r := startEncap P e ((s.setTh (pkSummaryTh P s pke)).setState .encapReady)
  if r.1.state ≠ .encapDone then .ok (r.1, r.2 ++ [encapFailedText])
  else do
    let _ ← chunks r.1.rx.cte.len r.1.rx.mtu
    match r.1.rx.cte.buf with
    | none => .ok (r.1.setState .ctTx, r.2)
    | some ct => do
      let t ← openEphemeral P r.1 ct
      .ok (t.1, r.2 ++ t.2)

def handleHqcPkChunk (e : Env ρ) (s : HqcSession) (m : PkChunk) :
    Checked (HqcSession × List Effect) := do
  let s := s.noteRx (e.millis 0)
  let error ← pkChunkError s.rx m
  match error with
  | some (value, status, detail) => .ok (s, [.hqcStatus s.rx.sessionId value status detail])
  | none => do
    let r ← storeFragment s.rx m
    let base ← baseFrag r.1
    let rx ← advanceBase r.1 base
    let mask ← sackMask rx base
    let fx := r.2 ++ [.pkAck rx.sessionId rx.pkeRcvd mask]
    if rx.KeyComplete then do
      let t ← completeKey P e (s.setRx rx)
      .ok (t.1, fx ++ t.2)
    else .ok (s.setRx rx, fx)

def markAcked (acked : List Bool) (chunks baseIdx : Nat) (mask : UInt32) :
    Checked (List Bool) := do
  let acked ← (List.range (min baseIdx acked.length)).foldlM
    (fun a i ↦ Checked.set a i true) acked
  (List.range 32).foldlM (fun a i ↦ do
    let idx ← Checked.word 32 (baseIdx + i)
    if idx < chunks ∧ (mask >>> UInt32.ofNat i) &&& 1 = 1 then Checked.set a idx true
    else .ok a) acked

def dropRetries (retries : Nat → UInt8) (acked : List Bool) (chunks mtu : Nat) :
    Checked (Nat → UInt8) :=
  (List.range chunks).foldlM (fun r i ↦ do
    let acked ← Checked.get acked i
    let off ← Checked.word 32 (i * mtu)
    .ok (if acked then Function.update r off 0 else r)) retries

def ackSend (ct : Block) (sessionId : UInt64) (kind : UInt8) (mtu len window : Nat)
    (maxRetries : UInt8) (acked : List Bool) (inflight : Nat) :
    List Nat → AckSend → Checked (List Effect × AckSend)
  | [], a => .ok ([], a)
  | i :: is, a =>
    if ¬ a.sentNow + inflight < window then .ok ([], a)
    else do
      let done ← Checked.get acked i
      if done then ackSend ct sessionId kind mtu len window maxRetries acked inflight is a
      else do
        let off ← Checked.word 32 (i * mtu)
        if off < a.sent ∧ a.retries off ≥ maxRetries then
          ackSend ct sessionId kind mtu len window maxRetries acked inflight is a
        else do
          let c ← ctChunkAt ct sessionId kind mtu len off
          let stop ← Checked.word 32 (off + c.count)
          let sent := max a.sent stop
          let retries :=
            if off < sent then Function.update a.retries off (a.retries off + 1) else a.retries
          let r ← ackSend ct sessionId kind mtu len window maxRetries acked inflight is
            ⟨sent, retries, a.sentNow + 1⟩
          .ok (.ctChunk c :: r.1, r.2)

def applyCtAck (rx : HqcRxBuf) (m : CtAck) (ct : Block) : Checked (HqcRxBuf × List Effect) := do
  let st := rx.stream m.ctKind
  let total ← chunks st.len rx.mtu
  let baseIdx ← Checked.div m.base.toNat rx.mtu
  let acked ← markAcked (st.sizedAcks rx.mtu) total baseIdx m.mask
  let retries ← dropRetries rx.retries acked total rx.mtu
  let flying ← inflight acked total rx.mtu st.sent
  let (fx, a) ← ackSend ct rx.sessionId m.ctKind rx.mtu st.len rx.window rx.maxRetries acked
    flying (List.range total) ⟨st.sent, retries, 0⟩
  .ok ({ rx with retries := a.retries }.setStream m.ctKind
    { st with acked := acked, sent := a.sent }, fx)

def handleHqcCtAck (e : Env ρ) (s : HqcSession) (m : CtAck) :
    Checked (HqcSession × List Effect) :=
  let s := s.noteRx (e.millis 0)
  if m.sessionId ≠ s.rx.sessionId then .ok (s, [])
  else
    match (s.rx.stream m.ctKind).buf with
    | none => .ok (s, [])
    | some ct =>
      if (s.rx.stream m.ctKind).len = 0 then .ok (s, [])
      else do
        let r ← applyCtAck s.rx m ct
        .ok (settleCtAck s r.1, r.2)

def stopsAt (st : CtStream) (mtu i : Nat) : Checked Bool := do
  let off ← Checked.word 32 (i * mtu)
  if st.sent ≤ off then .ok true else unacked st.acked i

def dueFragment (now : UInt32) (s : HqcSession) (st : CtStream) : Checked Due := do
  let total ← chunks st.len s.rx.mtu
  let first ← Checked.find (stopsAt st s.rx.mtu) (List.range total)
  match first with
  | none => .ok .none
  | some i => do
    let off ← Checked.word 32 (i * s.rx.mtu)
    if st.sent ≤ off then .ok .none
    else
      let tries := s.rx.retries off
      if (now - s.tLastTx).toNat < rtoFor tries then .ok .none
      else if tries ≥ s.rx.maxRetries then .ok (.exhausted i)
      else .ok (.resend i)

def pumpNew (now : UInt32) (kind : UInt8) (s : HqcSession) (st : CtStream) (ct : Block)
    (inflight : Nat) : Checked (HqcSession × List Effect) := do
  let w ← sendWindow ct s.rx.sessionId kind s.rx.mtu st.len (s.rx.window - inflight) st.sent
  let s := s.setRx (s.rx.setStream kind { st with sent := w.2 })
  .ok (if w.1.isEmpty then s else s.noteTx now, w.1)

def pumpCt (now : UInt32) (kind : UInt8) (s : HqcSession) (ct : Block) :
    Checked (HqcSession × List Effect × Bool) := do
  let st := s.rx.stream kind
  let total ← chunks st.len s.rx.mtu
  let st := { st with acked := st.sizedAcks s.rx.mtu }
  let flying ← inflight st.acked total s.rx.mtu st.sent
  let due ← dueFragment now s st
  match due with
  | .exhausted i => do
    let off ← Checked.word 32 (i * s.rx.mtu)
    let r := abortTimeout P s (detailOf kind) off
    .ok (r.1, r.2, false)
  | .none => do
    let r ← pumpNew now kind s st ct flying
    .ok (r.1, r.2, true)
  | .resend i => do
    let off ← Checked.word 32 (i * s.rx.mtu)
    let chunk ← ctChunkAt ct s.rx.sessionId kind s.rx.mtu st.len off
    let s := (s.setRx (s.rx.countRetry off)).noteTx now
    let r ← pumpNew now kind s st ct (flying + 1)
    .ok (r.1, .ctChunk chunk :: r.2, true)

def pumpStream (now : UInt32) (kind : UInt8) (s : HqcSession) :
    Checked (HqcSession × List Effect × Bool) :=
  match (s.rx.stream kind).buf with
  | none => .ok (s, [], true)
  | some ct => if (s.rx.stream kind).len = 0 then .ok (s, [], true) else pumpCt P now kind s ct

def pumpTx (now : UInt32) (s : HqcSession) : Checked (HqcSession × List Effect) :=
  if !s.owner then .ok (s, [])
  else do
    let r ← pumpStream P now 0 s
    if !r.2.2 then .ok (r.1, r.2.1)
    else do
      let r' ← pumpStream P now 1 r.1
      .ok (if !r'.2.2 then r'.1 else pumpDone r'.1, r.2.1 ++ r'.2.1)

def probeStream (now : UInt32) (kind : UInt8) (s : HqcSession) :
    Checked (HqcSession × List Effect) :=
  let st := s.rx.stream kind
  match st.buf with
  | none => .ok (s, [])
  | some ct =>
    if st.len = 0 then .ok (s, [])
    else do
      let total ← chunks st.len s.rx.mtu
      let st := { st with acked := st.sizedAcks s.rx.mtu }
      let s := s.setRx (s.rx.setStream kind st)
      let first ← Checked.find (unacked st.acked) (List.range total)
      match first with
      | none => .ok (s, [])
      | some i => do
        let off ← Checked.word 32 (i * s.rx.mtu)
        let chunk ← ctChunkAt ct s.rx.sessionId kind s.rx.mtu st.len off
        .ok (s.noteTx now, [.ctChunk chunk])

def kickAcks (e : Env ρ) (s : HqcSession) : Checked (HqcSession × List Effect) :=
  if !s.owner then .ok (s, [])
  else do
    let r ← probeStream (e.millis 1) 0 s
    let r' ← probeStream (e.millis 2) 1 r.1
    .ok (r'.1, r.2 ++ r'.2)

def tick (e : Env ρ) (s : HqcSession) : Checked (HqcSession × List Effect) :=
  let now := e.millis 0
  if s.state = .idle ∨ s.state = .fail ∨ s.state = .active then .ok (s, [])
  else if (now - s.tStart).toNat > hsTimeoutMs then .ok (abortTimeout P s 2 0)
  else do
    let r ← pumpTx P now s
    if (now - r.1.tLastRx).toNat > idleNudgeMs then do
      let r' ← kickAcks e r.1
      .ok (r'.1.noteRx now, r.2 ++ r'.2)
    else .ok r

/-- What keeps the fragments of the ciphertext in `ct` in range. -/
structure Fits (ct : Block) (mtu len : Nat) : Prop where
  mtu_ge : 32 ≤ mtu
  mtu_le : mtu ≤ 220
  len_le : len ≤ 65536
  size : len ≤ ct.size

variable {P} {ct : Block} {mtu len off : Nat} {sessionId : UInt64} {kind : UInt8}

theorem Fits.mtu_pos (h : Fits ct mtu len) : 0 < mtu := Nat.lt_of_lt_of_le (by decide) h.mtu_ge

theorem chunks_ok (hm : 0 < mtu) (hmax : mtu ≤ 220) (hl : len ≤ 65536) :
    chunks len mtu = .ok (fragments mtu len) := by
  have hword : len + mtu < 2 ^ 32 := by omega
  rw [chunks, Checked.word_ok hword, Checked.ok_bind, Checked.sub_ok (by omega), Checked.ok_bind,
    Checked.div_ok _ hm]
  rfl

theorem Fits.chunks_ok (h : Fits ct mtu len) : chunks len mtu = .ok (fragments mtu len) :=
  Bounds.chunks_ok h.mtu_pos h.mtu_le h.len_le

theorem Fits.offset_lt (h : Fits ct mtu len) {i : Nat} (hi : i < fragments mtu len) :
    i * mtu < len := (lt_fragments h.mtu_pos).mp hi

theorem Fits.offset_ok (h : Fits ct mtu len) {i : Nat} (hi : i < fragments mtu len) :
    Checked.word 32 (i * mtu) = .ok (i * mtu) := by
  have hoff := h.offset_lt hi
  have hlen := h.len_le
  exact Checked.word_ok (by omega)

theorem ctChunkAt_ok (h : Fits ct mtu len) (ho : off ≤ len) :
    ctChunkAt ct sessionId kind mtu len off =
      .ok (KemtlsMavlink.ctChunkAt ct sessionId kind mtu len off) := by
  have hmtu := h.mtu_le
  have hsize := h.size
  rw [ctChunkAt, Checked.sub_ok ho, Checked.ok_bind]
  dsimp only
  rw [Checked.range_ok (by omega), Checked.ok_bind, Checked.range_ok (by omega), Checked.ok_bind,
    Checked.load_ok (by omega), Checked.ok_bind]
  rfl

example (ct : Block) : ctChunkAt ct 0 0 220 4433 4434 = .error .wrap := rfl

theorem stop_ok (h : Fits ct mtu len) (ho : off ≤ len) :
    Checked.word 32 (off + (KemtlsMavlink.ctChunkAt ct sessionId kind mtu len off).count) =
      .ok (off + min mtu (len - off)) := by
  have hlen := h.len_le
  have hstop : off + min mtu (len - off) < 2 ^ 32 := by omega
  exact Checked.word_ok hstop

theorem sendWindow_ok (h : Fits ct mtu len) (budget off : Nat) :
    sendWindow ct sessionId kind mtu len budget off =
      .ok (KemtlsMavlink.sendWindow ct sessionId kind mtu len budget off) := by
  induction budget generalizing off with
  | zero => rfl
  | succ budget ih =>
    unfold sendWindow KemtlsMavlink.sendWindow
    split_ifs with hlt
    · have ho := Nat.le_of_lt hlt
      rw [ctChunkAt_ok h ho, Checked.ok_bind, stop_ok h ho, Checked.ok_bind, ih, Checked.ok_bind]
    · rfl

theorem unacked_ok {acked : List Bool} {i : Nat} (h : i < acked.length) :
    unacked acked i = .ok (!acked.getD i false) := by
  rw [unacked, Checked.get_ok h false, Checked.ok_bind]

theorem inflight_ok (h : Fits ct mtu len) {acked : List Bool}
    (ha : acked.length = fragments mtu len) (sent : Nat) :
    inflight acked (fragments mtu len) mtu sent =
      .ok (CtStream.inflight acked (fragments mtu len) mtu sent) := by
  apply Checked.count_ok
  intro i hi
  have hlt := List.mem_range.mp hi
  rw [unacked_ok (ha ▸ hlt), Checked.ok_bind, h.offset_ok hlt, Checked.ok_bind]

theorem markAcked_ok {acked : List Bool} {chunks baseIdx : Nat} (hl : acked.length = chunks)
    (hb : baseIdx + 32 ≤ 2 ^ 32) (mask : UInt32) :
    markAcked acked chunks baseIdx mask =
      .ok (KemtlsMavlink.markAcked acked chunks baseIdx mask) := by
  obtain ⟨hbelow, hl'⟩ := Checked.foldlM_ok (f := fun a i ↦ Checked.set a i true)
    (g := fun a i ↦ a.set i true) (fun a : List Bool ↦ a.length = chunks)
    (l := List.range (min baseIdx acked.length)) (fun i hi a ha ↦ by
      have hlt : i < a.length := by
        have := List.mem_range.mp hi
        omega
      exact ⟨Checked.set_ok hlt true, List.length_set.trans ha⟩) hl
  unfold markAcked KemtlsMavlink.markAcked
  rw [hbelow, Checked.ok_bind]
  refine (Checked.foldlM_ok (fun a : List Bool ↦ a.length = chunks) (fun i hi a ha ↦ ?_) hl').1
  have hword : baseIdx + i < 2 ^ 32 := by
    have := List.mem_range.mp hi
    omega
  rw [Checked.word_ok hword, Checked.ok_bind]
  split_ifs with hc
  · exact ⟨Checked.set_ok (by omega) true, List.length_set.trans ha⟩
  · exact ⟨rfl, ha⟩

theorem dropRetries_ok (h : Fits ct mtu len) {acked : List Bool}
    (ha : acked.length = fragments mtu len) (retries : Nat → UInt8) :
    dropRetries retries acked (fragments mtu len) mtu =
      .ok (KemtlsMavlink.dropRetries retries acked (fragments mtu len) mtu) := by
  refine (Checked.foldlM_ok (fun _ ↦ True) (fun i hi r _ ↦ ⟨?_, trivial⟩) trivial).1
  have hlt := List.mem_range.mp hi
  rw [Checked.get_ok (ha ▸ hlt) false, Checked.ok_bind, h.offset_ok hlt, Checked.ok_bind]

theorem ackSend_ok (h : Fits ct mtu len) (window : Nat) (maxRetries : UInt8) {acked : List Bool}
    (ha : acked.length = fragments mtu len) (inflight : Nat) {is : List Nat}
    (hi : ∀ i ∈ is, i < fragments mtu len) (a : AckSend) :
    ackSend ct sessionId kind mtu len window maxRetries acked inflight is a =
      .ok (KemtlsMavlink.ackSend ct sessionId kind mtu len window maxRetries acked inflight is
        a) := by
  induction is generalizing a with
  | nil => rfl
  | cons i is ih =>
    obtain ⟨hlt, his⟩ := List.forall_mem_cons.mp hi
    have ho : i * mtu ≤ len := Nat.le_of_lt (h.offset_lt hlt)
    unfold ackSend KemtlsMavlink.ackSend
    rw [Checked.get_ok (ha ▸ hlt) false, Checked.ok_bind, h.offset_ok hlt, Checked.ok_bind,
      ctChunkAt_ok h ho, Checked.ok_bind, stop_ok h ho, Checked.ok_bind]
    dsimp only
    split_ifs
    · exact ih his a
    · exact ih his a
    · rw [ih his, Checked.ok_bind]
    · rw [ih his, Checked.ok_bind]
    · rfl

theorem applyCtAck_ok {rx : HqcRxBuf} {m : CtAck} (h : Fits ct rx.mtu (rx.stream m.ctKind).len) :
    applyCtAck rx m ct = .ok (KemtlsMavlink.applyCtAck rx m ct) := by
  have hbase : m.base.toNat / rx.mtu + 32 ≤ 2 ^ 32 := by
    have hle : m.base.toNat / rx.mtu ≤ m.base.toNat / 32 :=
      Nat.div_le_div_left h.mtu_ge (by decide)
    have hlt := m.base.toNat_lt
    omega
  have hs : ((rx.stream m.ctKind).sizedAcks rx.mtu).length =
      fragments rx.mtu (rx.stream m.ctKind).len := CtStream.length_sizedAcks
  have hacked := (length_markAcked _ (fragments rx.mtu (rx.stream m.ctKind).len)
    (m.base.toNat / rx.mtu) m.mask).trans hs
  unfold applyCtAck KemtlsMavlink.applyCtAck markedStream
  dsimp only
  rw [h.chunks_ok, Checked.ok_bind, Checked.div_ok _ h.mtu_pos, Checked.ok_bind,
    markAcked_ok hs hbase, Checked.ok_bind, dropRetries_ok h hacked, Checked.ok_bind,
    inflight_ok h hacked, Checked.ok_bind,
    ackSend_ok h _ _ hacked _ fun i hi ↦ List.mem_range.mp hi, Checked.ok_bind]
  rfl

def Ranged (rx : HqcRxBuf) : Prop :=
  ∀ kind ct, (rx.stream kind).buf = some ct → Fits ct rx.mtu (rx.stream kind).len

variable {e : Env ρ} {s s' : HqcSession} {now : UInt32}

theorem handleHqcCtAck_ok (h : Ranged s.rx) (m : CtAck) :
    handleHqcCtAck e s m = .ok (KemtlsMavlink.handleHqcCtAck e s m) := by
  unfold handleHqcCtAck KemtlsMavlink.handleHqcCtAck
  by_cases hsid : m.sessionId = s.rx.sessionId
  · cases hb : (s.rx.stream m.ctKind).buf with
    | none => simp [hsid, hb]
    | some ct =>
      have hok := applyCtAck_ok (h m.ctKind ct hb)
      by_cases hl : (s.rx.stream m.ctKind).len = 0
      · simp [hsid, hb, hl]
      · simp [hsid, hb, hl, hok]
  · simp [hsid]

theorem Ranged.transmit (h : Ranged s.rx) (ht : Transmits s s') : Ranged s'.rx := by
  obtain ⟨r, a, b, c, d, he⟩ := ht.rx_eq
  rw [he]
  intro kind ct hb
  have hk := h kind ct
  unfold HqcRxBuf.stream at hb hk ⊢
  split_ifs at hb hk ⊢
  · exact hk hb
  · exact hk hb

theorem ranged_wipe (s : HqcSession) : Ranged s.wipe.rx :=
  fun kind _ hb ↦ nomatch (stream_buf_wipe s kind).symm.trans hb

theorem stopsAt_ok {st : CtStream} (h : Fits ct mtu st.len) {i : Nat} (hi : i < st.chunks mtu)
    (ha : st.acked.length = st.chunks mtu) :
    stopsAt st mtu i = .ok (st.sent ≤ i * mtu || !st.acked.getD i false) := by
  rw [stopsAt, h.offset_ok hi, Checked.ok_bind, unacked_ok (ha ▸ hi)]
  by_cases hs : st.sent ≤ i * mtu
  · simp [hs]
  · simp [hs]

theorem dueFragment_ok {st : CtStream} (h : Fits ct s.rx.mtu st.len)
    (ha : st.acked.length = st.chunks s.rx.mtu) :
    dueFragment now s st = .ok (KemtlsMavlink.dueFragment now s st) := by
  have hfind := Checked.find_ok (l := List.range (st.chunks s.rx.mtu)) fun i hi ↦
    stopsAt_ok h (List.mem_range.mp hi) ha
  have htotal : chunks st.len s.rx.mtu = .ok (st.chunks s.rx.mtu) := h.chunks_ok
  unfold dueFragment KemtlsMavlink.dueFragment
  rw [htotal, Checked.ok_bind, hfind, Checked.ok_bind]
  cases hf : (List.range (st.chunks s.rx.mtu)).find? fun i ↦
      st.sent ≤ i * s.rx.mtu || !st.acked.getD i false with
  | none => rfl
  | some i =>
    have hlt := List.mem_range.mp (List.mem_of_find?_eq_some hf)
    dsimp only
    rw [h.offset_ok hlt, Checked.ok_bind]
    split_ifs <;> rfl

theorem lt_of_dueFragment {st : CtStream} {i : Nat}
    (hd : KemtlsMavlink.dueFragment now s st = .resend i ∨
      KemtlsMavlink.dueFragment now s st = .exhausted i) : i < st.chunks s.rx.mtu := by
  unfold KemtlsMavlink.dueFragment at hd
  cases hf : (List.range (st.chunks s.rx.mtu)).find? fun i ↦
      st.sent ≤ i * s.rx.mtu || !st.acked.getD i false with
  | none =>
    rw [hf] at hd
    exact hd.elim nofun nofun
  | some j =>
    have hlt := List.mem_range.mp (List.mem_of_find?_eq_some hf)
    rw [hf] at hd
    dsimp only at hd
    split_ifs at hd
    · exact hd.elim nofun nofun
    · exact hd.elim nofun nofun
    · obtain hd | hd := hd
      · cases hd
      · cases hd
        exact hlt
    · obtain hd | hd := hd
      · cases hd
        exact hlt
      · cases hd

theorem pumpNew_ok {st : CtStream} (h : Fits ct s.rx.mtu st.len) (inflight : Nat) :
    pumpNew now kind s st ct inflight = .ok (KemtlsMavlink.pumpNew now kind s st ct inflight) := by
  unfold pumpNew KemtlsMavlink.pumpNew
  rw [sendWindow_ok h, Checked.ok_bind]

theorem pumpCt_ok (h : Fits ct s.rx.mtu (s.rx.stream kind).len) :
    pumpCt P now kind s ct = .ok (KemtlsMavlink.pumpCt P now kind s ct) := by
  have hs : ((s.rx.stream kind).sizedAcks s.rx.mtu).length =
      fragments s.rx.mtu (s.rx.stream kind).len := CtStream.length_sizedAcks
  let st := { s.rx.stream kind with acked := (s.rx.stream kind).sizedAcks s.rx.mtu }
  have hdue : dueFragment now s st = .ok (KemtlsMavlink.dueFragment now s st) :=
    dueFragment_ok h hs
  have hnew : ∀ t : HqcSession, t.rx.mtu = s.rx.mtu → ∀ n,
      pumpNew now kind t st ct n = .ok (KemtlsMavlink.pumpNew now kind t st ct n) :=
    fun t ht n ↦ pumpNew_ok (by rw [ht]; exact h) n
  unfold pumpCt KemtlsMavlink.pumpCt
  dsimp only
  rw [h.chunks_ok, Checked.ok_bind, inflight_ok h hs, Checked.ok_bind, hdue, Checked.ok_bind]
  cases hd : KemtlsMavlink.dueFragment now s st with
  | none =>
    dsimp only
    rw [hnew s rfl, Checked.ok_bind]
    rfl
  | exhausted i =>
    have hlt := lt_of_dueFragment (.inr hd)
    dsimp only
    rw [h.offset_ok hlt, Checked.ok_bind]
  | resend i =>
    have hlt := lt_of_dueFragment (.inl hd)
    dsimp only
    rw [h.offset_ok hlt, Checked.ok_bind, ctChunkAt_ok h (Nat.le_of_lt (h.offset_lt hlt)),
      Checked.ok_bind, hnew ((s.setRx (s.rx.countRetry (i * s.rx.mtu))).noteTx now) rfl,
      Checked.ok_bind]
    rfl

theorem pumpStream_ok (h : Ranged s.rx) (kind : UInt8) :
    pumpStream P now kind s = .ok (KemtlsMavlink.pumpStream P now kind s) := by
  unfold pumpStream KemtlsMavlink.pumpStream
  cases hb : (s.rx.stream kind).buf with
  | none => rfl
  | some ct =>
    dsimp only
    split_ifs
    · rfl
    · exact pumpCt_ok (h kind ct hb)

theorem pumpTx_ok (h : Ranged s.rx) :
    pumpTx P now s = .ok (KemtlsMavlink.pumpTx P now s) := by
  unfold pumpTx KemtlsMavlink.pumpTx
  rw [pumpStream_ok h, Checked.ok_bind]
  dsimp only
  rcases pumpStream_spec P now 0 s with ⟨hgo, ht, -⟩ | ⟨hgo, -⟩
  · simp only [hgo, Bool.not_true, Bool.false_eq_true, if_false]
    rw [pumpStream_ok (h.transmit ht), Checked.ok_bind]
    split_ifs <;> rfl
  · simp only [hgo, Bool.not_false, if_true]
    split_ifs <;> rfl

theorem probeStream_ok (h : Ranged s.rx) (kind : UInt8) :
    probeStream now kind s = .ok (KemtlsMavlink.probeStream now kind s) := by
  unfold probeStream KemtlsMavlink.probeStream
  dsimp only
  cases hb : (s.rx.stream kind).buf with
  | none => rfl
  | some ct =>
    have hf := h kind ct hb
    have hs : ((s.rx.stream kind).sizedAcks s.rx.mtu).length =
        fragments s.rx.mtu (s.rx.stream kind).len := CtStream.length_sizedAcks
    have hfind := Checked.find_ok
      (l := List.range (fragments s.rx.mtu (s.rx.stream kind).len)) fun i hi ↦
        unacked_ok (hs ▸ List.mem_range.mp hi)
    dsimp only
    split_ifs
    · rfl
    · rw [hf.chunks_ok, Checked.ok_bind, hfind, Checked.ok_bind]
      simp only [HqcSession.setRx_rx, HqcRxBuf.setStream_mtu]
      change _ = Except.ok (match (List.range (fragments s.rx.mtu (s.rx.stream kind).len)).find?
        fun i ↦ !((s.rx.stream kind).sizedAcks s.rx.mtu).getD i false with
        | none => _
        | some i => _)
      cases hi : (List.range (fragments s.rx.mtu (s.rx.stream kind).len)).find?
          fun i ↦ !((s.rx.stream kind).sizedAcks s.rx.mtu).getD i false with
      | none => rfl
      | some i =>
        have hlt := List.mem_range.mp (List.mem_of_find?_eq_some hi)
        dsimp only
        rw [hf.offset_ok hlt, Checked.ok_bind,
          ctChunkAt_ok hf (Nat.le_of_lt (hf.offset_lt hlt)), Checked.ok_bind]

theorem kickAcks_ok (h : Ranged s.rx) :
    kickAcks e s = .ok (KemtlsMavlink.kickAcks e s) := by
  obtain ⟨ht, -⟩ := probeStream_spec (e.millis 1) 0 s
  unfold kickAcks KemtlsMavlink.kickAcks
  rw [probeStream_ok h, Checked.ok_bind, probeStream_ok (h.transmit ht), Checked.ok_bind]
  split_ifs <;> rfl

theorem tick_ok (h : Ranged s.rx) : tick P e s = .ok (KemtlsMavlink.tick P e s) := by
  have hpump : Ranged (KemtlsMavlink.pumpTx P (e.millis 0) s).1.rx := by
    rcases pumpTx_spec P (e.millis 0) s with ⟨ht, -⟩ | ⟨s₀, hw⟩
    · exact h.transmit ht
    · rw [hw]
      exact ranged_wipe s₀
  unfold tick KemtlsMavlink.tick
  dsimp only
  rw [pumpTx_ok h, Checked.ok_bind, kickAcks_ok hpump, Checked.ok_bind]
  split_ifs <;> rfl

variable {rx : HqcRxBuf} {m : PkChunk}

/-- What keeps the fragments of the ephemeral key in range. -/
structure KeyFits (rx : HqcRxBuf) : Prop where
  fragments : rx.Fragments
  mtu_le : rx.mtu ≤ 220
  pkLen_le : rx.pkLen ≤ 65536
  pke : ∃ pke, rx.pke = some pke ∧ pke.size = rx.pkLen

theorem KeyFits.chunks_ok (h : KeyFits rx) : chunks rx.pkLen rx.mtu = .ok rx.pkChunks :=
  Bounds.chunks_ok h.fragments.mtu_pos h.mtu_le h.pkLen_le

theorem KeyFits.chunks_mul_le (h : KeyFits rx) : rx.pkChunks * rx.mtu < 65536 + 220 := by
  have hle : rx.pkChunks * rx.mtu ≤ rx.pkLen + rx.mtu - 1 := Nat.div_mul_le_self _ _
  have hm := h.fragments.mtu_pos
  have hmtu := h.mtu_le
  have hlen := h.pkLen_le
  omega

theorem KeyFits.pkChunks_lt (h : KeyFits rx) : rx.pkChunks < 65536 + 220 :=
  Nat.lt_of_le_of_lt (Nat.le_mul_of_pos_right _ h.fragments.mtu_pos) h.chunks_mul_le

theorem pkChunkError_ok (h : rx.pke.isSome → KeyFits rx) (m : PkChunk) :
    pkChunkError rx m = .ok (KemtlsMavlink.pkChunkError rx m) := by
  unfold pkChunkError KemtlsMavlink.pkChunkError
  dsimp only
  by_cases hsid : m.sessionId ≠ rx.sessionId
  · rw [if_pos hsid, if_pos hsid]
  rw [if_neg hsid, if_neg hsid]
  by_cases hpke : rx.pkLen = 0 ∨ rx.pke.isNone = true
  · rw [if_pos hpke, if_pos hpke]
  rw [if_neg hpke, if_neg hpke]
  by_cases hcount : m.count.toNat = 0 ∨ m.count.toNat > rx.mtu
  · rw [if_pos hcount, if_pos hcount]
  rw [if_neg hcount, if_neg hcount]
  by_cases hend : m.offset.toNat > rx.pkLen ∨ m.offset.toNat + m.count.toNat > rx.pkLen
  · rw [if_pos hend, if_pos hend]
  rw [if_neg hend, if_neg hend]
  have hsome : rx.pke.isSome := by
    rw [Option.isSome_iff_ne_none]
    exact fun hn ↦ hpke (.inr (Option.isNone_iff_eq_none.mpr hn))
  have hf := h hsome
  have hstop : m.offset.toNat + m.count.toNat < 2 ^ 32 := by
    have := hf.pkLen_le
    omega
  rw [Checked.word_ok hstop, Checked.ok_bind, Checked.mod_ok _ hf.fragments.mtu_pos,
    Checked.ok_bind, Checked.div_ok _ hf.fragments.mtu_pos, Checked.ok_bind, hf.chunks_ok,
    Checked.ok_bind]
  change (if _ then _ else if rx.fragIdx m ≥ rx.pkChunks then _ else _) = _
  split_ifs <;> rfl

theorem storeFragment_ok (h : KeyFits rx) (ha : ChunkAccepted rx m) :
    storeFragment rx m = .ok (rx.storeFragment m) := by
  obtain ⟨pke, hp, hs⟩ := h.pke
  have hm := h.fragments.mtu_pos
  have hcount := Nat.le_trans ha.count_le h.mtu_le
  have hfrag : rx.fragIdx m < rx.pkeAcks.length :=
    Nat.lt_of_lt_of_eq ha.frag_lt h.fragments.length_pkeAcks.symm
  have hdata : (m.data.toList.take m.count.toNat).length = m.count.toNat := by
    simp [hcount]
  have hstore : m.offset.toNat + (m.data.toList.take m.count.toNat).length ≤ pke.size := by
    rw [hdata, hs]
    exact ha.end_le
  unfold storeFragment HqcRxBuf.storeFragment
  rw [Checked.div_ok _ hm, Checked.ok_bind]
  change (Checked.get rx.pkeAcks (rx.fragIdx m) >>= _) = _
  rw [Checked.get_ok hfrag false, Checked.ok_bind]
  dsimp only
  split_ifs
  · rw [Checked.range_ok ha.end_le, Checked.ok_bind, Checked.range_ok (by omega), Checked.ok_bind,
      hp, Checked.deref_some, Checked.ok_bind, Checked.store_ok hstore, Checked.ok_bind]
    change (Checked.set rx.pkeAcks (rx.fragIdx m) true >>= _) = _
    rw [Checked.set_ok hfrag, Checked.ok_bind]
    rfl
  · rfl

theorem scanAcked_ok {acked : List Bool} {left base : Nat} (hl : base + left ≤ acked.length)
    (hw : acked.length < 2 ^ 32) :
    scanAcked acked left base = .ok (HqcRxBuf.scanAcked acked left base) := by
  induction left generalizing base with
  | zero => rfl
  | succ left ih =>
    unfold scanAcked HqcRxBuf.scanAcked
    rw [Checked.get_ok (by omega) false, Checked.ok_bind, Checked.word_ok (by omega),
      Checked.ok_bind, ih (by omega)]
    split_ifs <;> rfl

theorem div_le_pkChunks (h : rx.Fragments) : rx.pkeRcvd / rx.mtu ≤ rx.pkChunks := by
  have hm := h.mtu_pos
  have hle := h.rcvd_le
  exact Nat.div_le_div_right (by omega)

theorem baseFrag_le (h : rx.Fragments) : rx.baseFrag ≤ rx.pkChunks := by
  have hle := div_le_pkChunks h
  obtain ⟨-, hscan, -⟩ := HqcRxBuf.scanAcked_spec rx.pkeAcked
    (rx.pkChunks - rx.pkeRcvd / rx.mtu) (rx.pkeRcvd / rx.mtu)
  have hbase : rx.baseFrag ≤ rx.pkeRcvd / rx.mtu + (rx.pkChunks - rx.pkeRcvd / rx.mtu) := hscan
  omega

theorem baseFrag_ok (h : KeyFits rx) (hl : rx.pkeAcked.length = rx.pkChunks) :
    baseFrag rx = .ok rx.baseFrag := by
  have hle := div_le_pkChunks h.fragments
  have hlt := h.pkChunks_lt
  unfold baseFrag
  rw [Checked.div_ok _ h.fragments.mtu_pos, Checked.ok_bind, h.chunks_ok, Checked.ok_bind,
    scanAcked_ok (by omega) (by omega)]
  rfl

theorem advanceBase_ok (h : KeyFits rx) : advanceBase rx rx.baseFrag = .ok rx.advanceBase := by
  have hle : rx.baseFrag * rx.mtu ≤ rx.pkChunks * rx.mtu :=
    Nat.mul_le_mul_right _ (baseFrag_le h.fragments)
  have hlt := h.chunks_mul_le
  unfold advanceBase
  rw [Checked.word_ok (by omega), Checked.ok_bind]
  rfl

theorem sackMask_ok (h : KeyFits rx) (hl : rx.pkeAcked.length = rx.pkChunks) {base : Nat}
    (hb : base ≤ rx.pkChunks) : sackMask rx base = .ok (rx.sackMask base) := by
  have hlt := h.pkChunks_lt
  unfold sackMask HqcRxBuf.sackMask
  rw [h.chunks_ok, Checked.ok_bind]
  refine (Checked.foldlM_ok (fun _ ↦ True) (fun i hi mask _ ↦ ⟨?_, trivial⟩) trivial).1
  have hi := List.mem_range.mp hi
  rw [Checked.word_ok (by omega), Checked.ok_bind]
  by_cases hidx : base + i < rx.pkChunks
  · rw [if_pos hidx, Checked.get_ok (hl ▸ hidx) false, Checked.ok_bind]
    simp only [hidx, true_and]
  · simp only [hidx, if_false, false_and]

theorem encapBuf_size (hc : ∀ ct, rx.cte.buf = some ct → ct.size = apKemCiphertextBytes)
    (hb : rx.encapBuf e = some ct) : ct.size = apKemCiphertextBytes := by
  unfold HqcRxBuf.encapBuf at hb
  cases hbuf : rx.cte.buf with
  | some ct' =>
    rw [hbuf] at hb
    exact hc ct (hbuf.trans hb)
  | none =>
    rw [hbuf] at hb
    obtain ⟨init, -, rfl⟩ := Option.map_eq_some_iff.mp hb
    rfl

theorem openEphemeral_ok (h : Fits ct s.rx.mtu s.rx.cte.len) :
    openEphemeral P s ct = .ok (KemtlsMavlink.openEphemeral P s ct) := by
  have hsize := h.size
  unfold openEphemeral
  rw [Checked.range_ok (by omega), Checked.ok_bind, sendWindow_ok h, Checked.ok_bind]
  rfl

theorem startEncap_fits {pke : Block} (hp : s.rx.pke = some pke) (hm : 32 ≤ s.rx.mtu)
    (hmax : s.rx.mtu ≤ 220) (hc : ∀ ct, s.rx.cte.buf = some ct → ct.size = apKemCiphertextBytes) :
    (startEncap P e s).1.state ≠ .encapDone ∨ ∃ ct, (startEncap P e s).1.rx.cte.buf = some ct ∧
      Fits ct (startEncap P e s).1.rx.mtu (startEncap P e s).1.rx.cte.len := by
  cases hb : s.rx.encapBuf e with
  | none =>
    rw [startEncap_no_buffer hp hb]
    exact .inl nofun
  | some ct =>
    cases ho : (encapOut P e pke ct).ok with
    | false =>
      rw [startEncap_failed hp hb ho]
      exact .inl nofun
    | true =>
      have hsize : ct.size = apKemCiphertextBytes := encapBuf_size hc hb
      have hlen : apKemCiphertextBytes ≤ 65536 := by decide
      rw [startEncap_done hp hb ho]
      exact .inr ⟨_, rfl, hm, hmax, hlen, Nat.le_of_eq hsize.symm⟩

theorem completeKey_ok (h : KeyFits s.rx) (hm : 32 ≤ s.rx.mtu)
    (hc : ∀ ct, s.rx.cte.buf = some ct → ct.size = apKemCiphertextBytes) :
    completeKey P e s = .ok (KemtlsMavlink.completeKey P e s) := by
  obtain ⟨pke, hp, hs⟩ := h.pke
  have hr := startEncap_fits (P := P) (e := e)
    (s := (s.setTh (pkSummaryTh P s pke)).setState .encapReady) hp hm h.mtu_le hc
  unfold completeKey KemtlsMavlink.completeKey
  simp only [hp]
  rw [Checked.deref_some, Checked.ok_bind, Checked.range_ok (by omega), Checked.ok_bind]
  generalize startEncap P e ((s.setTh (pkSummaryTh P s pke)).setState .encapReady) = r at hr ⊢
  split_ifs with hdone
  · rfl
  · obtain ⟨ct, hb, hfit⟩ := hr.resolve_left hdone
    rw [hfit.chunks_ok, Checked.ok_bind, hb]
    dsimp only
    rw [openEphemeral_ok hfit, Checked.ok_bind]

theorem KeyFits.storeFragment (h : KeyFits rx) (ha : ChunkAccepted rx m) :
    KeyFits (rx.storeFragment m).1 := by
  have hmtu : (rx.storeFragment m).1.mtu = rx.mtu := HqcRxBuf.afterChunk_mtu rx m
  have hlen : (rx.storeFragment m).1.pkLen = rx.pkLen := HqcRxBuf.afterChunk_pkLen rx m
  obtain ⟨pke, hp, hs⟩ := h.pke
  refine ⟨h.fragments.storeFragment ha, hmtu ▸ h.mtu_le, hlen ▸ h.pkLen_le, ?_⟩
  rw [hlen]
  by_cases hr : rx.Received (rx.fragIdx m)
  · exact ⟨pke, (HqcRxBuf.afterChunk_pke_of_received hr).trans hp, hs⟩
  · have hpke := HqcRxBuf.afterChunk_pke_of_not_received hr
    rw [hp, Option.map_some] at hpke
    exact ⟨_, hpke, hs⟩

theorem KeyFits.advanceBase (h : KeyFits rx) : KeyFits rx.advanceBase :=
  ⟨h.fragments.advanceBase, h.mtu_le, h.pkLen_le, h.pke⟩

theorem handleHqcPkChunk_ok (h : s.rx.pke.isSome → KeyFits s.rx ∧ 32 ≤ s.rx.mtu)
    (hc : ∀ ct, s.rx.cte.buf = some ct → ct.size = apKemCiphertextBytes) (m : PkChunk) :
    handleHqcPkChunk P e s m = .ok (KemtlsMavlink.handleHqcPkChunk P e s m) := by
  unfold handleHqcPkChunk KemtlsMavlink.handleHqcPkChunk
  simp only [HqcSession.noteRx_rx]
  rw [pkChunkError_ok (fun hp ↦ (h hp).1), Checked.ok_bind]
  cases he : KemtlsMavlink.pkChunkError s.rx m with
  | some err => rfl
  | none =>
    have ha := pkChunkError_eq_none.mp he
    obtain ⟨hf, hm⟩ := h ha.pke
    have hf' := hf.storeFragment ha
    have hl : (s.rx.storeFragment m).1.pkeAcked.length = (s.rx.storeFragment m).1.pkChunks :=
      (HqcRxBuf.length_afterChunk hf.fragments m).trans (HqcRxBuf.afterChunk_pkChunks s.rx m).symm
    have hmask : sackMask (s.rx.storeFragment m).1.advanceBase
        (s.rx.storeFragment m).1.baseFrag = .ok _ :=
      sackMask_ok hf'.advanceBase hl (baseFrag_le hf'.fragments)
    have hkey := completeKey_ok (P := P) (e := e)
      (s := (s.noteRx (e.millis 0)).setRx (s.rx.afterChunk m)) hf'.advanceBase
      (by simpa using hm) (by simpa using hc)
    dsimp only
    rw [storeFragment_ok hf ha, Checked.ok_bind, baseFrag_ok hf' hl, Checked.ok_bind,
      advanceBase_ok hf', Checked.ok_bind, hmask, Checked.ok_bind]
    change (if (s.rx.afterChunk m).KeyComplete then
      completeKey P e ((s.noteRx (e.millis 0)).setRx (s.rx.afterChunk m)) >>= _ else _) = _
    rw [hkey, Checked.ok_bind]
    by_cases hk : (s.rx.afterChunk m).KeyComplete
    · simp only [hk, if_true]
      rfl
    · simp only [hk, if_false]
      rfl

end Bounds

end KemtlsMavlink
