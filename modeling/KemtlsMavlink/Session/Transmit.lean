import KemtlsMavlink.Library.Flags
import KemtlsMavlink.Session.CtAck
import KemtlsMavlink.Session.Tick

namespace KemtlsMavlink

open Library

variable {ρ : Type} {P : Platform ρ} {e : Env ρ} {s s' s'' : HqcSession}

/-- The part of a session that the transmission of ciphertexts leaves alone:
all but the state, the clocks, the retry counters and the ack vectors. -/
def HqcSession.core (s : HqcSession) : HqcSession :=
  { s with
    state := .idle, tLastRx := 0, tLastTx := 0
    rx := { s.rx with
      retries := fun _ ↦ 0
      cte := { s.rx.cte with acked := [], sent := 0 }
      cts := { s.rx.cts with acked := [], sent := 0 } } }

/-- Once an ack vector has its size, it keeps it and no entry is cleared. -/
structure CtStream.Grows (mtu : Nat) (st st' : CtStream) : Prop where
  length : st.acked.length = st.chunks mtu → st'.acked.length = st.chunks mtu
  acked : st.acked.length = st.chunks mtu →
    ∀ i, st.acked.getD i false = true → st'.acked.getD i false = true

theorem CtStream.Grows.refl (mtu : Nat) (st : CtStream) : st.Grows mtu st := ⟨id, fun _ _ ↦ id⟩

theorem CtStream.Grows.trans {mtu : Nat} {a b c : CtStream} (hl : b.len = a.len)
    (h : a.Grows mtu b) (h' : b.Grows mtu c) : a.Grows mtu c := by
  have hc : b.chunks mtu = a.chunks mtu := by simp only [chunks, hl]
  refine ⟨fun ha ↦ hc ▸ h'.length (hc ▸ h.length ha), fun ha i hi ↦ ?_⟩
  exact h'.acked (hc ▸ h.length ha) i (h.acked ha i hi)

/-- What handling a `CT_ACK` and pumping the ciphertexts have in common. -/
structure Transmits (s s' : HqcSession) : Prop where
  core : s'.core = s.core
  cte : s.rx.cte.Grows s.rx.mtu s'.rx.cte
  cts : s.rx.cts.Grows s.rx.mtu s'.rx.cts

namespace HqcSession

theorem rx_mtu_of_core (h : s'.core = s.core) : s'.rx.mtu = s.rx.mtu :=
  congrArg (fun t ↦ t.rx.mtu) h

theorem cte_len_of_core (h : s'.core = s.core) : s'.rx.cte.len = s.rx.cte.len :=
  congrArg (fun t ↦ t.rx.cte.len) h

theorem cts_len_of_core (h : s'.core = s.core) : s'.rx.cts.len = s.rx.cts.len :=
  congrArg (fun t ↦ t.rx.cts.len) h

end HqcSession

theorem Transmits.th_eq (h : Transmits s s') : s'.th = s.th := congrArg (fun t ↦ t.th) h.core

theorem Transmits.alg_eq (h : Transmits s s') : s'.aeadAlg = s.aeadAlg :=
  congrArg (fun t ↦ t.aeadAlg) h.core

theorem Transmits.refl (s : HqcSession) : Transmits s s := ⟨rfl, .refl _ _, .refl _ _⟩

theorem Transmits.trans (h : Transmits s s') (h' : Transmits s' s'') : Transmits s s'' := by
  have hm := HqcSession.rx_mtu_of_core h.core
  refine ⟨h'.core.trans h.core, ?_, ?_⟩
  · exact h.cte.trans (HqcSession.cte_len_of_core h.core) (hm ▸ h'.cte)
  · exact h.cts.trans (HqcSession.cts_len_of_core h.core) (hm ▸ h'.cts)

theorem Transmits.of_core (hc : s'.core = s.core) (hcte : s'.rx.cte = s.rx.cte)
    (hcts : s'.rx.cts = s.rx.cts) : Transmits s s' :=
  ⟨hc, by rw [hcte]; exact .refl _ _, by rw [hcts]; exact .refl _ _⟩

theorem Transmits.setStream (h : Transmits s s') (kind : UInt8) (st : CtStream)
    (hb : st.buf = (s'.rx.stream kind).buf) (hl : st.len = (s'.rx.stream kind).len)
    (hg : (s'.rx.stream kind).Grows s'.rx.mtu st) :
    Transmits s (s'.setRx (s'.rx.setStream kind st)) := by
  apply h.trans
  by_cases hk : kind = 0
  · simp only [HqcRxBuf.stream, hk, if_true] at hb hl hg
    refine ⟨?_, ?_, ?_⟩
    · simp [HqcSession.core, HqcSession.setRx, HqcRxBuf.setStream, hk, hb, hl]
    · simpa [HqcRxBuf.setStream, hk] using hg
    · simpa [HqcRxBuf.setStream, hk] using .refl _ _
  · simp only [HqcRxBuf.stream, hk, if_false] at hb hl hg
    refine ⟨?_, ?_, ?_⟩
    · simp [HqcSession.core, HqcSession.setRx, HqcRxBuf.setStream, hk, hb, hl]
    · simpa [HqcRxBuf.setStream, hk] using .refl _ _
    · simpa [HqcRxBuf.setStream, hk] using hg

namespace CtStream

variable {st : CtStream} {mtu : Nat}

theorem length_sizedAcks : (st.sizedAcks mtu).length = st.chunks mtu := by
  unfold sizedAcks
  split_ifs with h
  · exact List.length_replicate
  · exact not_not.mp h

theorem sizedAcks_of_length (h : st.acked.length = st.chunks mtu) :
    st.sizedAcks mtu = st.acked := if_neg (not_not.mpr h)

theorem grows_sizedAcks (st : CtStream) (mtu sent : Nat) :
    st.Grows mtu { st with acked := st.sizedAcks mtu, sent := sent } :=
  ⟨fun _ ↦ length_sizedAcks, fun h i hi ↦ by simpa only [sizedAcks_of_length h] using hi⟩

end CtStream

theorem markAcked_eq (acked : List Bool) (chunks baseIdx : Nat) (mask : UInt32) :
    markAcked acked chunks baseIdx mask =
      (List.range 32).foldl (fun a i ↦
        if decide (baseIdx + i < chunks ∧ (mask >>> UInt32.ofNat i) &&& 1 = 1) then
          a.set (baseIdx + i) true else a)
        ((List.range (min baseIdx acked.length)).foldl
          (fun a i ↦ if true then a.set (id i) true else a) acked) := by
  simp [markAcked]

@[simp] theorem length_markAcked (acked : List Bool) (chunks baseIdx : Nat) (mask : UInt32) :
    (markAcked acked chunks baseIdx mask).length = acked.length := by
  rw [markAcked_eq, length_foldl_mark, length_foldl_mark (fun _ ↦ true) id]

/-- The acknowledgement names fragment `k`: below its base, or in its mask. -/
def CtAck.Names (m : CtAck) (mtu k : Nat) : Prop :=
  k < m.base.toNat / mtu ∨
    ∃ i < 32, (m.mask >>> UInt32.ofNat i) &&& 1 = 1 ∧ m.base.toNat / mtu + i = k

theorem getD_markAcked {acked : List Bool} {chunks : Nat} (hl : acked.length = chunks) (m : CtAck)
    (mtu k : Nat) :
    (markAcked acked chunks (m.base.toNat / mtu) m.mask).getD k false = true ↔
      acked.getD k false = true ∨ k < chunks ∧ m.Names mtu k := by
  rw [markAcked_eq, getD_foldl_mark, getD_foldl_mark (fun _ ↦ true) id,
    length_foldl_mark (fun _ ↦ true) id, hl]
  simp only [List.mem_range, true_and, id_eq, decide_eq_true_eq, CtAck.Names]
  constructor
  · rintro ((h | ⟨hk, j, hj, rfl⟩) | ⟨hk, i, hi, ⟨-, hb⟩, he⟩)
    · exact .inl h
    · exact .inr ⟨hk, .inl (by omega)⟩
    · exact .inr ⟨hk, .inr ⟨i, hi, hb, he⟩⟩
  · rintro (h | ⟨hk, hb | ⟨i, hi, hb, he⟩⟩)
    · exact .inl (.inl h)
    · exact .inl (.inr ⟨hk, k, by omega, rfl⟩)
    · exact .inr ⟨hk, i, hi, ⟨by omega, hb⟩, he⟩

theorem grows_markedStream (st : CtStream) (mtu sent : Nat) (m : CtAck) :
    st.Grows mtu { markedStream st mtu m with sent := sent } := by
  refine ⟨fun _ ↦ ?_, fun h i hi ↦ ?_⟩
  · simp [markedStream, CtStream.length_sizedAcks]
  · simp only [markedStream, CtStream.sizedAcks_of_length h]
    exact (getD_markAcked h m mtu i).mpr (.inl hi)

theorem allAcked_iff {v : List Bool} :
    CtStream.allAcked v = true ↔ v ≠ [] ∧ ∀ i < v.length, v.getD i false = true := by
  unfold CtStream.allAcked
  constructor
  · intro h
    obtain ⟨hne, hall⟩ := Bool.and_eq_true_iff.mp h
    refine ⟨by simpa using hne, fun i hi ↦ ?_⟩
    have := List.all_eq_true.mp hall v[i] (List.getElem_mem hi)
    simpa [List.getD_eq_getElem?_getD, hi] using this
  · intro ⟨hne, hall⟩
    refine Bool.and_eq_true_iff.mpr ⟨by simpa using hne, List.all_eq_true.mpr fun b hb ↦ ?_⟩
    obtain ⟨i, hi, rfl⟩ := List.getElem_of_mem hb
    simpa [List.getD_eq_getElem?_getD, hi] using hall i hi

theorem CtStream.Grows.done {mtu : Nat} {st st' : CtStream} (h : st.Grows mtu st')
    (hs : st.acked.length = st.chunks mtu) (hl : st'.len = st.len) (hd : st.done = true) :
    st'.done = true := by
  obtain ⟨ha, hz⟩ := Bool.and_eq_true_iff.mp hd
  obtain ⟨hne, hall⟩ := allAcked_iff.mp ha
  have hlen : st'.acked.length = st.acked.length := (h.length hs).trans hs.symm
  refine Bool.and_eq_true_iff.mpr ⟨allAcked_iff.mpr ⟨?_, fun i hi ↦ ?_⟩, by rw [hl]; exact hz⟩
  · exact List.ne_nil_of_length_pos (hlen ▸ List.length_pos_of_ne_nil hne)
  · exact h.acked hs i (hall i (hlen ▸ hi))

theorem Transmits.sized (h : Transmits s s') (hs : s.rx.Sized) : s'.rx.Sized := by
  have hm := HqcSession.rx_mtu_of_core h.core
  unfold HqcRxBuf.Sized CtStream.chunks
  rw [hm, HqcSession.cte_len_of_core h.core, HqcSession.cts_len_of_core h.core]
  exact ⟨h.cte.length hs.1, h.cts.length hs.2⟩

theorem Transmits.bothDone (h : Transmits s s') (hs : s.rx.Sized) (hd : s.BothDone) : s'.BothDone :=
  ⟨h.cte.done hs.1 (HqcSession.cte_len_of_core h.core) hd.1,
    h.cts.done hs.2 (HqcSession.cts_len_of_core h.core) hd.2⟩

theorem applyCtAck_fst (rx : HqcRxBuf) (m : CtAck) (ct : Block) :
    ∃ sent retries, (applyCtAck rx m ct).1 = { rx with retries := retries }.setStream m.ctKind
      { markedStream (rx.stream m.ctKind) rx.mtu m with sent := sent } := ⟨_, _, rfl⟩

/-- A `CT_ACK` transmits, and can change the state only to `WAIT_CF`, with both
streams done. -/
theorem handleHqcCtAck_spec (e : Env ρ) (s : HqcSession) (m : CtAck) :
    Transmits s (handleHqcCtAck e s m).1 ∧
      ((handleHqcCtAck e s m).1.state = s.state ∨
        (handleHqcCtAck e s m).1.state = .waitCf ∧ (handleHqcCtAck e s m).1.BothDone) := by
  by_cases hm : m.Held s.rx
  · obtain ⟨ct, -, h⟩ := handleHqcCtAck_held e hm
    obtain ⟨sent, retries, hrx⟩ := applyCtAck_fst s.rx m ct
    have ht : Transmits s ((s.noteRx (e.millis 0)).setRx (applyCtAck s.rx m ct).1) := by
      rw [hrx]
      have h₀ : Transmits s ((s.noteRx (e.millis 0)).setRx { s.rx with retries := retries }) :=
        .of_core rfl rfl rfl
      exact h₀.setStream m.ctKind _ rfl rfl (grows_markedStream _ _ _ m)
    rw [h, settleCtAck]
    split_ifs with hd
    · exact ⟨ht.trans (.of_core rfl rfl rfl), .inr ⟨rfl, by simpa [HqcSession.BothDone] using hd⟩⟩
    · exact ⟨ht, .inl rfl⟩
  · rw [handleHqcCtAck_ignored e hm]
    exact ⟨.of_core rfl rfl rfl, .inl rfl⟩

theorem pumpNew_spec (now : UInt32) (kind : UInt8) {st : CtStream} (ct : Block) (inflight : Nat)
    (h : Transmits s s') (hb : st.buf = (s'.rx.stream kind).buf)
    (hl : st.len = (s'.rx.stream kind).len)
    (hg : ∀ sent, (s'.rx.stream kind).Grows s'.rx.mtu { st with sent := sent }) :
    Transmits s (pumpNew now kind s' st ct inflight).1 ∧
      (pumpNew now kind s' st ct inflight).1.state = s'.state := by
  have ht := fun sent ↦ h.setStream kind { st with sent := sent } hb hl (hg sent)
  unfold pumpNew
  dsimp only
  split
  · exact ⟨ht _, rfl⟩
  · exact ⟨(ht _).trans (.of_core rfl rfl rfl), rfl⟩

theorem abortTimeout_fst (s : HqcSession) (detail : UInt8) (value : Nat) :
    ∃ s₀ : HqcSession, (abortTimeout P s detail value).1 = s₀.wipe := ⟨_, rfl⟩

/-- `pump_stream` transmits, or it wipes the session and says so. -/
theorem pumpStream_spec (P : Platform ρ) (now : UInt32) (kind : UInt8) (s : HqcSession) :
    (pumpStream P now kind s).2.2 = true ∧ Transmits s (pumpStream P now kind s).1 ∧
        (pumpStream P now kind s).1.state = s.state ∨
      (pumpStream P now kind s).2.2 = false ∧
        ∃ s₀ : HqcSession, (pumpStream P now kind s).1 = s₀.wipe := by
  unfold pumpStream
  cases (s.rx.stream kind).buf with
  | none => exact .inl ⟨rfl, .refl s, rfl⟩
  | some ct =>
    dsimp only
    split_ifs
    · exact .inl ⟨rfl, .refl s, rfl⟩
    · unfold pumpCt
      dsimp only
      have hg := (s.rx.stream kind).grows_sizedAcks s.rx.mtu
      split
      · exact .inr ⟨rfl, abortTimeout_fst ..⟩
      · exact .inl ⟨rfl, pumpNew_spec now kind ct _ (.refl s) rfl rfl hg⟩
      · exact .inl ⟨rfl, pumpNew_spec now kind ct _ (.of_core rfl rfl rfl) rfl rfl hg⟩

theorem pumpDone_spec (h : Transmits s s') :
    Transmits s (pumpDone s') ∧ ((pumpDone s').state = s'.state ∨
      s'.state = .ctTx ∧ (pumpDone s').state = .waitCf ∧ (pumpDone s').BothDone) := by
  unfold pumpDone
  split_ifs with hd
  · simp only [Bool.and_eq_true, decide_eq_true_eq] at hd
    exact ⟨h.trans (.of_core rfl rfl rfl), .inr ⟨hd.2, rfl, hd.1⟩⟩
  · exact ⟨h, .inl rfl⟩

theorem pumpTx_spec (P : Platform ρ) (now : UInt32) (s : HqcSession) :
    Transmits s (pumpTx P now s).1 ∧ ((pumpTx P now s).1.state = s.state ∨
        s.state = .ctTx ∧ (pumpTx P now s).1.state = .waitCf ∧ (pumpTx P now s).1.BothDone) ∨
      ∃ s₀ : HqcSession, (pumpTx P now s).1 = s₀.wipe := by
  unfold pumpTx
  split_ifs
  · exact .inl ⟨.refl s, .inl rfl⟩
  · dsimp only
    rcases pumpStream_spec P now 0 s with ⟨hgo, ht, hs⟩ | ⟨hgo, hw⟩
    · rcases pumpStream_spec P now 1 (pumpStream P now 0 s).1 with ⟨hgo', ht', hs'⟩ | ⟨hgo', hw'⟩
      · simp only [hgo, hgo', Bool.not_true, Bool.false_eq_true, if_false]
        rw [← hs, ← hs']
        exact .inl (pumpDone_spec (ht.trans ht'))
      · simp only [hgo, hgo', Bool.not_true, Bool.not_false, Bool.false_eq_true, if_false, if_true]
        exact .inr hw'
    · simp only [hgo, Bool.not_false, if_true]
      exact .inr hw

theorem probeStream_spec (now : UInt32) (kind : UInt8) (s : HqcSession) :
    Transmits s (probeStream now kind s).1 ∧ (probeStream now kind s).1.state = s.state := by
  have ht := (Transmits.refl s).setStream kind
    { s.rx.stream kind with acked := (s.rx.stream kind).sizedAcks s.rx.mtu } rfl rfl
    ((s.rx.stream kind).grows_sizedAcks s.rx.mtu (s.rx.stream kind).sent)
  unfold probeStream
  dsimp only at ht ⊢
  cases hb : (s.rx.stream kind).buf with
  | none => exact ⟨.refl s, rfl⟩
  | some ct =>
    rw [hb] at ht
    dsimp only
    split_ifs
    · exact ⟨.refl s, rfl⟩
    · split
      · exact ⟨ht, rfl⟩
      · exact ⟨ht.trans (.of_core rfl rfl rfl), rfl⟩

theorem kickAcks_spec (e : Env ρ) (s : HqcSession) :
    Transmits s (kickAcks e s).1 ∧ (kickAcks e s).1.state = s.state := by
  unfold kickAcks
  split_ifs
  · exact ⟨.refl s, rfl⟩
  · obtain ⟨ht, hs⟩ := probeStream_spec (e.millis 1) 0 s
    obtain ⟨ht', hs'⟩ := probeStream_spec (e.millis 2) 1 (probeStream (e.millis 1) 0 s).1
    exact ⟨ht.trans ht', hs'.trans hs⟩

theorem nudge_spec (e : Env ρ) (now : UInt32) (s : HqcSession) :
    Transmits s ((kickAcks e s).1.noteRx now) ∧ ((kickAcks e s).1.noteRx now).state = s.state := by
  obtain ⟨ht, hs⟩ := kickAcks_spec e s
  exact ⟨ht.trans (.of_core rfl rfl rfl), hs⟩

/-- A tick leaves a session at rest alone. In a running handshake it transmits,
and can change the state only from `CT_TX` to `WAIT_CF` with both streams done,
or it wipes the session. -/
theorem tick_spec (P : Platform ρ) (e : Env ρ) (hz : s.rx.Sized) :
    Transmits s (tick P e s).1 ∧ ((tick P e s).1.state = s.state ∨
        s.state = .ctTx ∧ (tick P e s).1.state = .waitCf ∧ (tick P e s).1.BothDone) ∨
      ¬ (s.state = .idle ∨ s.state = .fail ∨ s.state = .active) ∧
        ∃ s₀ : HqcSession, Transmits s₀.wipe (tick P e s).1 ∧ (tick P e s).1.state = .fail := by
  unfold tick
  dsimp only
  split_ifs with hr ht hn
  · exact .inl ⟨.refl s, .inl rfl⟩
  · obtain ⟨s₀, h⟩ := abortTimeout_fst (P := P) s 2 0
    rw [h]
    exact .inr ⟨hr, s₀, .refl _, rfl⟩
  · obtain ⟨hk, hs⟩ := nudge_spec e (e.millis 0) (pumpTx P (e.millis 0) s).1
    rcases pumpTx_spec P (e.millis 0) s with ⟨ht, hp⟩ | ⟨s₀, hw⟩
    · refine .inl ⟨ht.trans hk, hp.imp hs.trans fun ⟨h, h', hd⟩ ↦ ⟨h, hs.trans h', ?_⟩⟩
      exact hk.bothDone (ht.sized hz) hd
    · exact .inr ⟨hr, s₀, hw ▸ hk, hs.trans (by rw [hw]; rfl)⟩
  · rcases pumpTx_spec P (e.millis 0) s with h | ⟨s₀, hw⟩
    · exact .inl h
    · rw [hw]
      exact .inr ⟨hr, s₀, .refl _, rfl⟩

def Effect.IsNotice : Effect → Prop
  | .hqcStatus .. | .hqcAbort .. => True
  | _ => False

/-- Reports, and slices of the two ciphertexts that the session holds. -/
def Sends (s : HqcSession) (fx : List Effect) : Prop :=
  ∀ o ∈ fx, o.IsNotice ∨ ∃ kind ct off, (s.rx.stream kind).buf = some ct ∧
    o = .ctChunk (ctChunkAt ct s.rx.sessionId kind s.rx.mtu (s.rx.stream kind).len off)

namespace Sends

theorem nil (s : HqcSession) : Sends s [] := by
  intro o ho
  cases ho

theorem notice {o : Effect} (h : o.IsNotice) : Sends s [o] := by
  intro o' ho
  rw [List.mem_singleton.mp ho]
  exact .inl h

theorem append {fx fx' : List Effect} (h : Sends s fx) (h' : Sends s fx') :
    Sends s (fx ++ fx') := by
  intro o ho
  exact (List.mem_append.mp ho).elim (h o) (h' o)

theorem of_core {fx : List Effect} (hc : s'.core = s.core) (h : Sends s' fx) : Sends s fx := by
  intro o ho
  refine (h o ho).imp_right fun ⟨kind, ct, off, hb, he⟩ ↦ ⟨kind, ct, off, ?_⟩
  have hid : s'.rx.sessionId = s.rx.sessionId := congrArg (fun t ↦ t.rx.sessionId) hc
  have hm : s'.rx.mtu = s.rx.mtu := HqcSession.rx_mtu_of_core hc
  have hbuf : (s'.rx.stream kind).buf = (s.rx.stream kind).buf :=
    HqcRxBuf.stream_rel (R := fun a b ↦ a.buf = b.buf) (congrArg (fun t ↦ t.rx.cte.buf) hc)
      (congrArg (fun t ↦ t.rx.cts.buf) hc) kind
  have hlen : (s'.rx.stream kind).len = (s.rx.stream kind).len :=
    HqcRxBuf.stream_rel (R := fun a b ↦ a.len = b.len) (HqcSession.cte_len_of_core hc)
      (HqcSession.cts_len_of_core hc) kind
  exact ⟨hbuf ▸ hb, by rw [he, hid, hm, hlen]⟩

theorem forall_effect {Q : Effect → Prop} {fx : List Effect} (h : Sends s fx)
    (hn : ∀ o, o.IsNotice → Q o)
    (hc : ∀ kind ct off, (s.rx.stream kind).buf = some ct →
      Q (.ctChunk (ctChunkAt ct s.rx.sessionId kind s.rx.mtu (s.rx.stream kind).len off))) :
    ∀ o ∈ fx, Q o := by
  intro o ho
  rcases h o ho with hno | ⟨kind, ct, off, hb, rfl⟩
  · exact hn o hno
  · exact hc kind ct off hb

theorem chunk {kind : UInt8} {ct : Block} (hb : (s.rx.stream kind).buf = some ct) (off : Nat) :
    Sends s
      [.ctChunk (ctChunkAt ct s.rx.sessionId kind s.rx.mtu (s.rx.stream kind).len off)] := by
  intro o ho
  exact .inr ⟨kind, ct, off, hb, List.mem_singleton.mp ho⟩

theorem window {kind : UInt8} {ct : Block} (hb : (s.rx.stream kind).buf = some ct)
    (budget off : Nat) : Sends s
      (sendWindow ct s.rx.sessionId kind s.rx.mtu (s.rx.stream kind).len budget off).1 := by
  intro o ho
  obtain ⟨off', he⟩ := sendWindow_chunks _ _ _ _ _ _ _ o ho
  exact .inr ⟨kind, ct, off', hb, he⟩

end Sends

theorem ackSend_sends {kind : UInt8} {ct : Block} (hb : (s.rx.stream kind).buf = some ct)
    (window : Nat) (maxRetries : UInt8) (acked : List Bool) (inflight : Nat) (is : List Nat)
    (a : AckSend) : Sends s (ackSend ct s.rx.sessionId kind s.rx.mtu (s.rx.stream kind).len window
      maxRetries acked inflight is a).1 := by
  induction is generalizing a with
  | nil => exact .nil s
  | cons i is ih =>
    unfold ackSend
    dsimp only
    split
    · exact .nil s
    · split
      · exact ih _
      · split
        · exact ih _
        · exact (Sends.chunk hb (i * s.rx.mtu)).append (ih _)

theorem handleHqcCtAck_sends (e : Env ρ) (s : HqcSession) (m : CtAck) :
    Sends s (handleHqcCtAck e s m).2 := by
  by_cases hm : m.Held s.rx
  · obtain ⟨ct, hb, h⟩ := handleHqcCtAck_held e hm
    rw [h]
    exact ackSend_sends hb _ _ _ _ _ _
  · rw [handleHqcCtAck_ignored e hm]
    exact .nil s

theorem pumpStream_sends (P : Platform ρ) (now : UInt32) (kind : UInt8) (s : HqcSession) :
    Sends s (pumpStream P now kind s).2.1 := by
  unfold pumpStream
  cases hb : (s.rx.stream kind).buf with
  | none => exact .nil s
  | some ct =>
    dsimp only
    split_ifs
    · exact .nil s
    · unfold pumpCt
      dsimp only
      split
      · exact .notice trivial
      · exact .window hb _ _
      · exact (Sends.chunk hb _).append (.window hb _ _)

theorem pumpTx_sends (P : Platform ρ) (now : UInt32) (s : HqcSession) :
    Sends s (pumpTx P now s).2 := by
  have h₀ := pumpStream_sends P now 0 s
  unfold pumpTx
  split_ifs
  · exact .nil s
  · dsimp only
    rcases pumpStream_spec P now 0 s with ⟨hgo, ht, -⟩ | ⟨hgo, -⟩
    · have h₁ := (pumpStream_sends P now 1 (pumpStream P now 0 s).1).of_core ht.core
      simp only [hgo, Bool.not_true, Bool.false_eq_true, if_false]
      exact h₀.append h₁
    · simp only [hgo, Bool.not_false, if_true]
      exact h₀

theorem probeStream_sends (now : UInt32) (kind : UInt8) (s : HqcSession) :
    Sends s (probeStream now kind s).2 := by
  unfold probeStream
  dsimp only
  cases hb : (s.rx.stream kind).buf with
  | none => exact .nil s
  | some ct =>
    dsimp only
    split_ifs
    · exact .nil s
    · split
      · exact .nil s
      · simp only [HqcSession.setRx_rx, HqcRxBuf.setStream_sessionId, HqcRxBuf.setStream_mtu]
        exact .chunk hb _

theorem kickAcks_sends (e : Env ρ) (s : HqcSession) : Sends s (kickAcks e s).2 := by
  unfold kickAcks
  split_ifs
  · exact .nil s
  · obtain ⟨ht, -⟩ := probeStream_spec (e.millis 1) 0 s
    exact (probeStream_sends (e.millis 1) 0 s).append
      ((probeStream_sends (e.millis 2) 1 _).of_core ht.core)

theorem stream_buf_wipe (s : HqcSession) (kind : UInt8) : (s.wipe.rx.stream kind).buf = none :=
  HqcRxBuf.forall_stream (Q := fun st ↦ st.buf = none) rfl rfl kind

theorem Sends.of_wiped {s₀ : HqcSession} {fx : List Effect} (h : Sends s₀.wipe fx) :
    Sends s fx := by
  intro o ho
  refine (h o ho).imp_right fun ⟨kind, ct, off, hb, _⟩ ↦ ?_
  exact nomatch (stream_buf_wipe s₀ kind).symm.trans hb

theorem tick_sends (P : Platform ρ) (e : Env ρ) (s : HqcSession) : Sends s (tick P e s).2 := by
  unfold tick
  dsimp only
  split_ifs
  · exact .nil s
  · exact .notice trivial
  · apply (pumpTx_sends P (e.millis 0) s).append
    have hk := kickAcks_sends e (pumpTx P (e.millis 0) s).1
    rcases pumpTx_spec P (e.millis 0) s with ⟨ht, -⟩ | ⟨s₀, hw⟩
    · exact hk.of_core ht.core
    · rw [hw] at hk ⊢
      exact hk.of_wiped
  · exact pumpTx_sends P (e.millis 0) s

end KemtlsMavlink
