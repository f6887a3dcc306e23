import KemtlsMavlink.Session.Encapsulation
import KemtlsMavlink.Session.Progress

namespace KemtlsMavlink

open Library

variable {ρ : Type} {P : Platform ρ} {R : UInt8 → Nat → Prop} {s : HqcSession} {i : Input ρ}
  {rx rx' : HqcRxBuf} {fx : List Effect} {kind : UInt8} {ct : Block}

/-- The chunk is a whole fragment of the ciphertext of its kind: it starts at a
multiple of the MTU, and carries what there is from there on, up to the MTU. -/
def CtChunk.IsFragmentOf (c : CtChunk) (rx : HqcRxBuf) : Prop :=
  ∃ ct i, rx.Holds c.ctKind ct ∧ c.offset = i * rx.mtu ∧
    c.count = min rx.mtu ((rx.stream c.ctKind).len - c.offset) ∧ 1 ≤ c.count ∧
    c.SliceOf (ct.read 0 (rx.stream c.ctKind).len)

def Effect.IsFragmentOf (rx : HqcRxBuf) : Effect → Prop
  | .ctChunk c => c.IsFragmentOf rx
  | _ => True

/-- The receive buffer whose ciphertexts an input sends: a `HELLO` and a
`PK_CHUNK` send the one that they have made. -/
def sendingBuf (i : Input ρ) (before after : HqcRxBuf) : HqcRxBuf :=
  match i.event with
  | .hello _ | .pkChunk _ => after
  | _ => before

/-- The invariant of the flow control: whole fragments have been sent, and no
more of them are in flight than the window allows. -/
structure CtStream.Flow (mtu window : Nat) (st : CtStream) : Prop where
  aligned : Aligned mtu st.len st.sent
  inflight_le : CtStream.inflight st.acked (st.chunks mtu) mtu st.sent ≤ window

structure Flow (rx : HqcRxBuf) : Prop where
  mtu_pos : 0 < rx.mtu
  stream : ∀ kind, (rx.stream kind).Flow rx.mtu rx.window

theorem fragment_isFragmentOf (hm : 0 < rx.mtu) (hc : rx.Holds kind ct) {j : Nat}
    (hj : j * rx.mtu < (rx.stream kind).len) : (rx.fragment kind ct j).IsFragmentOf rx := by
  refine ⟨ct, j, hc, rfl, rfl, ?_, ctChunkAt_sliceOf ct _ kind _ _ _⟩
  change 1 ≤ min rx.mtu ((rx.stream kind).len - j * rx.mtu)
  omega

theorem isFragmentOf_of_silent {o : Effect} (h : o.IsSilent) : o.IsFragmentOf rx := by
  cases o with
  | ctChunk c => exact h.elim
  | _ => trivial

theorem SameStreams.isFragmentOf (h : SameStreams rx rx') {o : Effect} (ho : o.IsFragmentOf rx') :
    o.IsFragmentOf rx := by
  cases o with
  | ctChunk c =>
    obtain ⟨ct, j, hc, hoff, hcount, hpos, hslice⟩ := ho
    rw [h.mtu] at hoff hcount
    rw [h.len] at hcount hslice
    exact ⟨ct, j, ⟨h.buf _ ▸ hc.buf, h.len _ ▸ hc.len⟩, hoff, hcount, hpos, hslice⟩
  | _ => trivial

theorem map_fragment_isFragmentOf (hm : 0 < rx.mtu) (hc : rx.Holds kind ct) {l : List Nat}
    (hl : ∀ j ∈ l, j * rx.mtu < (rx.stream kind).len) :
    ∀ o ∈ l.map (rx.fragment kind ct), o.IsFragmentOf rx := by
  intro o ho
  obtain ⟨j, hj, rfl⟩ := List.mem_map.mp ho
  exact fragment_isFragmentOf hm hc (hl j hj)

theorem sendWindow_spec (hm : 0 < rx.mtu) {k : Nat}
    (hk : (rx.stream kind).sent = cut rx.mtu (rx.stream kind).len k) (ct : Block) (budget : Nat) :
    ∃ n ≤ budget, k + n ≤ max k (fragments rx.mtu (rx.stream kind).len) ∧
      rx.sendWindow kind ct budget = ((List.range' k n).map (rx.fragment kind ct),
        cut rx.mtu (rx.stream kind).len (k + n)) := by
  refine ⟨min budget (fragments rx.mtu (rx.stream kind).len - k), Nat.min_le_left _ _, ?_, ?_⟩
  · omega
  · rw [HqcRxBuf.sendWindow, hk]
    exact sendWindow_eq hm ct _ kind _ budget k

theorem lt_of_mem_window {mtu len k n j : Nat} (hm : 0 < mtu)
    (hn : k + n ≤ max k (fragments mtu len)) (hj : j ∈ List.range' k n) : j * mtu < len := by
  obtain ⟨h₁, h₂⟩ := List.mem_range'_1.mp hj
  exact (lt_fragments hm).mp (by omega)

theorem inflight_cut_le {mtu : Nat} (hm : 0 < mtu) (acked : List Bool) (len k n : Nat) :
    CtStream.inflight acked (fragments mtu len) mtu (cut mtu len (k + n)) ≤
      CtStream.inflight acked (fragments mtu len) mtu (cut mtu len k) + n := by
  have hnew : ∀ j < fragments mtu len,
      (!acked.getD j false && decide (j * mtu < cut mtu len (k + n))) = true →
        (!acked.getD j false && decide (j * mtu < cut mtu len k)) = true ∨
          j ∈ List.range' k n := by
    intro j hj hq
    obtain ⟨hu, hlt⟩ := Bool.and_eq_true_iff.mp hq
    obtain ⟨hjk, hlen⟩ := (mul_lt_cut hm).mp (of_decide_eq_true hlt)
    rcases Nat.lt_or_ge j k with hlt | hge
    · left
      rw [hu, Bool.true_and, decide_eq_true_eq]
      exact (mul_lt_cut hm).mpr ⟨hlt, hlen⟩
    · exact .inr (List.mem_range'_1.mpr ⟨hge, hjk⟩)
  have hle := countP_range_le hnew
  rwa [List.length_range'] at hle

theorem Flow.setStream (h : Flow rx) {st : CtStream} (hst : st.Flow rx.mtu rx.window) :
    Flow (rx.setStream kind st) := by
  refine ⟨by rw [HqcRxBuf.setStream_mtu]; exact h.mtu_pos, fun kind' ↦ ?_⟩
  rw [HqcRxBuf.setStream_mtu, HqcRxBuf.setStream_window, stream_setStream]
  split_ifs
  · exact hst
  · exact h.stream kind'

theorem Flow.step (h : Flow rx) (hs : RxStep R rx rx' fx) :
    Flow rx' ∧ ∀ o ∈ fx, o.IsFragmentOf rx := by
  cases hs with
  | resend kind ct j hk hc hr hj hf ht =>
    refine ⟨⟨h.mtu_pos, h.stream⟩, List.forall_mem_singleton.mpr ?_⟩
    exact fragment_isFragmentOf h.mtu_pos hc hj
  | probe kind ct j hk hc hj =>
    exact ⟨h, List.forall_mem_singleton.mpr (fragment_isFragmentOf h.mtu_pos hc hj)⟩
  | window kind ct budget hk hc hb =>
    obtain ⟨k, hcut⟩ := (h.stream kind).aligned
    obtain ⟨n, hn, hle, hw⟩ := sendWindow_spec h.mtu_pos hcut ct budget
    rw [hw]
    refine ⟨h.setStream ⟨⟨k + n, rfl⟩, ?_⟩,
      map_fragment_isFragmentOf h.mtu_pos hc fun j hj ↦ lt_of_mem_window h.mtu_pos hle hj⟩
    have hin := (h.stream kind).inflight_le
    have hnew := inflight_cut_le h.mtu_pos (rx.stream kind).acked (rx.stream kind).len k n
    rw [← hcut] at hnew
    unfold HqcRxBuf.inflight at hb
    apply hnew.trans
    change CtStream.inflight _ ((rx.stream kind).chunks rx.mtu) _ _ + n ≤ _
    omega

theorem Flow.steps (h : Flow rx) (hs : RxSteps R rx rx' fx) :
    Flow rx' ∧ ∀ o ∈ fx, o.IsFragmentOf rx := by
  induction hs with
  | refl rx => exact ⟨h, List.forall_mem_nil _⟩
  | head hstep hrest ih =>
    obtain ⟨h₁, hfx⟩ := h.step hstep
    obtain ⟨h₂, hfx'⟩ := ih h₁
    exact ⟨h₂, List.forall_mem_append.mpr
      ⟨hfx, fun o ho ↦ hstep.same.isFragmentOf (hfx' o ho)⟩⟩

theorem le_sendWindow (h : Flow rx) (ct : Block) (budget : Nat) :
    (rx.stream kind).sent ≤ (rx.sendWindow kind ct budget).2 := by
  obtain ⟨k, hcut⟩ := (h.stream kind).aligned
  obtain ⟨n, -, -, hw⟩ := sendWindow_spec h.mtu_pos hcut ct budget
  rw [hw, hcut]
  exact cut_mono (Nat.le_add_right k n)

theorem mem_sendWindow (h : Flow rx) {budget j : Nat}
    (hj : j * rx.mtu < (rx.sendWindow kind ct budget).2)
    (hlt : ¬ j * rx.mtu < (rx.stream kind).sent) :
    rx.fragment kind ct j ∈ (rx.sendWindow kind ct budget).1 := by
  obtain ⟨k, hcut⟩ := (h.stream kind).aligned
  obtain ⟨n, -, -, hw⟩ := sendWindow_spec h.mtu_pos hcut ct budget
  rw [hw] at hj ⊢
  obtain ⟨hjk, hlen⟩ := (mul_lt_cut h.mtu_pos).mp hj
  rw [hcut, mul_lt_cut h.mtu_pos] at hlt
  have hge : k ≤ j := Nat.le_of_not_lt fun hjk ↦ hlt ⟨hjk, hlen⟩
  exact List.mem_map_of_mem (List.mem_range'_1.mpr ⟨hge, hjk⟩)

theorem markedInflight_le (hz : rx.Sized) (m : CtAck) :
    rx.markedInflight m ≤ rx.inflight m.ctKind := by
  have hg := grows_markedStream (rx.stream m.ctKind) rx.mtu (rx.stream m.ctKind).sent m
  have hle := countP_range_le (l := []) (n := (rx.stream m.ctKind).chunks rx.mtu)
    (p := fun j ↦ !(rx.stream m.ctKind).acked.getD j false &&
      decide (j * rx.mtu < (rx.stream m.ctKind).sent))
    (q := fun j ↦ !(rx.marked m).acked.getD j false &&
      decide (j * rx.mtu < (rx.stream m.ctKind).sent)) fun j hj hq ↦ .inl ?_
  · exact hle
  · obtain ⟨hu, hlt⟩ := Bool.and_eq_true_iff.mp hq
    have hold : (rx.stream m.ctKind).acked.getD j false = false := by
      refine Bool.eq_false_iff.mpr fun ht ↦ ?_
      have hmarked : (rx.marked m).acked.getD j false = true := hg.acked (hz.length m.ctKind) j ht
      rw [hmarked] at hu
      exact nomatch hu
    rw [hold, Bool.not_false, Bool.true_and]
    exact hlt

theorem Flow.ack (h : Flow rx) (hz : rx.Sized) (m : CtAck) (ct : Block) :
    Flow (applyCtAck rx m ct).1 := by
  have hs := HqcRxBuf.ackRun_sent (m := m) h.mtu_pos ct
  have hold := h.stream m.ctKind
  have hflow : Flow { rx with retries := (rx.ackRun m ct).2.retries } := ⟨h.mtu_pos, h.stream⟩
  rw [applyCtAck_eq]
  refine hflow.setStream ⟨?_, ?_⟩
  · rcases hs.sent with he | ⟨j, -, he⟩
    · rw [he]
      exact hold.aligned
    · exact ⟨j + 1, he⟩
  · have hle := countP_range_le (l := rx.ackFragments m) (n := (rx.marked m).chunks rx.mtu)
      (p := fun j ↦ !(rx.marked m).acked.getD j false &&
        decide (j * rx.mtu < (rx.marked m).sent))
      (q := fun j ↦ !(rx.marked m).acked.getD j false &&
        decide (j * rx.mtu < (rx.ackRun m ct).2.sent)) fun j hj hq ↦ ?_
    · have hlen : (rx.ackFragments m).length ≤ rx.window - rx.markedInflight m :=
        HqcRxBuf.length_ackFragments
      have hin : rx.markedInflight m ≤ rx.window := (markedInflight_le hz m).trans hold.inflight_le
      apply hle.trans
      change rx.markedInflight m + _ ≤ _
      exact Nat.add_le_of_le_sub' hin hlen
    · obtain ⟨hu, hlt⟩ := Bool.and_eq_true_iff.mp hq
      rcases hs.cover j (List.mem_range.mpr hj) ((Bool.not_eq_true' _).mp hu)
        (of_decide_eq_true hlt) with hb | hl
      · left
        rw [hu, Bool.true_and, decide_eq_true_eq]
        exact hb
      · exact .inr hl

theorem ackRun_isFragmentOf (h : Flow rx) {m : CtAck} (hm : m.Held rx)
    (hb : (rx.stream m.ctKind).buf = some ct) :
    ∀ o ∈ (rx.ackRun m ct).1, o.IsFragmentOf rx := by
  rw [(HqcRxBuf.ackRun_sent (m := m) h.mtu_pos ct).effects]
  exact map_fragment_isFragmentOf h.mtu_pos ⟨hb, hm.2.2⟩ fun j hj ↦
    (HqcRxBuf.mem_ackFragments h.mtu_pos hj).1

theorem Opened.window (h : Opened rx kind ct fx) (hm : 0 < rx.mtu) :
    ∃ n ≤ rx.window, n ≤ fragments rx.mtu apKemCiphertextBytes ∧
      sendWindow ct rx.sessionId kind rx.mtu apKemCiphertextBytes rx.window 0 =
        ((List.range' 0 n).map (rx.fragment kind ct), cut rx.mtu apKemCiphertextBytes n) := by
  have heq := sendWindow_eq hm ct rx.sessionId kind apKemCiphertextBytes rx.window 0
  rw [cut_zero, Nat.zero_add, Nat.sub_zero] at heq
  refine ⟨_, Nat.min_le_left _ _, Nat.min_le_right _ _, ?_⟩
  rw [heq]
  unfold HqcRxBuf.fragment
  rw [h.stream]

theorem Opened.holds (h : Opened rx kind ct fx) : rx.Holds kind ct := by
  refine ⟨by rw [h.stream], ?_⟩
  rw [h.stream]
  exact Nat.succ_ne_zero 4432

theorem Opened.mem_of_sent (h : Opened rx kind ct fx) (hm : 0 < rx.mtu) {j : Nat}
    (hj : j * rx.mtu < (rx.stream kind).sent) : rx.fragment kind ct j ∈ fx := by
  obtain ⟨n, -, -, hw⟩ := h.window hm
  obtain ⟨fx₀, -, rfl⟩ := h.effects
  rw [h.stream, hw] at hj
  rw [hw]
  have hjn := ((mul_lt_cut hm).mp hj).1
  apply List.mem_append_right
  exact List.mem_map_of_mem (List.mem_range'_1.mpr ⟨Nat.zero_le j, by omega⟩)

theorem Opened.isFragmentOf (h : Opened rx kind ct fx) (hm : 0 < rx.mtu) :
    ∀ o ∈ fx, o.IsFragmentOf rx := by
  obtain ⟨n, -, hle, hw⟩ := h.window hm
  obtain ⟨fx₀, hfx₀, rfl⟩ := h.effects
  rw [hw]
  refine List.forall_mem_append.mpr ⟨fun o ho ↦ isFragmentOf_of_silent (hfx₀ o ho), ?_⟩
  refine map_fragment_isFragmentOf hm h.holds fun j hj ↦ ?_
  rw [h.stream]
  have hmax : 0 + n ≤ max 0 (fragments rx.mtu apKemCiphertextBytes) := by omega
  exact lt_of_mem_window hm hmax hj

theorem Opened.flow (h : Opened rx kind ct fx) (hm : 0 < rx.mtu) :
    (rx.stream kind).Flow rx.mtu rx.window := by
  obtain ⟨n, hn, -, hw⟩ := h.window hm
  have hle := inflight_cut_le hm (List.replicate (fragments rx.mtu apKemCiphertextBytes) false)
    apKemCiphertextBytes 0 n
  have hzero : ∀ acked, CtStream.inflight acked (fragments rx.mtu apKemCiphertextBytes) rx.mtu 0 =
      0 := by
    intro acked
    simp [CtStream.inflight]
  rw [cut_zero, hzero, Nat.zero_add] at hle
  rw [h.stream, hw]
  exact ⟨⟨n, rfl⟩, hle.trans hn⟩

theorem flow_empty (mtu window : Nat) : ({} : CtStream).Flow mtu window := by
  refine ⟨aligned_zero, ?_⟩
  simp [CtStream.inflight]

theorem SameProgress.flow (h : SameProgress rx rx') (hf : Flow rx) : Flow rx' := by
  refine ⟨h.mtu ▸ hf.mtu_pos, fun kind ↦ ?_⟩
  obtain ⟨ha, hi⟩ := hf.stream kind
  refine ⟨?_, ?_⟩
  · rw [h.mtu, h.len, h.sent]
    exact ha
  · rw [CtStream.chunks, h.mtu, h.len, h.sent, h.acked, h.window]
    exact hi

theorem Cleared.flow (h : Cleared rx) : Flow rx := by
  refine ⟨by rw [h.mtu]; decide, fun kind ↦ ?_⟩
  rw [h.stream]
  exact flow_empty _ _

theorem flow_of_opened {k : UInt8} (ho : Opened rx kind ct fx) (hm : 0 < rx.mtu)
    (hk : kind = 0 ∧ k = 1 ∨ kind = 1 ∧ k = 0) (hs : (rx.stream k).Flow rx.mtu rx.window) :
    Flow rx := by
  have hst : ∀ kind, rx.stream kind = rx.stream 0 ∨ rx.stream kind = rx.stream 1 := by
    intro kind
    by_cases h : kind = 0
    · exact .inl (by rw [h])
    · exact .inr (if_neg h)
  have hnew := ho.flow hm
  refine ⟨hm, fun kind' ↦ ?_⟩
  rcases hk with ⟨rfl, rfl⟩ | ⟨rfl, rfl⟩
  · rcases hst kind' with h | h <;> rw [h]
    · exact hnew
    · exact hs
  · rcases hst kind' with h | h <;> rw [h]
    · exact hs
    · exact hnew

theorem StreamStep.flow (hs : StreamStep P s i rx fx) (h : Flow s.rx) (hz : s.rx.Sized) :
    Flow rx ∧ ∀ o ∈ fx, o.IsFragmentOf (sendingBuf i s.rx rx) := by
  have hsilent : ∀ {fx : List Effect}, (∀ o ∈ fx, o.IsSilent) →
      ∀ o ∈ fx, o.IsFragmentOf (sendingBuf i s.rx rx) :=
    fun h o ho ↦ isFragmentOf_of_silent (h o ho)
  cases hs with
  | kept rx fx hp hb hi hfx => exact ⟨hp.flow h, hsilent hfx⟩
  | overwritten rx fx hp hs ho hfx => exact ⟨hp.flow h, hsilent hfx⟩
  | cleared rx fx hc hfx => exact ⟨hc.flow, hsilent hfx⟩
  | tick rx fx hi hsteps =>
    unfold sendingBuf
    rw [hi]
    exact h.steps hsteps
  | exhausted rx rx' fx kind ct j hi hsteps hk hc hf ht hcl =>
    unfold sendingBuf
    rw [hi]
    exact ⟨hcl.flow, List.forall_mem_append.mpr
      ⟨(h.steps hsteps).2, List.forall_mem_singleton.mpr trivial⟩⟩
  | ack m ct rx hi hm hb hr =>
    unfold sendingBuf
    rw [hi]
    refine ⟨?_, ackRun_isFragmentOf h hm hb⟩
    have hflow := h.ack hz m ct
    rcases hr with rfl | rfl
    · exact hflow
    · exact ⟨hflow.mtu_pos, hflow.stream⟩
  | encapsulated rx fx ct hi hid hmtu hx hr hw hs ho =>
    obtain ⟨m, pke, ct₀, hi, -⟩ := hi
    unfold sendingBuf
    rw [hi]
    have hm : 0 < rx.mtu := hmtu ▸ h.mtu_pos
    refine ⟨flow_of_opened ho hm (.inl ⟨rfl, rfl⟩) ?_, ho.isFragmentOf hm⟩
    rw [hs, hmtu, hw]
    exact h.stream 1
  | accepted rx fx ct hi hmtu hr hs ho =>
    obtain ⟨m, hi⟩ := hi.exists
    unfold sendingBuf
    rw [hi]
    have hm : 0 < rx.mtu := by
      rw [hmtu]
      decide
    refine ⟨flow_of_opened ho hm (.inr ⟨rfl, rfl⟩) ?_, ho.isFragmentOf hm⟩
    rw [hs]
    exact flow_empty _ _

theorem Flow.handle (P : Platform ρ) (h : Flow s.rx) (hz : Settled s) (i : Input ρ) :
    Flow (handle P s i).1.rx ∧
      ∀ o ∈ (handle P s i).2, o.IsFragmentOf (sendingBuf i s.rx (handle P s i).1.rx) :=
  (handle_streams P i h.mtu_pos hz.sized).flow h hz.sized

theorem fresh_flow (kChachaTx kChachaRx : Bytes 32) :
    Flow (HqcSession.fresh kChachaTx kChachaRx).rx :=
  Cleared.flow ⟨rfl, HqcRxBuf.forall_stream (Q := fun st ↦ st = {}) rfl rfl⟩

theorem run_flow (P : Platform ρ) (kChachaTx kChachaRx : Bytes 32) (is : List (Input ρ)) :
    Settled ((session P).final (.fresh kChachaTx kChachaRx) is) ∧
      Flow ((session P).final (.fresh kChachaTx kChachaRx) is).rx := by
  refine Machine.invariant (M := session P) (I := fun s ↦ Settled s ∧ Flow s.rx) ?_
    ⟨fresh_settled _ _, fresh_flow _ _⟩ is
  intro s i ⟨hz, h⟩
  exact ⟨hz.step i, (h.handle P hz i).1⟩

def FlowControlled (rx : HqcRxBuf) : Prop :=
  ∀ kind, (rx.stream kind).sent ≤ (rx.stream kind).len ∧
    ((rx.stream kind).sent = (rx.stream kind).len ∨ rx.mtu ∣ (rx.stream kind).sent) ∧
    rx.inflight kind ≤ rx.window

/-- Sliding-window flow control, in every state that any run reaches: what has
been sent of a ciphertext, how many fragments are in flight, and what every
`CT_CHUNK` of the next step carries. -/
theorem flow_controlled (P : Platform ρ) (kChachaTx kChachaRx : Bytes 32) (is : List (Input ρ)) :
    FlowControlled ((session P).final (.fresh kChachaTx kChachaRx) is).rx ∧
      ∀ i, ∀ o ∈ (handle P ((session P).final (.fresh kChachaTx kChachaRx) is) i).2,
        o.IsFragmentOf (sendingBuf i ((session P).final (.fresh kChachaTx kChachaRx) is).rx
          (handle P ((session P).final (.fresh kChachaTx kChachaRx) is) i).1.rx) := by
  obtain ⟨hz, h⟩ := run_flow P kChachaTx kChachaRx is
  refine ⟨fun kind ↦ ?_, fun i ↦ (h.handle P hz i).2⟩
  obtain ⟨hle, ha⟩ := (h.stream kind).aligned.le_and
  exact ⟨hle, ha, (h.stream kind).inflight_le⟩

end KemtlsMavlink
