import KemtlsMavlink.Session.Bounds
import KemtlsMavlink.Session.FreshStart

namespace KemtlsMavlink

open Library

variable {ρ : Type} {P : Platform ρ} {e : Env ρ} {s s' : HqcSession} {i : Input ρ}

structure HqcRxBuf.Allocated (rx : HqcRxBuf) : Prop where
  pkLen : rx.pke.isSome → rx.pkLen ≤ 65536
  cte : ∀ ct, rx.cte.buf = some ct → ct.size = apKemCiphertextBytes
  cts : ∀ ct, rx.cts.buf = some ct → ct.size = apKemCiphertextBytes

open HqcRxBuf (Allocated)

theorem Resting.allocated (h : Resting s) : Allocated s.rx :=
  ⟨by simp [h.pke], by simp [h.cte], by simp [h.cts]⟩

theorem hello_allocated (P : Platform ρ) (e : Env ρ) (s : HqcSession) (m : Hello) :
    Allocated (handleHqcHello P e s m).1.rx := by
  rcases hello_phase P e s m with ⟨hr, -⟩ | ⟨-, hs⟩
  · exact hr.allocated
  · obtain ⟨initPke, initCts, k, fx, h⟩ := helloPasses_of_ctTx hs
    obtain ⟨-, -, -, hlen, -⟩ := helloFieldError_eq_none h.fields
    rw [h.done]
    refine ⟨fun _ ↦ hlen, nofun, fun ct hct ↦ ?_⟩
    cases hct
    rfl

theorem HqcRxBuf.Allocated.transmit (h : Allocated s.rx) (ht : Transmits s s') :
    Allocated s'.rx := by
  obtain ⟨r, a, b, c, d, he⟩ := ht.rx_eq
  rw [he]
  exact ⟨h.pkLen, h.cte, h.cts⟩

theorem HqcRxBuf.Allocated.afterChunk {rx : HqcRxBuf} {c : PkChunk} (h : Allocated rx)
    (ha : ChunkAccepted rx c) : Allocated (rx.afterChunk c) :=
  ⟨by simpa using fun _ ↦ h.pkLen ha.pke, by simpa using h.cte, by simpa using h.cts⟩

theorem HqcRxBuf.Allocated.encapBuf {rx : HqcRxBuf} {ct ct' : Block} {bs : List UInt8}
    (h : Allocated rx) (hb : rx.encapBuf e = some ct) (he : some (ct.write 0 bs) = some ct') :
    ct'.size = apKemCiphertextBytes := by
  cases he
  rw [Block.write_size]
  exact Bounds.encapBuf_size h.cte hb

theorem HqcRxBuf.Allocated.keyCompletion {pke : Block} {r : HqcSession × List Effect}
    (h : Allocated s.rx) (hr : KeyCompletion P e s pke r) : Allocated r.1.rx := by
  cases hr with
  | noBuffer hb => exact h
  | failed ct hb ho => exact ⟨h.pkLen, fun _ he ↦ h.encapBuf hb he, h.cts⟩
  | done ct fx hb ho hfx => exact ⟨h.pkLen, fun _ he ↦ h.encapBuf hb he, h.cts⟩

theorem HqcRxBuf.Allocated.move {r : HqcSession × List Effect} (h : Allocated s.rx)
    (hm : Move P s i r) : Allocated r.1.rx := by
  cases hm with
  | quiet s' fx ht hs hfx => exact h.transmit ht
  | acked s' fx ht hs hd hw hfx => exact h.transmit ht
  | wiped s₀ s' fx ht hs hr hfx => exact (wipe_resting s₀).allocated.transmit ht
  | chunk c sid base mask hi ha hk => exact h.afterChunk ha
  | encap c sid base mask pke r hi ha hk hp hr =>
    have hc : Allocated ((s.noteRx (i.env.millis 0)).setRx (s.rx.afterChunk c)).rx :=
      h.afterChunk ha
    have hn : Allocated r.1.rx := hc.keyCompletion hr
    exact hn
  | finished f hi ha => exact ⟨nofun, nofun, nofun⟩

theorem HqcRxBuf.Allocated.step (hs : Settled s) (h : Allocated s.rx) (i : Input ρ) :
    Allocated (handle P s i).1.rx := by
  by_cases hi : i.event.IsHello
  · obtain ⟨m, he⟩ := hi.exists
    simp only [handle, he]
    exact hello_allocated P i.env s m
  · exact h.move (handle_move hs.sized hi)

theorem fresh_run_allocated (P : Platform ρ) (kChachaTx kChachaRx : Bytes 32)
    (is : List (Input ρ)) :
    Settled ((session P).final (.fresh kChachaTx kChachaRx) is) ∧
      Allocated ((session P).final (.fresh kChachaTx kChachaRx) is).rx := by
  refine Machine.invariant (M := session P) (I := fun s ↦ Settled s ∧ Allocated s.rx)
    (fun s i ⟨hs, h⟩ ↦ ⟨hs.step i, h.step hs i⟩) ?_ is
  exact ⟨fresh_settled _ _, (fresh_resting _ _).allocated⟩

theorem Settled.ranged (hs : Settled s) (h : Allocated s.rx) : Bounds.Ranged s.rx := by
  rcases hs with hr | ⟨m, ho⟩
  · refine fun kind ct hb ↦ absurd hb ?_
    rw [HqcRxBuf.forall_stream (Q := fun st ↦ st.buf = none) hr.cte hr.cts kind]
    exact nofun
  · have hlen : apKemCiphertextBytes ≤ 65536 := by decide
    have hfit : ∀ st : CtStream, (st.len = 0 ∨ st.len = apKemCiphertextBytes) →
        (∀ ct, st.buf = some ct → ct.size = apKemCiphertextBytes) →
          ∀ ct, st.buf = some ct → Bounds.Fits ct s.rx.mtu st.len := by
      intro st hl hsize ct hb
      have hct := hsize ct hb
      rw [ho.rx.mtu]
      exact ⟨by decide, le_rfl, by omega, by omega⟩
    refine HqcRxBuf.forall_stream (Q := fun st ↦ ∀ ct, st.buf = some ct →
      Bounds.Fits ct s.rx.mtu st.len) ?_ ?_
    · exact hfit _ (ho.rx.cte.imp_right (·.1)) h.cte
    · exact hfit _ (.inr ho.rx.cts.2) h.cts

theorem Settled.keyFits (hs : Settled s) (h : Allocated s.rx) (hp : s.rx.pke.isSome) :
    Bounds.KeyFits s.rx ∧ 32 ≤ s.rx.mtu := by
  rcases hs with hr | ⟨m, ho⟩
  · rw [hr.pke] at hp
    exact nomatch hp
  · have hm := ho.rx.mtu
    exact ⟨⟨ho.rx.fragments, by omega, h.pkLen hp, ho.rx.pke⟩, by omega⟩

/-- In every reachable state no fragment, acknowledgement or tick makes an access out of
range, wraps an offset or an index or divides by zero: with all of this checked the
handlers do the same. -/
theorem fragment_accesses_in_range (P : Platform ρ) (kChachaTx kChachaRx : Bytes 32)
    (is : List (Input ρ)) (e : Env ρ) :
    let s := (session P).final (.fresh kChachaTx kChachaRx) is
    (∀ m, Bounds.handleHqcPkChunk P e s m = .ok (handleHqcPkChunk P e s m)) ∧
      (∀ m, Bounds.handleHqcCtAck e s m = .ok (handleHqcCtAck e s m)) ∧
        Bounds.tick P e s = .ok (tick P e s) := by
  obtain ⟨hs, h⟩ := fresh_run_allocated P kChachaTx kChachaRx is
  have hr := hs.ranged h
  exact ⟨Bounds.handleHqcPkChunk_ok (hs.keyFits h) h.cte, Bounds.handleHqcCtAck_ok hr,
    Bounds.tick_ok hr⟩

end KemtlsMavlink
