import KemtlsMavlink.Session.Phase
import KemtlsMavlink.Session.Reassembly
import KemtlsMavlink.Session.SelectiveAck

namespace KemtlsMavlink

open Library

variable {ρ : Type} {P : Platform ρ} {e : Env ρ} {m : Hello} {s : HqcSession} {c : PkChunk}
  {pk : List UInt8} {pke : Block} {r : HqcSession × List Effect}

/-- Fragment `i` of the key `pk`. -/
structure PkChunk.Canonical (c : PkChunk) (sessionId : UInt64) (mtu : Nat) (pk : List UInt8)
    (i : Nat) : Prop where
  session : c.sessionId = sessionId
  lt : i * mtu < pk.length
  offset : c.offset.toNat = i * mtu
  count : c.count.toNat = min mtu (pk.length - i * mtu)
  data : c.data.toList.take c.count.toNat = (pk.drop (i * mtu)).take mtu

/-- The arrival of a fragment, with what the handler gets from outside then. -/
structure Delivery (ρ : Type) where
  index : Nat
  chunk : PkChunk
  env : Env ρ

def Delivery.input (d : Delivery ρ) : Input ρ := ⟨.pkChunk d.chunk, d.env⟩

def delivered (ds : List (Delivery ρ)) : List Nat := ds.map Delivery.index

def DeliveredAll (n : Nat) (ds : List (Delivery ρ)) : Prop := ∀ i < n, i ∈ delivered ds

instance (n : Nat) (ds : List (Delivery ρ)) : Decidable (DeliveredAll n ds) :=
  inferInstanceAs (Decidable (∀ i < n, _))

def DeliveredPrefix (ds : List (Delivery ρ)) (p : Nat) : Prop :=
  (∀ i < p, i ∈ delivered ds) ∧ p ∉ delivered ds

/-- At a delivery that completes the key, or comes after it was complete, there was
memory for the ciphertext. -/
def HasBuffer (n : Nat) (ds : List (Delivery ρ)) : Prop :=
  ∃ as d bs, ds = as ++ d :: bs ∧ DeliveredAll n (as ++ [d]) ∧ d.env.mallocCte.isSome

def FirstBuffer (n : Nat) (ds : List (Delivery ρ)) (d : Delivery ρ) : Prop :=
  ¬ HasBuffer n ds ∧ DeliveredAll n (ds ++ [d]) ∧ d.env.mallocCte.isSome

def Effect.ack : Effect → Option (UInt64 × Nat × UInt32)
  | .pkAck sid base mask => some (sid, base, mask)
  | _ => none

def Effect.isEncap : Effect → Bool
  | .apKemEnc kind _ _ => kind = 0
  | _ => false

def CallsKem (fx : List Effect) : Prop := fx.any Effect.isEncap = true

instance (fx : List Effect) : Decidable (CallsKem fx) := inferInstanceAs (Decidable (_ = _))

theorem callsKem_append {fx fx' : List Effect} :
    CallsKem (fx ++ fx') ↔ CallsKem fx ∨ CallsKem fx' := by
  simp [CallsKem]

theorem mem_delivered_snoc {ds : List (Delivery ρ)} {d : Delivery ρ} {i : Nat} :
    i ∈ delivered (ds ++ [d]) ↔ i = d.index ∨ i ∈ delivered ds := by
  rw [delivered, List.map_append, List.mem_append, List.map_singleton, List.mem_singleton, or_comm,
    delivered]

theorem hasBuffer_snoc {n : Nat} {ds : List (Delivery ρ)} {d : Delivery ρ} :
    HasBuffer n (ds ++ [d]) ↔
      HasBuffer n ds ∨ DeliveredAll n (ds ++ [d]) ∧ d.env.mallocCte.isSome := by
  constructor
  · rintro ⟨as, a, bs, he, hall, hbuf⟩
    rcases List.eq_nil_or_concat bs with rfl | ⟨bs', b, rfl⟩
    · obtain ⟨rfl, hd⟩ := List.append_inj' he rfl
      cases hd
      exact .inr ⟨hall, hbuf⟩
    · rw [List.concat_eq_append, ← List.cons_append, ← List.append_assoc] at he
      exact .inl ⟨as, a, bs', List.append_inj_left' he rfl, hall, hbuf⟩
  · rintro (⟨as, a, bs, rfl, hall, hbuf⟩ | ⟨hall, hbuf⟩)
    · exact ⟨as, a, bs ++ [d], by simp, hall, hbuf⟩
    · exact ⟨ds, d, [], rfl, hall, hbuf⟩

theorem DeliveredAll.snoc {n : Nat} {ds : List (Delivery ρ)} (h : DeliveredAll n ds)
    (d : Delivery ρ) : DeliveredAll n (ds ++ [d]) :=
  fun i hi ↦ mem_delivered_snoc.mpr (.inr (h i hi))

theorem HasBuffer.deliveredAll {n : Nat} {ds : List (Delivery ρ)} (h : HasBuffer n ds) :
    DeliveredAll n ds := by
  induction ds using List.reverseRecOn with
  | nil =>
    obtain ⟨as, d, bs, he, -⟩ := h
    exact absurd he (by simp)
  | append_singleton ds d ih => exact (hasBuffer_snoc.mp h).elim (fun h ↦ (ih h).snoc d) (·.1)

/-- The session and the effects of an accepted chunk, after the acknowledgement. -/
def afterAck (P : Platform ρ) (e : Env ρ) (s : HqcSession) (c : PkChunk) :
    HqcSession × List Effect :=
  let s' := (s.noteRx (e.millis 0)).setRx (s.rx.afterChunk c)
  if (s.rx.afterChunk c).KeyComplete then completeKey P e s' else (s', [])

theorem handleHqcPkChunk_accepted (ha : ChunkAccepted s.rx c) :
    handleHqcPkChunk P e s c = ((afterAck P e s c).1, (s.rx.storeFragment c).2 ++
      [.pkAck s.rx.sessionId (s.rx.storeFragment c).1.sack.1 (s.rx.storeFragment c).1.sack.2] ++
        (afterAck P e s c).2) := by
  unfold handleHqcPkChunk afterAck
  simp only [HqcSession.noteRx_rx, pkChunkError_eq_none.mpr ha, HqcRxBuf.afterChunk_sessionId]
  by_cases hk : (s.rx.afterChunk c).KeyComplete
  · simp only [if_pos hk]
    rfl
  · simp only [if_neg hk, List.append_nil]
    rfl

theorem HqcRxBuf.encapBuf_isSome {rx : HqcRxBuf} :
    (rx.encapBuf e).isSome ↔ rx.cte.buf.isSome ∨ e.mallocCte.isSome := by
  unfold HqcRxBuf.encapBuf
  cases rx.cte.buf <;> cases e.mallocCte <;> simp

/-- A complete key is encapsulated to exactly when there is a buffer for the
ciphertext, and the buffer stays. -/
theorem KeyCompletion.encap (h : KeyCompletion P e s pke r) :
    (CallsKem r.2 ↔ (s.rx.encapBuf e).isSome) ∧
      (r.1.rx.cte.buf.isSome ↔ (s.rx.encapBuf e).isSome) ∧ r.2.filterMap Effect.ack = [] ∧
        ∀ kind pke' ok, .apKemEnc kind pke' ok ∈ r.2 → pke' = pke := by
  cases h with
  | noBuffer hb =>
    have hbuf : ¬ s.rx.cte.buf.isSome := fun hc ↦ by
      have := (HqcRxBuf.encapBuf_isSome (e := e)).mpr (.inl hc)
      rw [hb] at this
      exact nomatch this
    rw [hb]
    exact ⟨by simp [CallsKem, Effect.isEncap, encapFailedText], iff_of_false hbuf (by simp), rfl,
      by simp [encapFailedText]⟩
  | failed ct hb ho =>
    rw [hb]
    exact ⟨by simp [CallsKem, Effect.isEncap], iff_of_true rfl rfl, rfl,
      by simp [encapFailedText]⟩
  | done ct fx hb ho hfx =>
    rw [hb]
    refine ⟨by simp [CallsKem, Effect.isEncap], iff_of_true rfl rfl, ?_, ?_⟩
    · simp only [List.filterMap_cons, Effect.ack, List.filterMap_eq_nil_iff]
      intro o ho
      obtain ⟨off, rfl⟩ := hfx o ho
      rfl
    · intro kind pke' ok hmem
      rcases List.mem_cons.mp hmem with he | hmem
      · cases he
        rfl
      · obtain ⟨off, he⟩ := hfx _ hmem
        exact nomatch he

/-- The invariant of the deliveries `ds` of the key `pk`. -/
structure Delivering (m : Hello) (pk : List UInt8) (ds : List (Delivery ρ)) (s : HqcSession) :
    Prop where
  opened : Open m s
  length : pk.length = s.rx.pkLen
  received : ∀ i, s.rx.Received i ↔ i ∈ delivered ds
  key : ∀ pke, s.rx.pke = some pke →
    ∀ j < pk.length, j / s.rx.mtu ∈ delivered ds → pke.get j = pk.getD j 0
  buffer : s.rx.cte.buf.isSome ↔ HasBuffer s.rx.pkChunks ds

theorem PkChunk.Canonical.accepted {i : Nat} (h : c.Canonical s.rx.sessionId s.rx.mtu pk i)
    (ho : Open m s) (hl : pk.length = s.rx.pkLen) :
    ChunkAccepted s.rx c ∧ s.rx.fragIdx c = i := by
  have hm := ho.rx.fragments.mtu_pos
  have hlt := hl ▸ h.lt
  have hi : s.rx.fragIdx c = i := by
    rw [HqcRxBuf.fragIdx, h.offset, Nat.mul_div_cancel _ hm]
  obtain ⟨pke, hp, -⟩ := ho.rx.pke
  have hcount := hl ▸ h.count
  refine ⟨⟨h.session, by omega, by rw [hp]; rfl, by omega, by omega, ?_, .inl ?_, ?_⟩, hi⟩
  · rw [h.offset]
    omega
  · rw [h.offset, Nat.mul_mod_left]
  · rw [hi, HqcRxBuf.lt_pkChunks_iff ho.rx.fragments]
    exact hlt

theorem afterAck_spec (ho : Open m s) (ha : ChunkAccepted s.rx c) :
    Open m (afterAck P e s c).1 ∧
      (CallsKem (afterAck P e s c).2 ↔
        (s.rx.afterChunk c).KeyComplete ∧ (s.rx.cte.buf.isSome ∨ e.mallocCte.isSome)) ∧
      ((afterAck P e s c).1.rx.cte.buf.isSome ↔
        s.rx.cte.buf.isSome ∨ (s.rx.afterChunk c).KeyComplete ∧ e.mallocCte.isSome) ∧
      (afterAck P e s c).2.filterMap Effect.ack = [] ∧
      ∀ kind pke ok, .apKemEnc kind pke ok ∈ (afterAck P e s c).2 →
        (s.rx.afterChunk c).pke = some pke := by
  have ho' := ho.afterChunk ha (e.millis 0)
  unfold afterAck
  dsimp only
  by_cases hk : (s.rx.afterChunk c).KeyComplete
  · obtain ⟨pke, hp, -⟩ := ho'.rx.pke
    have hr : KeyCompletion P e ((s.noteRx (e.millis 0)).setRx (s.rx.afterChunk c)) pke _ :=
      completeKey_spec hp
    obtain ⟨hcall, hbuf, hack, hkey⟩ := hr.encap
    rw [HqcRxBuf.encapBuf_isSome, HqcSession.setRx_rx, HqcRxBuf.afterChunk_cte] at hcall hbuf
    simp only [hk, if_true, true_and]
    refine ⟨Open.keyCompletion ho'.rx hk ho'.alg hr, hcall, hbuf, hack, fun kind pke' ok h ↦ ?_⟩
    rw [hkey kind pke' ok h]
    exact hp
  · simp only [hk, if_false, false_and, or_false]
    exact ⟨ho', by simp [CallsKem], by simp, rfl, by simp⟩

theorem storeFragment_silent (rx : HqcRxBuf) (c : PkChunk) :
    ¬ CallsKem (rx.storeFragment c).2 ∧ (rx.storeFragment c).2.filterMap Effect.ack = [] ∧
      ∀ kind pke ok, .apKemEnc kind pke ok ∉ (rx.storeFragment c).2 := by
  by_cases h : rx.Received (rx.fragIdx c)
  · rw [HqcRxBuf.storeFragment_of_received h]
    exact ⟨by simp [CallsKem], rfl, by simp⟩
  · rw [HqcRxBuf.storeFragment_of_not_received h]
    exact ⟨by simp [CallsKem, Effect.isEncap], rfl, by simp⟩

theorem getD_take_drop {α : Type*} {l : List α} {i n j : Nat} {a : α} (h : j < n) :
    ((l.drop i).take n).getD j a = l.getD (i + j) a := by
  simp [List.getD_eq_getElem?_getD, h]

theorem Delivering.afterChunk_get {ds : List (Delivery ρ)} {i : Nat} (h : Delivering m pk ds s)
    (hc : c.Canonical s.rx.sessionId s.rx.mtu pk i) (hp : (s.rx.afterChunk c).pke = some pke)
    {j : Nat} (hj : j < pk.length) (hr : j / s.rx.mtu = i ∨ j / s.rx.mtu ∈ delivered ds) :
    pke.get j = pk.getD j 0 := by
  obtain ⟨ha, hi⟩ := hc.accepted h.opened h.length
  obtain ⟨b, hb, -⟩ := h.opened.rx.pke
  by_cases hnew : s.rx.Received (s.rx.fragIdx c)
  · rw [HqcRxBuf.afterChunk_pke_of_received hnew] at hp
    refine h.key pke hp j hj (hr.elim (fun he ↦ ?_) id)
    rwa [he, ← hi, ← h.received]
  · rw [HqcRxBuf.afterChunk_pke_of_not_received hnew, hb] at hp
    cases hp
    have hlen : (c.data.toList.take c.count.toNat).length = min s.rx.mtu (pk.length - i * s.rx.mtu)
        := by
      rw [hc.data, List.length_take, List.length_drop]
    rw [Block.get_write, hlen, hc.offset, hc.data]
    have hdiv := div_eq_iff_mem h.opened.rx.fragments.mtu_pos i j
    have hsucc := Nat.add_one_mul i s.rx.mtu
    split_ifs with hin
    · have hadd : i * s.rx.mtu + (j - i * s.rx.mtu) = j := by omega
      rw [getD_take_drop (by omega), hadd]
    · exact h.key b hb j hj (hr.resolve_left fun he ↦ hin (by have := hdiv.mp he; omega))

section Step

variable {ds : List (Delivery ρ)} {d : Delivery ρ}

theorem handle_delivery (ha : ChunkAccepted s.rx d.chunk) :
    handle P s d.input = ((afterAck P d.env s d.chunk).1, (s.rx.storeFragment d.chunk).2 ++
      [.pkAck s.rx.sessionId (s.rx.storeFragment d.chunk).1.sack.1
        (s.rx.storeFragment d.chunk).1.sack.2] ++ (afterAck P d.env s d.chunk).2) :=
  handleHqcPkChunk_accepted ha

theorem Delivering.keyComplete_iff (h : Delivering m pk ds s)
    (hc : d.chunk.Canonical s.rx.sessionId s.rx.mtu pk d.index) :
    (s.rx.afterChunk d.chunk).KeyComplete ↔ DeliveredAll s.rx.pkChunks (ds ++ [d]) := by
  obtain ⟨ha, hi⟩ := hc.accepted h.opened h.length
  rw [HqcRxBuf.keyComplete_afterChunk h.opened.rx.fragments ha, hi]
  exact forall₂_congr fun i _ ↦ (or_congr_right (h.received i)).trans mem_delivered_snoc.symm

theorem Delivering.step (h : Delivering m pk ds s)
    (hc : d.chunk.Canonical s.rx.sessionId s.rx.mtu pk d.index) :
    Delivering m pk (ds ++ [d]) (handle P s d.input).1 := by
  obtain ⟨ha, hi⟩ := hc.accepted h.opened h.length
  obtain ⟨hk, hp, -⟩ := accepted_chunk (P := P) (i := d.input) rfl ha
  have hrun : (handle P s d.input).1 = (afterAck P d.env s d.chunk).1 := by
    rw [handle_delivery ha]
  obtain ⟨ho, -, hbuf, -, -⟩ := afterAck_spec (P := P) (e := d.env) h.opened ha
  have hlen := hk.pkLen.trans (HqcRxBuf.afterChunk_pkLen s.rx d.chunk)
  have hmtu := hk.mtu.trans (HqcRxBuf.afterChunk_mtu s.rx d.chunk)
  refine ⟨hrun ▸ ho, h.length.trans hlen.symm, fun i ↦ ?_, fun pke hpke j hj hr ↦ ?_, ?_⟩
  · rw [hk.received, HqcRxBuf.received_afterChunk h.opened.rx.fragments ha, hi, h.received,
      mem_delivered_snoc]
  · rw [hmtu, mem_delivered_snoc] at hr
    exact h.afterChunk_get hc (hp ▸ hpke) hj hr
  · rw [HqcRxBuf.pkChunks, hlen, hmtu, hrun, hbuf, hasBuffer_snoc, h.buffer, h.keyComplete_iff hc,
      HqcRxBuf.pkChunks]

theorem Delivering.ack (h : Delivering m pk ds s)
    (hc : d.chunk.Canonical s.rx.sessionId s.rx.mtu pk d.index) :
    ∃ p mask, DeliveredPrefix (ds ++ [d]) p ∧
      (handle P s d.input).2.filterMap Effect.ack =
        [(s.rx.sessionId, min pk.length (s.rx.mtu * p), mask)] ∧
      ∀ j < 32, (mask >>> UInt32.ofNat j) &&& 1 = 1 ↔ p + j ∈ delivered (ds ++ [d]) := by
  obtain ⟨ha, hi⟩ := hc.accepted h.opened h.length
  obtain ⟨-, -, -, hack, -⟩ := afterAck_spec (P := P) (e := d.env) h.opened ha
  obtain ⟨-, hnoack, -⟩ := storeFragment_silent s.rx d.chunk
  have hf := h.opened.rx.fragments.storeFragment ha
  have hrec : ∀ i, (s.rx.storeFragment d.chunk).1.Received i ↔ i ∈ delivered (ds ++ [d]) :=
    fun i ↦ (HqcRxBuf.received_afterChunk h.opened.rx.fragments ha i).trans
      (by rw [hi, h.received, mem_delivered_snoc])
  have hlen : (s.rx.storeFragment d.chunk).1.pkLen = pk.length :=
    (HqcRxBuf.afterChunk_pkLen s.rx d.chunk).trans h.length.symm
  have hmtu : (s.rx.storeFragment d.chunk).1.mtu = s.rx.mtu := HqcRxBuf.afterChunk_mtu s.rx d.chunk
  rw [handle_delivery ha, List.filterMap_append, List.filterMap_append, hnoack, hack]
  generalize (s.rx.storeFragment d.chunk).1 = rx at hf hrec hlen hmtu ⊢
  have hlt : ∀ {i}, rx.Received i → i < rx.pkChunks :=
    HqcRxBuf.received_lt (hf.length.elim (fun he ↦ he ▸ Nat.zero_le _) Nat.le_of_eq)
  obtain ⟨hbelow, hstop⟩ := HqcRxBuf.baseFrag_spec hf
  refine ⟨rx.baseFrag, rx.sackMask rx.baseFrag, ⟨fun i hi ↦ (hrec i).mp (hbelow i hi), ?_⟩, ?_,
    fun j hj ↦ ?_⟩
  · rw [← hrec]
    exact fun hr ↦ hstop.elim (fun hge ↦ Nat.not_lt_of_le hge (hlt hr)) fun hn ↦ hn hr
  · rw [Nat.min_comm, Nat.mul_comm, ← hlen, ← hmtu]
    rfl
  · rw [HqcRxBuf.sackMask_bit hj, hrec]
    exact and_iff_right_of_imp fun hr ↦ hlt ((hrec _).mpr hr)

theorem Delivering.callsKem (h : Delivering m pk ds s)
    (hc : d.chunk.Canonical s.rx.sessionId s.rx.mtu pk d.index) :
    CallsKem (handle P s d.input).2 ↔ HasBuffer s.rx.pkChunks (ds ++ [d]) := by
  obtain ⟨ha, -⟩ := hc.accepted h.opened h.length
  obtain ⟨-, hcall, -⟩ := afterAck_spec (P := P) (e := d.env) h.opened ha
  obtain ⟨hsilent, -⟩ := storeFragment_silent s.rx d.chunk
  have hack : ¬ CallsKem [.pkAck s.rx.sessionId (s.rx.storeFragment d.chunk).1.sack.1
      (s.rx.storeFragment d.chunk).1.sack.2] := Bool.false_ne_true
  rw [handle_delivery ha, callsKem_append, callsKem_append,
    or_iff_right (not_or.mpr ⟨hsilent, hack⟩), hcall, h.keyComplete_iff hc, h.buffer,
    hasBuffer_snoc]
  constructor
  · rintro ⟨hall, hb | hb⟩
    · exact .inl hb
    · exact .inr ⟨hall, hb⟩
  · rintro (hb | ⟨hall, hb⟩)
    · exact ⟨hb.deliveredAll.snoc d, .inl hb⟩
    · exact ⟨hall, .inr hb⟩

theorem Delivering.kem_key (h : Delivering m pk ds s)
    (hc : d.chunk.Canonical s.rx.sessionId s.rx.mtu pk d.index) {kind : UInt8} {ok : Bool}
    (hk : .apKemEnc kind pke ok ∈ (handle P s d.input).2) :
    (handle P s d.input).1.rx.pke = some pke := by
  obtain ⟨ha, -⟩ := hc.accepted h.opened h.length
  obtain ⟨-, hp, -⟩ := accepted_chunk (P := P) (i := d.input) rfl ha
  obtain ⟨-, -, -, -, hkey⟩ := afterAck_spec (P := P) (e := d.env) h.opened ha
  obtain ⟨-, -, hnokey⟩ := storeFragment_silent s.rx d.chunk
  rw [handle_delivery ha, List.mem_append, List.mem_append] at hk
  rw [hp]
  rcases hk with (hk | hk) | hk
  · exact absurd hk (hnokey kind pke ok)
  · exact nomatch List.mem_singleton.mp hk
  · exact hkey kind pke ok hk

end Step

theorem Delivering.whole {ds : List (Delivery ρ)} (h : Delivering m pk ds s)
    (hall : DeliveredAll s.rx.pkChunks ds) (hp : s.rx.pke = some pke) :
    pke.read 0 pk.length = pk := by
  refine Block.read_eq fun j hj ↦ ?_
  have hi : j / s.rx.mtu < s.rx.pkChunks := by
    rw [HqcRxBuf.lt_pkChunks_iff h.opened.rx.fragments, ← h.length]
    exact Nat.lt_of_le_of_lt (Nat.div_mul_le_self j _) hj
  rw [Nat.zero_add, h.key pke hp j hj (hall _ hi)]

theorem hello_cte (P : Platform ρ) (e : Env ρ) (s : HqcSession) (m : Hello) :
    (handleHqcHello P e s m).1.rx.cte = {} := by
  have h := handleHqcHello_spec P e s m
  generalize handleHqcHello P e s m = r at h ⊢
  cases h <;> rfl

theorem hello_delivering (ha : (handleHqcHello P e s m).1.state = .ctTx)
    (hl : pk.length = m.pkLen.toNat) :
    Delivering m pk ([] : List (Delivery ρ)) (handleHqcHello P e s m).1 := by
  rcases hello_phase P e s m with ⟨-, hs⟩ | ⟨ho, -⟩
  · exact nomatch ha.symm.trans hs
  · refine ⟨ho, hl.trans ho.rx.pkLen.symm, fun i ↦ ?_, fun _ _ _ _ hj ↦ ?_, ?_⟩
    · rw [HqcRxBuf.Received, hello_pkeAcked]
      simp [delivered]
    · exact absurd hj List.not_mem_nil
    · rw [hello_cte]
      refine iff_of_false Bool.false_ne_true ?_
      rintro ⟨as, d, bs, he, -⟩
      exact absurd he (by simp)

theorem Open.sameBuf {s' : HqcSession} (h : Open m s) (h' : Open m s') :
    s'.rx.sessionId = s.rx.sessionId ∧ s'.rx.mtu = s.rx.mtu ∧ s'.rx.pkLen = s.rx.pkLen :=
  ⟨h'.rx.sessionId.trans h.rx.sessionId.symm, h'.rx.mtu.trans h.rx.mtu.symm,
    h'.rx.pkLen.trans h.rx.pkLen.symm⟩

/-- The invariant holds after every list, and `ap_kem_enc` has been called in it exactly if
there has been a buffer. -/
theorem Delivering.run {ds : List (Delivery ρ)} (h : Delivering m pk ([] : List (Delivery ρ)) s)
    (hc : ∀ d ∈ ds, d.chunk.Canonical s.rx.sessionId s.rx.mtu pk d.index) :
    Delivering m pk ds ((session P).final s (ds.map Delivery.input)) ∧
      (CallsKem ((session P).outputs s (ds.map Delivery.input)) ↔ HasBuffer s.rx.pkChunks ds) := by
  induction ds using List.reverseRecOn with
  | nil =>
    refine ⟨h, iff_of_false Bool.false_ne_true ?_⟩
    rintro ⟨as, d, bs, he, -⟩
    exact absurd he (by simp)
  | append_singleton ds d ih =>
    obtain ⟨hd, hcall⟩ := ih fun a ha ↦ hc a (by simp [ha])
    obtain ⟨hsid, hmtu, hlen⟩ := h.opened.sameBuf hd.opened
    have hcd := hc d (by simp)
    rw [← hsid, ← hmtu] at hcd
    rw [List.map_append, List.map_singleton, Machine.final_snoc, Machine.outputs_snoc,
      callsKem_append, hcall]
    have hstep := hd.callsKem (P := P) hcd
    rw [HqcRxBuf.pkChunks, hlen, hmtu] at hstep
    refine ⟨hd.step hcd, (or_congr_right hstep).trans (or_iff_right_of_imp fun hb ↦ ?_)⟩
    exact hasBuffer_snoc.mpr (.inl hb)

/-- What delivery `d` does in the session `s`, after the deliveries `ds`. -/
structure DeliveryAnswer (P : Platform ρ) (s : HqcSession) (pk : List UInt8)
    (ds : List (Delivery ρ)) (d : Delivery ρ) (fx : List Effect) : Prop where
  ack : ∃ p mask, DeliveredPrefix (ds ++ [d]) p ∧
    fx.filterMap Effect.ack = [(s.rx.sessionId, min pk.length (s.rx.mtu * p), mask)] ∧
      ∀ j < 32, (mask >>> UInt32.ofNat j) &&& 1 = 1 ↔ p + j ∈ delivered (ds ++ [d])
  first : ¬ CallsKem ((session P).outputs s (ds.map Delivery.input)) ∧ CallsKem fx ↔
    FirstBuffer s.rx.pkChunks ds d
  completes : ¬ DeliveredAll s.rx.pkChunks ds → DeliveredAll s.rx.pkChunks (ds ++ [d]) →
    (CallsKem fx ↔ d.env.mallocCte.isSome)
  key : ∀ pke ok, .apKemEnc 0 pke ok ∈ fx → pke.read 0 pk.length = pk

theorem Delivering.answer {ds : List (Delivery ρ)} {d : Delivery ρ}
    (h : Delivering m pk ([] : List (Delivery ρ)) s)
    (hc : ∀ a ∈ ds ++ [d], a.chunk.Canonical s.rx.sessionId s.rx.mtu pk a.index) :
    DeliveryAnswer P s pk ds d
      (handle P ((session P).final s (ds.map Delivery.input)) d.input).2 := by
  obtain ⟨hd, hcall⟩ := h.run (P := P) fun a ha ↦ hc a (List.mem_append_left _ ha)
  obtain ⟨hsid, hmtu, hlen⟩ := h.opened.sameBuf hd.opened
  have hcd := hc d (by simp)
  rw [← hsid, ← hmtu] at hcd
  have hstep := hd.callsKem (P := P) hcd
  have hack := hd.ack (P := P) hcd
  rw [hsid, hmtu] at hack
  rw [HqcRxBuf.pkChunks, hlen, hmtu] at hstep
  refine ⟨hack, ?_, fun hn hall ↦ ?_, fun pke ok hk ↦ ?_⟩
  · rw [hcall, hstep]
    exact and_congr_right fun hn ↦ hasBuffer_snoc.trans (or_iff_right hn)
  · rw [hstep, hasBuffer_snoc, or_iff_right fun hb ↦ hn hb.deliveredAll]
    exact and_iff_right hall
  · have hnext := hd.step (P := P) hcd
    obtain ⟨-, hmtu', hlen'⟩ := h.opened.sameBuf hnext.opened
    refine hnext.whole ?_ (hd.kem_key hcd hk)
    rw [HqcRxBuf.pkChunks, hlen', hmtu']
    exact (hstep.mp (List.any_eq_true.mpr ⟨_, hk, rfl⟩)).deliveredAll

/-- The fragments of a key can come in any order, and more than once. -/
theorem reassembly_in_any_order (P : Platform ρ) (e : Env ρ) (s : HqcSession) (m : Hello)
    (pk : List UInt8) (ds : List (Delivery ρ)) (ha : (handleHqcHello P e s m).1.state = .ctTx)
    (hl : pk.length = m.pkLen.toNat)
    (hc : ∀ d ∈ ds, d.chunk.Canonical (handleHqcHello P e s m).1.rx.sessionId
      (handleHqcHello P e s m).1.rx.mtu pk d.index) :
    let s₀ := (handleHqcHello P e s m).1
    let t := (session P).final s₀ (ds.map Delivery.input)
    (∀ i, t.rx.Received i ↔ i ∈ delivered ds) ∧
      (∀ as d bs, ds = as ++ d :: bs → DeliveryAnswer P s₀ pk as d
        (handle P ((session P).final s₀ (as.map Delivery.input)) d.input).2) ∧
      (DeliveredAll s₀.rx.pkChunks ds →
        ∃ pke, t.rx.pke = some pke ∧ pke.size = pk.length ∧ pke.read 0 pk.length = pk) := by
  have h : Delivering m pk ([] : List (Delivery ρ)) (handleHqcHello P e s m).1 :=
    hello_delivering ha hl
  obtain ⟨hd, -⟩ := h.run (P := P) hc
  refine ⟨hd.received, ?_, fun hall ↦ ?_⟩
  · rintro as d bs rfl
    exact h.answer fun a ha ↦ hc a (by rw [List.append_cons]; exact List.mem_append_left _ ha)
  · obtain ⟨-, hmtu, hlen⟩ := h.opened.sameBuf hd.opened
    obtain ⟨pke, hp, hs⟩ := hd.opened.rx.pke
    refine ⟨pke, hp, hs.trans hd.length.symm, hd.whole ?_ hp⟩
    rwa [HqcRxBuf.pkChunks, hlen, hmtu]

theorem sampleSession_open {pkLen : UInt32} (hs : (sampleSession pkLen).state ≠ .idle) :
    Open (sampleHello pkLen) (sampleSession pkLen) := by
  rcases hello_phase samplePlatform (sampleEnv 0 1) (.fresh (Bytes.zeros 32) (Bytes.zeros 32))
    (sampleHello pkLen) with ⟨-, hidle⟩ | ⟨ho, -⟩
  · exact absurd hidle hs
  · exact ho

def samplePk : List UInt8 := List.replicate 220 1 ++ List.replicate 80 2

def sampleFragment (i : Nat) (count : UInt16) : Delivery UInt8 :=
  ⟨i, ⟨7, UInt32.ofNat (220 * i), count, Vector.replicate 220 (UInt8.ofNat (i + 1))⟩, sampleEnv 1 2⟩

def sampleFragments : List (Delivery UInt8) :=
  [sampleFragment 1 80, sampleFragment 1 80, sampleFragment 0 220]

theorem sampleFragments_canonical : ∀ d ∈ sampleFragments,
    d.chunk.Canonical (sampleSession 300).rx.sessionId (sampleSession 300).rx.mtu samplePk
      d.index := by
  have ho : Open (sampleHello 300) (sampleSession 300) := sampleSession_open (by decide +kernel)
  have hlast : (sampleFragment 1 80).chunk.Canonical 7 220 samplePk 1 :=
    ⟨rfl, by decide +kernel, rfl, by decide +kernel, by decide +kernel⟩
  have hfirst : (sampleFragment 0 220).chunk.Canonical 7 220 samplePk 0 :=
    ⟨rfl, by decide +kernel, rfl, by decide +kernel, by decide +kernel⟩
  rw [ho.rx.sessionId, ho.rx.mtu]
  exact List.forall_mem_cons.mpr ⟨hlast, List.forall_mem_cons.mpr ⟨hlast,
    List.forall_mem_singleton.mpr hfirst⟩⟩

theorem reassembly_of_a_repeated_fragment :
    (∀ i, ((session samplePlatform).final (sampleSession 300)
      (sampleFragments.map Delivery.input)).rx.Received i ↔ i ∈ [1, 1, 0]) ∧
    DeliveryAnswer samplePlatform (sampleSession 300) samplePk
      [sampleFragment 1 80, sampleFragment 1 80] (sampleFragment 0 220)
      (handle samplePlatform ((session samplePlatform).final (sampleSession 300)
        ([sampleFragment 1 80, sampleFragment 1 80].map Delivery.input))
        (sampleFragment 0 220).input).2 ∧
    ∃ pke, ((session samplePlatform).final (sampleSession 300)
        (sampleFragments.map Delivery.input)).rx.pke = some pke ∧
      pke.size = samplePk.length ∧ pke.read 0 samplePk.length = samplePk := by
  have hall : DeliveredAll (sampleSession 300).rx.pkChunks sampleFragments := by decide +kernel
  have hc := sampleFragments_canonical
  unfold sampleSession at hall hc ⊢
  obtain ⟨hreceived, hanswers, hwhole⟩ := reassembly_in_any_order samplePlatform (sampleEnv 0 1)
    (.fresh (Bytes.zeros 32) (Bytes.zeros 32)) (sampleHello 300) samplePk sampleFragments
    (by decide +kernel) (by decide +kernel) hc
  exact ⟨hreceived, hanswers _ _ [] rfl, hwhole hall⟩

def sampleDelivery (memory : Option (Nat → UInt8)) : Delivery UInt8 :=
  ⟨0, sampleChunk 0 1, { sampleEnv 1 2 with mallocCte := memory }⟩

/-- The delivery that completes the key finds no memory for the ciphertext, and
`ap_kem_enc` is called first at the next one, which repeats the fragment. -/
theorem completing_delivery_without_memory :
    (sampleSession 1).state = .ctTx ∧
      DeliveredAll (sampleSession 1).rx.pkChunks [sampleDelivery none] ∧
      ¬ CallsKem (handle samplePlatform (sampleSession 1) (sampleDelivery none).input).2 ∧
      CallsKem (handle samplePlatform
        (handle samplePlatform (sampleSession 1) (sampleDelivery none).input).1
          (sampleDelivery (some fun _ ↦ 0)).input).2 := by
  decide +kernel

end KemtlsMavlink
