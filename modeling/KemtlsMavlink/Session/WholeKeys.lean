import KemtlsMavlink.Session.Delivery

namespace KemtlsMavlink

open Library

variable {ρ : Type} {P : Platform ρ} {m : Hello} {s : HqcSession} {i : Input ρ} {fs : PdkFs}
  {file : List UInt8}

/-- A call of `ap_kem_enc` gets a buffer that has all the bytes of a public key,
each of them stored since the allocation: by the chunks of the peer in `rx.pke`,
by the reads of the file in `rx.pks`. -/
def Effect.WholeKey : Effect → Prop
  | .apKemEnc _ pk _ =>
    apKemPublicKeyBytes ≤ pk.size ∧ ∀ j < apKemPublicKeyBytes, pk.Written j
  | _ => True

theorem readPks_spec (fs : PdkFs) (pksz fuel got : Nat) (pks : Block) :
    (readPks fs pksz fuel got pks).1.size = pks.size ∧ ∀ j,
      (pks.Written j ∨ got ≤ j ∧ j < (readPks fs pksz fuel got pks).2.2) →
        (readPks fs pksz fuel got pks).1.Written j := by
  induction fuel generalizing got pks with
  | zero => exact ⟨rfl, fun j hj ↦ hj.elim id fun h ↦ absurd h.2 (Nat.not_lt.mpr h.1)⟩
  | succ fuel ih =>
    unfold readPks
    split
    · dsimp only
      split
      · exact ⟨rfl, fun j hj ↦ hj.elim id fun h ↦ absurd h.2 (Nat.not_lt.mpr h.1)⟩
      · generalize fs.read (56 + got) (pksz - got) = r
        obtain ⟨hs, hw⟩ := ih (got + r.length) (pks.write got r)
        refine ⟨hs, fun j hj ↦ hw j ?_⟩
        rw [Block.written_write]
        rcases hj with hj | ⟨hl, hu⟩
        · exact .inl (.inr hj)
        · by_cases hr : j < got + r.length
          · exact .inl (.inl ⟨hl, hr⟩)
          · exact .inr ⟨Nat.le_of_not_lt hr, hu⟩
    · exact ⟨rfl, fun j hj ↦ hj.elim id fun h ↦ absurd h.2 (Nat.not_lt.mpr h.1)⟩

/-- A key that is loaded has the bytes that the header announces, and its header
has passed the checks. -/
theorem loadPks_spec {e : Env ρ} {sid : UInt64} {k : PdkKey} {fx : List Effect}
    (h : loadPks P e sid = .ok (k, fx)) :
    pdkError e.fs = none ∧ k.pks.size = apKemPublicKeyBytes ∧
      ∀ j < (pdkHeader (e.fs.read 0 56)).pksz, k.pks.Written j := by
  obtain ⟨he, h⟩ := loadPks_eq_ok.mp h
  obtain ⟨init, -, hgot, -, rfl, -⟩ := readPdk_eq_ok.mp h
  obtain ⟨hs, hw⟩ := readPks_spec e.fs (pdkHeader (e.fs.read 0 56)).pksz
    (pdkHeader (e.fs.read 0 56)).pksz 0 (.calloc apKemPublicKeyBytes init)
  refine ⟨he, hs, fun j hj ↦ hw j (.inr ⟨Nat.zero_le j, ?_⟩)⟩
  exact Nat.lt_of_lt_of_le hj hgot

/-- The file is there with its size, and every read delivers something as long as
there is something left. -/
structure PdkFs.Serves (fs : PdkFs) (file : List UInt8) : Prop where
  statSize : fs.statSize = some file.length
  openOk : fs.openOk = true
  content : fs.content = file
  statSize2 : fs.statSize2 = some file.length
  reads : ∀ pos req, 0 < req → 0 < fs.count pos req

structure PdkFs.HeaderOk (fs : PdkFs) (h : PdkHeader) : Prop where
  statSize : ∃ size, fs.statSize = some size ∧ 56 ≤ size
  openOk : fs.openOk = true
  length : (fs.read 0 56).length = 56
  magic : h.magic = 0x544D454B
  ver : h.ver = 1
  suite : h.suite = 1
  statSize2 : ∃ size, fs.statSize2 = some size ∧ 56 + h.pksz ≤ size
  pksz_pos : 0 < h.pksz
  pksz_le : h.pksz ≤ 65536

theorem any_not_lt_iff {o : Option Nat} {n : Nat} :
    o.any (fun size ↦ decide ¬ size < n) = true ↔ ∃ size, o = some size ∧ n ≤ size := by
  cases o with
  | none => simp
  | some size => simp

theorem pdkError_eq_none : pdkError fs = none ↔ fs.HeaderOk (pdkHeader (fs.read 0 56)) := by
  unfold pdkError
  dsimp only
  generalize pdkHeader (fs.read 0 56) = h
  constructor
  · intro he
    split_ifs at he with h₁ h₂ h₃ h₄
    simp only [Bool.not_eq_true', Bool.not_eq_false, any_not_lt_iff, not_not, not_or]
      at h₁ h₂ h₃ h₄
    obtain ⟨hm, hv, hs, hz, hp, hl⟩ := h₄
    exact ⟨h₁, h₂, h₃, hm, hv, hs, hz, Nat.pos_of_ne_zero hp, Nat.not_lt.mp hl⟩
  · rintro ⟨⟨size, h₁, hle⟩, h₂, h₃, hm, hv, hs, ⟨size₂, hz, hle₂⟩, hp, hl⟩
    simp [h₁, h₂, h₃, hm, hv, hs, hz, hle₂, Nat.not_lt.mpr hle, Nat.pos_iff_ne_zero.mp hp, hl]

theorem readPks_serves (pksz fuel got : Nat) (pks : Block) (h : fs.Serves file)
    (hlen : 56 + pksz ≤ file.length) (hfuel : pksz ≤ got + fuel) (hgot : got ≤ pksz)
    (hpks : ∀ j < got, pks.get j = file.getD (56 + j) 0) :
    (readPks fs pksz fuel got pks).2.2 = pksz ∧
      ∀ j < pksz, (readPks fs pksz fuel got pks).1.get j = file.getD (56 + j) 0 := by
  induction fuel generalizing got pks with
  | zero =>
    obtain rfl : got = pksz := by omega
    exact ⟨rfl, hpks⟩
  | succ fuel ih =>
    unfold readPks
    split_ifs with hlt
    · have hread : fs.read (56 + got) (pksz - got) =
          (file.drop (56 + got)).take (min (pksz - got) (fs.count (56 + got) (pksz - got))) := by
        rw [PdkFs.read, h.content]
      have hpos := h.reads (56 + got) (pksz - got) (by omega)
      have hlength : (fs.read (56 + got) (pksz - got)).length =
          min (pksz - got) (fs.count (56 + got) (pksz - got)) := by
        rw [hread, List.length_take, List.length_drop]
        omega
      generalize fs.read (56 + got) (pksz - got) = r at hread hlength
      have hne : r.isEmpty = false := by
        rw [← Bool.not_eq_true, List.isEmpty_iff]
        rintro rfl
        rw [List.length_nil] at hlength
        omega
      simp only [hne, Bool.false_eq_true, if_false]
      refine ih _ _ (by omega) (by omega) fun j hj ↦ ?_
      rw [Block.get_write]
      split_ifs with hin
      · have hj' : j - got < min (pksz - got) (fs.count (56 + got) (pksz - got)) := by omega
        have hadd : 56 + got + (j - got) = 56 + j := by omega
        simp [hread, List.getD_eq_getElem?_getD, hj', hadd]
      · exact hpks j (by omega)
    · obtain rfl : got = pksz := by omega
      exact ⟨rfl, hpks⟩

/-- The key of the file is exactly as long as its buffer, no ephemeral key is shorter than
`ap_kem_enc` takes it to be, and no chunk leaves a part of its fragment out: a `HELLO` that passes
its checks finds a key of 2249 bytes announced in the file; a chunk that marks a fragment
brings its bytes, as far as they are bytes of a public key; and a chunk that completes the key
completes one of full length. -/
def WholeKeyStep (P : Platform ρ) (s : HqcSession) (i : Input ρ) : Prop :=
  match i.event with
  | .hello m => helloFieldError (helloBegin P i.env s m).rx = none → pdkError i.env.fs = none →
      (pdkHeader (i.env.fs.read 0 56)).pksz = apKemPublicKeyBytes
  | .pkChunk c => pkChunkError s.rx c = none →
      (¬ s.rx.Received (s.rx.fragIdx c) → c.Brings s.rx (min apKemPublicKeyBytes s.rx.pkLen)) ∧
        ((∀ k < s.rx.pkChunks, k = s.rx.fragIdx c ∨ s.rx.Received k) →
          apKemPublicKeyBytes ≤ s.rx.pkLen)
  | _ => True

/-- The bytes of the marked fragments are in the buffer, as far as they are bytes
of a public key. -/
structure KeyFilled (s : HqcSession) : Prop where
  settled : Settled s
  written : ∀ pke, s.rx.pke = some pke → ∀ j < min apKemPublicKeyBytes s.rx.pkLen,
    s.rx.Received (j / s.rx.mtu) → pke.Written j

theorem KeyFilled.opened (h : KeyFilled s) (hp : s.rx.pke.isSome) : ∃ m, Open m s :=
  h.settled.resolve_left fun hr ↦ by rw [hr.pke] at hp; exact nomatch hp

theorem KeyFilled.afterChunk (h : KeyFilled s) {c : PkChunk} (ha : ChunkAccepted s.rx c)
    (hb : ¬ s.rx.Received (s.rx.fragIdx c) → c.Brings s.rx (min apKemPublicKeyBytes s.rx.pkLen))
    {pke : Block} (hp : (s.rx.afterChunk c).pke = some pke) :
    ∀ j < min apKemPublicKeyBytes s.rx.pkLen,
      (s.rx.afterChunk c).Received (j / s.rx.mtu) → pke.Written j := by
  intro j hj hr
  obtain ⟨m, ho⟩ := h.opened ha.pke
  rw [HqcRxBuf.received_afterChunk ho.rx.fragments ha] at hr
  by_cases hnew : s.rx.Received (s.rx.fragIdx c)
  · rw [HqcRxBuf.afterChunk_pke_of_received hnew] at hp
    exact h.written pke hp j hj (hr.elim (fun he ↦ he ▸ hnew) id)
  · obtain ⟨b, hb', -⟩ := ho.rx.pke
    rw [HqcRxBuf.afterChunk_pke_of_not_received hnew, hb'] at hp
    cases hp
    rw [Block.written_write]
    rcases hr with he | hold
    · obtain ⟨hl, hu⟩ := hb hnew j hj he
      have hcount : c.count.toNat ≤ 220 := ho.rx.mtu ▸ ha.count_le
      refine .inl ⟨hl, ?_⟩
      rw [List.length_take, Vector.length_toList, Nat.min_eq_left hcount]
      exact hu
    · exact .inr (h.written b hb' j hj hold)

theorem hello_keyFilled (P : Platform ρ) (e : Env ρ) (s : HqcSession) (m : Hello) :
    KeyFilled (handleHqcHello P e s m).1 := by
  refine ⟨(hello_phase P e s m).imp (·.1) fun h ↦ ⟨m, h.1⟩, fun pke _ j _ hr ↦ ?_⟩
  rw [HqcRxBuf.Received, hello_pkeAcked] at hr
  exact absurd hr (by simp)

theorem KeyFilled.step (h : KeyFilled s) (hc : WholeKeyStep P s i) :
    KeyFilled (handle P s i).1 := by
  by_cases hi : i.event.IsHello
  · obtain ⟨m, he⟩ := hi.exists
    simp only [handle, he]
    exact hello_keyFilled P i.env s m
  · refine ⟨h.settled.step i, fun pke hp ↦ ?_⟩
    cases handle_keyMove (P := P) h.settled.sized hi with
    | same hk hp' hcop =>
      intro j hj hr
      rw [hk.received, hk.mtu] at hr
      rw [hk.pkLen] at hj
      rcases hp' with hp' | hp'
      · exact h.written pke (hp' ▸ hp) j hj hr
      · cases hp'.symm.trans hp
    | wiped hr hp' => cases hp'.symm.trans hp
    | chunk c he ha hk hp' hcop =>
      unfold WholeKeyStep at hc
      rw [he] at hc
      have hw := h.afterChunk ha (hc (pkChunkError_eq_none.mpr ha)).1 (hp' ▸ hp)
      intro j hj hr
      rw [hk.received, hk.mtu, HqcRxBuf.afterChunk_mtu] at hr
      rw [hk.pkLen, HqcRxBuf.afterChunk_pkLen] at hj
      exact hw j hj hr

theorem Sends.wholeKey {fx : List Effect} (h : Sends s fx) : ∀ o ∈ fx, o.WholeKey := by
  refine h.forall_effect (fun o hn ↦ ?_) fun _ _ _ _ ↦ trivial
  cases o with
  | apKemEnc kind pk ok => exact hn.elim
  | _ => trivial

theorem stored_wholeKey (sid : UInt64) (base : Nat) (mask : UInt32) (rx : HqcRxBuf) (c : PkChunk) :
    ∀ o ∈ (rx.storeFragment c).2 ++ [.pkAck sid base mask], o.WholeKey :=
  HqcRxBuf.forall_stored_effect (fun _ _ ↦ trivial) trivial rx c

theorem hello_wholeKey {e : Env ρ}
    (hc : helloFieldError (helloBegin P e s m).rx = none → pdkError e.fs = none →
      (pdkHeader (e.fs.read 0 56)).pksz = apKemPublicKeyBytes) :
    ∀ o ∈ (handleHqcHello P e s m).2, o.WholeKey := by
  have heff : ∀ o, HelloEffect P e s m o → o.WholeKey := by
    rintro o (hs | ⟨k, fx, ok, hf, hk, rfl⟩)
    · cases o with
      | apKemEnc kind pk ok => exact hs.elim
      | _ => trivial
    · obtain ⟨he, hl, hw⟩ := loadPks_spec hk
      exact ⟨Nat.le_of_eq hl.symm, fun j hj ↦ hw j ((hc hf he).symm ▸ hj)⟩
  exact (handleHqcHello_spec P e s m).forall_effect heff fun _ _ ↦ trivial

theorem KeyFilled.pke_whole (h : KeyFilled s) {c : PkChunk} (ha : ChunkAccepted s.rx c)
    (hb : ¬ s.rx.Received (s.rx.fragIdx c) → c.Brings s.rx (min apKemPublicKeyBytes s.rx.pkLen))
    (hlen : (∀ k < s.rx.pkChunks, k = s.rx.fragIdx c ∨ s.rx.Received k) →
      apKemPublicKeyBytes ≤ s.rx.pkLen)
    (hk : (s.rx.afterChunk c).KeyComplete) {pke : Block} (hp : (s.rx.afterChunk c).pke = some pke) :
    apKemPublicKeyBytes ≤ pke.size ∧ ∀ j < apKemPublicKeyBytes, pke.Written j := by
  obtain ⟨m, ho⟩ := h.opened ha.pke
  have hf := ho.rx.fragments
  have hfull := hlen ((HqcRxBuf.keyComplete_afterChunk hf ha).mp hk)
  have hsize : pke.size = s.rx.pkLen := by
    obtain ⟨b, hb', hs⟩ := (ho.rx.afterChunk ha).pke
    rw [HqcRxBuf.afterChunk_pkLen] at hs
    exact Option.some.inj (hp.symm.trans hb') ▸ hs
  refine ⟨hsize ▸ hfull, fun j hj ↦ ?_⟩
  apply h.afterChunk ha hb hp j (by omega)
  have hi : j / s.rx.mtu < s.rx.pkChunks := by
    rw [HqcRxBuf.lt_pkChunks_iff hf]
    exact Nat.lt_of_le_of_lt (Nat.div_mul_le_self j _) (by omega)
  exact (hf.afterChunk ha).received_of_complete hk (by rwa [HqcRxBuf.afterChunk_pkChunks])

theorem KeyFilled.wholeKey (h : KeyFilled s) (hc : WholeKeyStep P s i) :
    ∀ o ∈ (handle P s i).2, o.WholeKey := by
  by_cases hi : i.event.IsHello
  · obtain ⟨m, he⟩ := hi.exists
    unfold WholeKeyStep at hc
    simp only [he] at hc
    simp only [handle, he]
    exact hello_wholeKey hc
  · have hm := handle_move (P := P) h.settled.sized hi
    generalize handle P s i = r at hm ⊢
    cases hm with
    | quiet s' fx ht hs hfx => exact hfx.wholeKey
    | acked s' fx ht hs hd hw hfx => exact hfx.wholeKey
    | wiped s₀ s' fx ht hs hr hfx => exact hfx.wholeKey
    | chunk c sid base mask he ha hk => exact stored_wholeKey sid base mask s.rx c
    | encap c sid base mask pke r he ha hk hp hr =>
      unfold WholeKeyStep at hc
      rw [he] at hc
      obtain ⟨hb, hlen⟩ := hc (pkChunkError_eq_none.mpr ha)
      have hw := h.pke_whole ha hb hlen hk hp
      have hkey := hr.forall_effect (Q := Effect.WholeKey) trivial (fun _ ↦ hw) fun _ ↦ trivial
      exact List.forall_mem_append.mpr ⟨stored_wholeKey sid base mask s.rx c, hkey⟩
    | finished f he ha =>
      exact List.forall_mem_cons.mpr ⟨trivial, List.forall_mem_singleton.mpr trivial⟩

theorem fresh_keyFilled (kChachaTx kChachaRx : Bytes 32) : KeyFilled (.fresh kChachaTx kChachaRx) :=
  ⟨fresh_settled _ _, fun _ hp ↦ nomatch hp⟩

/-- Every key that the session encapsulates to along `is` is whole. -/
def OnlyWholeKeys (P : Platform ρ) (kChachaTx kChachaRx : Bytes 32) (is : List (Input ρ)) : Prop :=
  ∀ o ∈ (session P).outputs (.fresh kChachaTx kChachaRx) is, o.WholeKey

/-- Along the runs that meet the condition, only whole keys are encapsulated to. -/
theorem only_whole_keys (P : Platform ρ) (kChachaTx kChachaRx : Bytes 32) (is : List (Input ρ))
    (hg : (session P).Guarded (WholeKeyStep P) (.fresh kChachaTx kChachaRx) is) :
    OnlyWholeKeys P kChachaTx kChachaRx is :=
  hg.outputs (fun _ _ h hc ↦ ⟨h.step hc, h.wholeKey hc⟩) (fresh_keyFilled _ _)

theorem Phase.wholeKeyStep {pk : List UInt8} {d : Delivery ρ} (h : Phase m s)
    (hl : pk.length = m.pkLen.toNat) (hfull : apKemPublicKeyBytes ≤ pk.length)
    (hc : d.chunk.Canonical m.sessionId 220 pk d.index) : WholeKeyStep P s d.input := by
  intro ha
  rw [pkChunkError_eq_none] at ha
  rcases h with hr | ho
  · have hp := ha.pke
    rw [hr.pke] at hp
    exact nomatch hp
  · refine ⟨fun _ j hj hidx ↦ ?_, fun _ ↦ ?_⟩
    · have hlen := ho.rx.pkLen
      have hlt := hc.lt
      rw [HqcRxBuf.fragIdx, ho.rx.mtu, hc.offset] at hidx
      rw [hc.offset, hc.count]
      omega
    · rw [ho.rx.pkLen, ← hl]
      exact hfull

theorem deliveries_wholeKeyStep {pk : List UInt8} {ds : List (Delivery ρ)} (h : Phase m s)
    (hl : pk.length = m.pkLen.toNat) (hfull : apKemPublicKeyBytes ≤ pk.length)
    (hc : ∀ d ∈ ds, d.chunk.Canonical m.sessionId 220 pk d.index) :
    (session P).Guarded (WholeKeyStep P) s (ds.map Delivery.input) := by
  refine Machine.Guarded.of_invariant (I := Phase m) (P := fun _ i ↦ ∃ d : Delivery ρ,
    d.chunk.Canonical m.sessionId 220 pk d.index ∧ d.input = i) ?_ ?_ h
  · rintro s _ h ⟨d, hd, rfl⟩
    exact ⟨h.step (fun hi ↦ hi), h.wholeKeyStep hl hfull hd⟩
  · refine Machine.guarded_of_forall fun i hi _ ↦ ?_
    obtain ⟨d, hd, rfl⟩ := List.mem_map.mp hi
    exact ⟨d, hc d hd, rfl⟩

def fullPk : List UInt8 := List.replicate 2249 0

def fullMembers : List UInt8 :=
  [0x4B, 0x45, 0x4D, 0x54, 1, 0, 1, 0, 0, 0, 0, 0, 0, 0, 0, 0, 0xC9, 0x08, 0, 0]

def fullHdr : List UInt8 := fullMembers ++ ((sha256 fullPk).toList ++ [0, 0, 0, 0])

def fullPdk : List UInt8 := fullHdr ++ fullPk

def fullEnv : Env UInt8 :=
  { sampleEnv 0 1 with
    fs := ⟨some fullPdk.length, true, fullPdk, some fullPdk.length, fun _ req ↦ req⟩ }

theorem length_fullPk : fullPk.length = 2249 := List.length_replicate

theorem length_fullHdr : fullHdr.length = 56 := by
  rw [fullHdr, List.length_append, List.length_append, Vector.length_toList]
  rfl

theorem length_fullPdk : fullPdk.length = 2305 := by
  rw [fullPdk, List.length_append, length_fullHdr, length_fullPk]

theorem read_fullPdk : fullEnv.fs.read 0 56 = fullHdr := by
  rw [PdkFs.read]
  exact List.take_left' length_fullHdr

theorem pdkHeader_fullHdr :
    pdkHeader fullHdr = ⟨0x544D454B, 1, 1, 0, 2249, (sha256 fullPk).toList⟩ := by
  have hget {k : Nat} (hk : k < 20) : fullHdr.getD k 0 = fullMembers.getD k 0 :=
    List.getD_append _ _ _ _ hk
  have hfp : (fullHdr.drop 20).take 32 = (sha256 fullPk).toList := by
    rw [fullHdr, List.drop_left' (show fullMembers.length = 20 from rfl),
      List.take_left' Vector.length_toList]
  rw [pdkHeader, hfp, rd32, rd16, rd32]
  simp (disch := decide) only [hget]
  rfl

theorem fullEnv_loads (sid : UInt64) :
    ∃ k fx, loadPks samplePlatform fullEnv sid = .ok (k, fx) := by
  have hserves : fullEnv.fs.Serves fullPdk := ⟨rfl, rfl, rfl, rfl, fun _ _ h ↦ h⟩
  have hle : 56 + 2249 ≤ fullPdk.length := length_fullPdk.ge
  obtain ⟨hgot, hget⟩ := readPks_serves 2249 2249 0
    (Block.calloc apKemPublicKeyBytes fun _ ↦ 0) hserves hle (Nat.le_refl _) (Nat.zero_le _)
    fun j hj ↦ absurd hj (Nat.not_lt_zero j)
  have hkey : (readPks fullEnv.fs 2249 2249 0
      (Block.calloc apKemPublicKeyBytes fun _ ↦ 0)).1.read 0 2249 = fullPk := by
    have h := @Block.read_eq _ 0 fullPk fun j hj ↦ by
      rw [Nat.zero_add, hget j (length_fullPk ▸ hj), fullPdk,
        List.getD_append_right _ _ _ _ (length_fullHdr ▸ Nat.le_add_right 56 j), length_fullHdr,
        Nat.add_sub_cancel_left]
    rwa [length_fullPk] at h
  have herr : pdkError fullEnv.fs = none := by
    rw [pdkError_eq_none, read_fullPdk, pdkHeader_fullHdr]
    exact ⟨⟨_, rfl, (Nat.le_add_right 56 2249).trans hle⟩, rfl,
      by rw [read_fullPdk, length_fullHdr], rfl, rfl, rfl, ⟨_, rfl, hle⟩, by decide, by decide⟩
  simp only [loadPks_eq_ok, readPdk_eq_ok, read_fullPdk, pdkHeader_fullHdr]
  exact ⟨_, _, herr, fun _ ↦ 0, rfl, hgot.ge, by rw [hkey]; rfl, rfl, rfl⟩

theorem fullHello_accepted : (handleHqcHello samplePlatform fullEnv
    (.fresh (Bytes.zeros 32) (Bytes.zeros 32)) (sampleHello 2249)).1.state = .ctTx := by
  obtain ⟨k, fx, hload⟩ := fullEnv_loads (sampleHello 2249).sessionId
  have hfield : helloFieldError (helloBegin samplePlatform fullEnv
      (.fresh (Bytes.zeros 32) (Bytes.zeros 32)) (sampleHello 2249)).rx = none := rfl
  have hcase := handleHqcHello_cases samplePlatform fullEnv
    (.fresh (Bytes.zeros 32) (Bytes.zeros 32)) (sampleHello 2249)
  generalize handleHqcHello samplePlatform fullEnv _ _ = r at hcase ⊢
  cases hcase with
  | field alg status text hf => exact nomatch hfield.symm.trans hf
  | noPke hf hp => exact nomatch hp
  | noKey init r hf hp hk => exact nomatch hload.symm.trans hk
  | encap init k fx hf hp hk => rfl

def fullFragment (i : Nat) : Delivery UInt8 :=
  ⟨i, sampleChunk (UInt32.ofNat (220 * i)) (UInt16.ofNat (min 220 (2249 - 220 * i))), sampleEnv 1 2⟩

/-- The last fragment comes first. -/
def fullFragments : List (Delivery UInt8) := fullFragment 10 :: (List.range 10).map fullFragment

theorem fullFragment_canonical {i : Nat} (hi : i < 11) :
    (fullFragment i).chunk.Canonical 7 220 fullPk i := by
  have hoffset : (fullFragment i).chunk.offset.toNat = i * 220 := by
    refine (UInt32.toNat_ofNat').trans ?_
    omega
  have hcount : (fullFragment i).chunk.count.toNat = min 220 (2249 - i * 220) := by
    refine (UInt16.toNat_ofNat').trans ?_
    omega
  refine ⟨rfl, ?_, hoffset, ?_, ?_⟩
  · rw [length_fullPk]
    omega
  · rw [length_fullPk, hcount]
  · rw [hcount, fullPk, List.drop_replicate, List.take_replicate]
    exact (congrArg _ Vector.toList_replicate).trans (List.take_replicate.trans (by congr 1; omega))

/-- Both keys are whole, and the ephemeral one is encapsulated to. -/
theorem full_file_whole_key :
    OnlyWholeKeys samplePlatform (Bytes.zeros 32) (Bytes.zeros 32)
      (⟨.hello (sampleHello 2249), fullEnv⟩ :: fullFragments.map Delivery.input) ∧
    CallsKem ((session samplePlatform).outputs (.fresh (Bytes.zeros 32) (Bytes.zeros 32))
      (⟨.hello (sampleHello 2249), fullEnv⟩ :: fullFragments.map Delivery.input)) := by
  have hc : ∀ d ∈ fullFragments, d.chunk.Canonical 7 220 fullPk d.index := by
    refine List.forall_mem_cons.mpr ⟨fullFragment_canonical (by decide), fun d hd ↦ ?_⟩
    obtain ⟨i, hi, rfl⟩ := List.mem_map.mp hd
    exact fullFragment_canonical (Nat.lt_succ_of_lt (List.mem_range.mp hi))
  have hopen := ((hello_phase samplePlatform fullEnv (.fresh (Bytes.zeros 32) (Bytes.zeros 32))
    (sampleHello 2249)).resolve_left fun h ↦ nomatch h.2.symm.trans fullHello_accepted).1
  have hlen : fullPk.length = (sampleHello 2249).pkLen.toNat := length_fullPk
  refine ⟨only_whole_keys samplePlatform _ _ _ ⟨fun _ _ ↦ ?_, ?_⟩, ?_⟩
  · change (pdkHeader (fullEnv.fs.read 0 56)).pksz = _
    rw [read_fullPdk, pdkHeader_fullHdr]
    rfl
  · exact deliveries_wholeKeyStep (.inr hopen) hlen length_fullPk.ge hc
  · have hd := hello_delivering (ρ := UInt8) fullHello_accepted hlen
    rw [← hopen.rx.mtu] at hc
    have hcall : CallsKem ((session samplePlatform).outputs _ _) ↔ HasBuffer _ fullFragments :=
      (hd.run (hopen.rx.sessionId ▸ hc)).2
    rw [Machine.outputs_cons, callsKem_append]
    refine .inr (hcall.mpr ⟨fullFragment 10 :: (List.range 9).map fullFragment, fullFragment 9, [],
      rfl, ?_, rfl⟩)
    rw [HqcRxBuf.pkChunks, hopen.rx.mtu, hopen.rx.pkLen]
    decide

/-- The encapsulation of ciphertext `kind` takes a key without byte `j`. -/
def Effect.lacks (kind : UInt8) (j : Nat) : Effect → Bool
  | .apKemEnc kind' pk _ => kind' = kind && !decide (pk.Written j)
  | _ => false

theorem Effect.not_wholeKey {o : Effect} {kind : UInt8} {j : Nat} (hj : j < apKemPublicKeyBytes)
    (h : o.lacks kind j = true) : ¬ o.WholeKey := by
  cases o with
  | apKemEnc kind' pk ok =>
    have hn := (Bool.and_eq_true_iff.mp h).2
    rw [Bool.not_eq_true', decide_eq_false_iff_not] at hn
    exact fun hw ↦ hn (hw.2 j hj)
  | _ => exact nomatch h

def sampleOneByte : List (Input UInt8) :=
  [⟨.hello (sampleHello 1), sampleEnv 0 1⟩, ⟨.pkChunk (sampleChunk 0 1), sampleEnv 1 2⟩]

/-- With a key of one byte in the file too, both encapsulations take bytes that
nobody has supplied. -/
theorem one_byte_keys_are_encapsulated_to :
    ¬ OnlyWholeKeys samplePlatform (Bytes.zeros 32) (Bytes.zeros 32) sampleOneByte ∧
      ((session samplePlatform).outputs (.fresh (Bytes.zeros 32) (Bytes.zeros 32))
        sampleOneByte).any (Effect.lacks 0 1) = true ∧
      ((session samplePlatform).outputs (.fresh (Bytes.zeros 32) (Bytes.zeros 32))
        sampleOneByte).any (Effect.lacks 1 1) = true := by
  have he : ((session samplePlatform).outputs (.fresh (Bytes.zeros 32) (Bytes.zeros 32))
      sampleOneByte).any (Effect.lacks 0 1) = true := by decide +kernel
  refine ⟨fun h ↦ ?_, he, by decide +kernel⟩
  obtain ⟨o, ho, hl⟩ := List.any_eq_true.mp he
  exact Effect.not_wholeKey (by decide) hl (h o ho)

end KemtlsMavlink
