import KemtlsMavlink.Session.AllOrNothing

namespace KemtlsMavlink

open Library

variable {ρ : Type} {P : Platform ρ} {e e' : Env ρ} {s s' : HqcSession} {m : Hello} {k : PdkKey}
  {fx : List Effect}

/-- The two calls get the same from outside, but for what the memory held before that
they allocate. -/
structure Env.SameOutcomes (e e' : Env ρ) : Prop where
  millis : e'.millis = e.millis
  fs : e'.fs = e.fs
  rand : e'.rand = e.rand
  pke : e'.mallocPke.isSome = e.mallocPke.isSome
  pks : e'.callocPks.isSome = e.callocPks.isSome
  cts : e'.mallocCts.isSome = e.mallocCts.isSome

/-- A successful `ap_kem_enc` leaves nothing of what the ciphertext buffer held. -/
def Platform.IgnoresBuffer (P : Platform ρ) : Prop :=
  ∀ pk ct ct' r, (P.apKemEnc pk ct r).ok = true → P.apKemEnc pk ct' r = P.apKemEnc pk ct r

def HqcRxBuf.withBlocks (rx : HqcRxBuf) (pke pks cts : Option Block) : HqcRxBuf :=
  { rx with pke := pke, pks := pks, cts := { rx.cts with buf := cts } }

/-- The sessions agree in all their fields and, the bytes of `rx.pke` aside, in what their
buffers hold. -/
def SameSession (s s' : HqcSession) : Prop :=
  ∃ pke pks cts pke' pks' cts', s.rx.pke = some pke ∧ s.rx.pks = some pks ∧
    s.rx.cts.buf = some cts ∧ pke'.size = pke.size ∧ pks.Same pks' ∧ cts.Same cts' ∧
      s' = s.setRx (s.rx.withBlocks (some pke') (some pks') (some cts'))

def Effect.isKem : Effect → Bool
  | .apKemEnc .. => true
  | _ => false

/-- All that has been sent and done but the calls of `ap_kem_enc`. -/
def outside (fx : List Effect) : List Effect := fx.filter fun o ↦ !o.isKem

variable {initPke initCts : Nat → UInt8}

def helloKem (P : Platform ρ) (e : Env ρ) (k : PdkKey) (initCts : Nat → UInt8) : KemOut :=
  P.apKemEnc (k.pks.read 0 apKemPublicKeyBytes)
    ((Block.malloc apKemCiphertextBytes initCts).read 0 apKemCiphertextBytes) e.rand

def helloDone (P : Platform ρ) (e : Env ρ) (s : HqcSession) (m : Hello)
    (initPke initCts : Nat → UInt8) (k : PdkKey) (fx : List Effect) : HqcSession × List Effect :=
  let out := helloKem P e k initCts
  let r := helloAccept P
    (helloSession P e s m (selectAead m.aeadOffer) (some (.malloc m.pkLen.toNat initPke))) k
    ((Block.malloc apKemCiphertextBytes initCts).write 0 out.ct.toList) out.ss
  (r.1, fx ++ [pdkText k] ++ [.apKemEnc 1 k.pks out.ok] ++ r.2)

structure HelloPasses (P : Platform ρ) (e : Env ρ) (s : HqcSession) (m : Hello)
    (initPke initCts : Nat → UInt8) (k : PdkKey) (fx : List Effect) : Prop where
  fields : helloFieldError (helloBegin P e s m).rx = none
  pke : e.mallocPke = some initPke
  load : loadPks P e m.sessionId = .ok (k, fx)
  cts : e.mallocCts = some initCts
  kem : (helloKem P e k initCts).ok = true

theorem helloEncap_eq (s : HqcSession) (hc : e.mallocCts = some initCts) :
    helloEncap P e s k fx =
      if (helloKem P e k initCts).ok then
        let out := helloKem P e k initCts
        let r := helloAccept P s k
          ((Block.malloc apKemCiphertextBytes initCts).write 0 out.ct.toList) out.ss
        (r.1, fx ++ [.apKemEnc 1 k.pks out.ok] ++ r.2)
      else refuse P s ⟨fx ++ [.apKemEnc 1 k.pks false] ++ kemEncTexts k, some .encUnav,
        [nackText "HQC: kem enc unavailable (%u)" 0]⟩ := by
  unfold helloEncap helloKem
  simp only [hc]
  generalize P.apKemEnc _ _ _ = out
  cases h : out.ok
  · simp only [Bool.not_false, if_true, Bool.false_eq_true, if_false]
  · simp only [Bool.not_true, Bool.false_eq_true, if_false, if_true]

theorem HelloPasses.done (h : HelloPasses P e s m initPke initCts k fx) :
    handleHqcHello P e s m = helloDone P e s m initPke initCts k fx := by
  have hload : loadPks P e (helloBegin P e s m).rx.sessionId = .ok (k, fx) := h.load
  unfold handleHqcHello
  simp only [h.fields, h.pke, hload]
  rw [helloEncap_eq _ h.cts, if_pos h.kem]
  rfl

theorem helloPasses_of_ctTx (ha : (handleHqcHello P e s m).1.state = .ctTx) :
    ∃ initPke initCts k fx, HelloPasses P e s m initPke initCts k fx := by
  have hrefuse : ∀ (alg : UInt8) pke r,
      (refuse P (helloSession P e s m alg pke) r).1.state ≠ .ctTx := fun alg pke r ↦ by
    unfold refuse
    split <;> exact nofun
  have h := handleHqcHello_cases P e s m
  generalize handleHqcHello P e s m = r at h ha
  cases h with
  | field alg status text hf => exact absurd ha (hrefuse _ _ _)
  | noPke hf hp => exact absurd ha (hrefuse _ _ _)
  | noKey init r hf hp hk => exact absurd ha (hrefuse _ _ _)
  | encap init k fx hf hp hk =>
    cases hc : e.mallocCts with
    | none =>
      simp only [helloEncap, hc] at ha
      exact absurd ha (hrefuse _ _ _)
    | some initCts =>
      rw [helloEncap_eq _ hc] at ha
      split_ifs at ha with hkem
      · exact ⟨init, initCts, k, fx, hf, hp, hk, hc, hkem⟩
      · exact absurd ha (hrefuse _ _ _)

theorem readPks_withInit (fs : PdkFs) (init : Nat → UInt8) (pksz fuel got : Nat) (pks : Block) :
    readPks fs pksz fuel got (pks.withInit init) =
      ((readPks fs pksz fuel got pks).1.withInit init, (readPks fs pksz fuel got pks).2) := by
  induction fuel generalizing got pks with
  | zero => rfl
  | succ fuel ih =>
    unfold readPks
    split_ifs
    · dsimp only
      split_ifs
      · rfl
      · rw [Block.write_withInit, ih]
    · rfl

theorem readPks_init (fs : PdkFs) (pksz fuel got : Nat) (pks : Block) :
    (readPks fs pksz fuel got pks).1.init = pks.init :=
  congrArg (fun r ↦ r.1.init) (readPks_withInit fs pks.init pksz fuel got pks)

theorem loadPks_same (he : e.SameOutcomes e') {sid : UInt64} (h : loadPks P e sid = .ok (k, fx)) :
    ∃ pks', loadPks P e' sid = .ok ({ k with pks := pks' }, fx) ∧ k.pks.Same pks' := by
  obtain ⟨-, hsize, hw⟩ := loadPks_spec h
  simp only [loadPks_eq_ok, readPdk_eq_ok, he.fs] at h ⊢
  generalize pdkHeader (e.fs.read 0 56) = hdr at *
  obtain ⟨herr, init, hc, hgot, hfp, rfl, rfl⟩ := h
  obtain ⟨init', hc'⟩ : ∃ init', e'.callocPks = some init' :=
    Option.isSome_iff_exists.mp (by rw [he.pks, hc]; rfl)
  have hinit := readPks_init e.fs hdr.pksz hdr.pksz 0 (Block.calloc apKemPublicKeyBytes init)
  have hread := readPks_withInit e.fs (Block.calloc apKemPublicKeyBytes init').init hdr.pksz
    hdr.pksz 0 (Block.calloc apKemPublicKeyBytes init)
  have hcal : (Block.calloc apKemPublicKeyBytes init).withInit
    (Block.calloc apKemPublicKeyBytes init').init = Block.calloc apKemPublicKeyBytes init' := rfl
  rw [hcal] at hread
  generalize readPks e.fs hdr.pksz hdr.pksz 0 (Block.calloc apKemPublicKeyBytes init) = r at *
  refine ⟨r.1.withInit (Block.calloc apKemPublicKeyBytes init').init, ⟨herr, init', hc', ?_⟩,
    Block.same_withInit fun i hi _ ↦ ?_⟩
  · rw [hread, Block.read_withInit_of_written (by simpa using hw)]
    exact ⟨hgot, hfp, rfl, rfl⟩
  · rw [hsize] at hi
    rw [hinit]
    exact (if_pos hi).trans (if_pos hi).symm

theorem ctChunkAt_same {ct ct' : Block} {len off mtu : Nat} (h : ct.Same ct') (hl : len ≤ ct.size)
    (hoff : off ≤ len) (sid : UInt64) (kind : UInt8) :
    ctChunkAt ct' sid kind mtu len off = ctChunkAt ct sid kind mtu len off := by
  unfold ctChunkAt
  dsimp only
  rw [h.read (by omega)]

theorem sendWindow_same {ct ct' : Block} {len : Nat} (h : ct.Same ct') (hl : len ≤ ct.size)
    (sid : UInt64) (kind : UInt8) (mtu budget off : Nat) :
    sendWindow ct' sid kind mtu len budget off = sendWindow ct sid kind mtu len budget off := by
  induction budget generalizing off with
  | zero => rfl
  | succ budget ih =>
    unfold sendWindow
    split_ifs with hlt
    · rw [ih, ctChunkAt_same h hl (Nat.le_of_lt hlt)]
    · rfl

theorem HelloPasses.same (s' : HqcSession) (hP : P.IgnoresBuffer) (he : e.SameOutcomes e')
    (h : HelloPasses P e s m initPke initCts k fx) :
    ∃ initPke' initCts' pks', HelloPasses P e' s' m initPke' initCts' { k with pks := pks' } fx ∧
      k.pks.Same pks' ∧
        helloKem P e' { k with pks := pks' } initCts' = helloKem P e k initCts := by
  obtain ⟨pks', hload, hpks⟩ := loadPks_same he h.load
  have hsize := (loadPks_spec h.load).2.1
  obtain ⟨initPke', hpke⟩ : ∃ init, e'.mallocPke = some init :=
    Option.isSome_iff_exists.mp (by rw [he.pke, h.pke]; rfl)
  obtain ⟨initCts', hcts⟩ : ∃ init, e'.mallocCts = some init :=
    Option.isSome_iff_exists.mp (by rw [he.cts, h.cts]; rfl)
  have hkem : helloKem P e' { k with pks := pks' } initCts' = helloKem P e k initCts := by
    unfold helloKem
    rw [he.rand, hpks.read (by omega)]
    exact hP _ _ _ _ h.kem
  have hok : (helloKem P e' { k with pks := pks' } initCts').ok = true := by
    rw [hkem]
    exact h.kem
  exact ⟨initPke', initCts', pks', ⟨h.fields, hpke, hload, hcts, hok⟩, hpks, hkem⟩

theorem helloSession_eq (hm : e'.millis = e.millis) (alg : UInt8) (pke pke' : Option Block) :
    helloSession P e' s' m alg pke' = (helloSession P e s m alg pke).setRx
      { (helloSession P e s m alg pke).rx with pke := pke', rs := s'.rx.rs } := by
  simp only [helloSession, helloBegin, hm]
  rfl

theorem helloAccept_same (pks' : Block) {cts cts' : Block} (hc : cts.Same cts')
    (hl : cts.size = apKemCiphertextBytes) (ss : Bytes apKemBytes) (pke' : Option Block)
    (rs : Bytes 32) :
    let r := helloAccept P s k cts ss
    let r' := helloAccept P (s.setRx { s.rx with pke := pke', rs := rs }) { k with pks := pks' }
      cts' ss
    r'.2 = r.2 ∧ r'.1 = r.1.setRx (r.1.rx.withBlocks pke' (some pks') (some cts')) := by
  have hw := sendWindow_same hc (Nat.le_of_eq hl.symm) s.rx.sessionId 1 s.rx.mtu s.rx.window 0
  have hread : cts'.read 0 apKemCiphertextBytes = cts.read 0 apKemCiphertextBytes :=
    hc.read (by omega)
  simp only [helloAccept, ctsSummaryTh, HqcSession.setRx_rx, hread, hw]
  exact ⟨rfl, rfl⟩

theorem same_written (initCts initCts' : Nat → UInt8) (ct : Bytes apKemCiphertextBytes) :
    ((Block.malloc apKemCiphertextBytes initCts).write 0 ct.toList).Same
      ((Block.malloc apKemCiphertextBytes initCts').write 0 ct.toList) := by
  refine Block.same_withInit fun i hi hn ↦ absurd ?_ hn
  rw [Block.written_write, Vector.length_toList, Nat.zero_add]
  exact .inl ⟨Nat.zero_le i, hi⟩

/-- An accepted `HELLO` sends the same and leaves the same session, whatever the session and
the memory were before. -/
theorem new_session_owes_nothing (P : Platform ρ) (hP : P.IgnoresBuffer) (e e' : Env ρ)
    (he : e.SameOutcomes e') (s s' : HqcSession) (m : Hello)
    (ha : (handleHqcHello P e s m).1.state = .ctTx) :
    outside (handleHqcHello P e' s' m).2 = outside (handleHqcHello P e s m).2 ∧
      SameSession (handleHqcHello P e s m).1 (handleHqcHello P e' s' m).1 := by
  obtain ⟨initPke, initCts, k, fx, h⟩ := helloPasses_of_ctTx ha
  obtain ⟨initPke', initCts', pks', h', hpks, hkem⟩ := h.same s' hP he
  rw [h.done, h'.done]
  unfold helloDone
  dsimp only
  rw [hkem, helloSession_eq (s := s) he.millis _ (some (.malloc m.pkLen.toNat initPke))]
  have hcts := same_written initCts initCts' (helloKem P e k initCts).ct
  obtain ⟨hfx, hs⟩ := helloAccept_same (P := P) (k := k)
    (s := helloSession P e s m (selectAead m.aeadOffer) (some (.malloc m.pkLen.toNat initPke)))
    pks' hcts rfl (helloKem P e k initCts).ss (some (.malloc m.pkLen.toNat initPke')) s'.rx.rs
  refine ⟨?_, _, _, _, .malloc m.pkLen.toNat initPke', pks', _, rfl, rfl, rfl, rfl, hpks, hcts,
    hs⟩
  rw [hfx]
  simp only [outside, List.filter_append]
  rfl

/-- Memory full of sevens. -/
def sevens (e : Env ρ) : Env ρ :=
  { e with mallocPke := some fun _ ↦ 7, callocPks := some fun _ ↦ 7, mallocCts := some fun _ ↦ 7 }

/-- The same `HELLO` on a fresh channel and, over other memory, in an active session. -/
theorem sample_session_owes_nothing :
    SameSession (sampleSession 1)
      (handleHqcHello samplePlatform (sevens (sampleEnv 0 1)) (sampleActive 1) (sampleHello 1)).1 :=
    by
  have ha : (sampleSession 1).state = .ctTx := by decide +kernel
  unfold sampleSession at ha ⊢
  exact (new_session_owes_nothing samplePlatform (fun _ _ _ _ _ ↦ rfl) (sampleEnv 0 1)
    (sevens (sampleEnv 0 1)) ⟨rfl, rfl, rfl, rfl, rfl, rfl⟩ _ (sampleActive 1) (sampleHello 1) ha).2

end KemtlsMavlink
