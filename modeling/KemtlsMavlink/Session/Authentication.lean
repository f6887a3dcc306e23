import KemtlsMavlink.Session.Phase
import KemtlsMavlink.Session.Sample

namespace KemtlsMavlink

open Library

variable {ρ : Type} {P : Platform ρ} {m : Hello} {s s' : HqcSession} {i : Input ρ}

/-- A `FINISH` that proves the knowledge of the keys of the handshake that `m`
has opened, at its arrival in the state `s`. -/
structure Authenticates (P : Platform ρ) (m : Hello) (s : HqcSession) (f : Finish) : Prop where
  sessionId : f.sessionId = m.sessionId
  role : f.role = 1
  tagLen : f.tagLen = 32
  tag : f.tag = finishTag P (handshakePrk P s.rx.ssE s.rx.ssS s.rx.salt m.sessionId) s.th
  rcvd : s.rx.pkeRcvd = s.rx.pkLen
  cteAcked : s.rx.cte.acked ≠ [] ∧ ∀ b ∈ s.rx.cte.acked, b = true
  ctsAcked : s.rx.cts.acked ≠ [] ∧ ∀ b ∈ s.rx.cts.acked, b = true

/-- The keys that a session holds are those of the key schedule of `prk`. -/
structure Keyed (P : Platform ρ) (prk : Bytes 32) (s : HqcSession) : Prop where
  kTx : s.kTx = hkdfExpandLabel P prk (ascii "key:tx") [] 16
  kRx : s.kRx = hkdfExpandLabel P prk (ascii "key:rx") [] 16
  ivTx : s.ivTx = hkdfExpandLabel P prk (ascii "iv:tx") [] 12
  ivRx : s.ivRx = hkdfExpandLabel P prk (ascii "iv:rx") [] 12
  kChachaTx : s.kChachaTx = hkdfExpandLabel P prk (ascii "chacha:key:tx") [] 32
  kChachaRx : s.kChachaRx = hkdfExpandLabel P prk (ascii "chacha:key:rx") [] 32

/-- An answer for one direction with the algorithm `alg` and the keys of the key
schedule of `prk`. -/
structure Releases (P : Platform ρ) (prk : Bytes 32) (alg : UInt8) (isTx : Bool)
    (a : CryptAnswer) : Prop where
  sel : a.alg = some alg
  key : alg = mavCryptAlgChacha20 ∧ a.key = (hkdfExpandLabel P prk
        (if isTx then ascii "chacha:key:tx" else ascii "chacha:key:rx") [] 32).toList ∨
      alg = mavCryptAlgAesctr128 ∧ a.key = (hkdfExpandLabel P prk
        (if isTx then ascii "key:tx" else ascii "key:rx") [] 16).toList
  iv : a.nonce.take 12 = (hkdfExpandLabel P prk
    (if isTx then ascii "iv:tx" else ascii "iv:rx") [] 12).toList

/-- The inputs `is` of a session contain, after their last `HELLO`, a `FINISH`
that authenticates the answer `a`. -/
def ReleasedBy (P : Platform ρ) (s₀ : HqcSession) (is : List (Input ρ)) (isTx : Bool)
    (a : CryptAnswer) : Prop :=
  ∃ as m e bs f e' cs, is = as ++ ⟨.hello m, e⟩ :: (bs ++ ⟨.finish f, e'⟩ :: cs) ∧
    (∀ i ∈ bs ++ cs, ¬ i.event.IsHello) ∧
    let s := (session P).final s₀ (as ++ ⟨.hello m, e⟩ :: bs)
    Authenticates P m s f ∧
      Releases P (handshakePrk P s.rx.ssE s.rx.ssS s.rx.salt m.sessionId) m.aeadOffer isTx a

theorem Keyed.releases {prk : Bytes 32} (h : Keyed P prk s) {isTx : Bool} {seq : UInt8}
    (ho : (mavlinkGetCryptConfig s isTx seq).ok = true) :
    Releases P prk s.aeadAlg isTx (mavlinkGetCryptConfig s isTx seq) := by
  have hiv : (if isTx then s.ivTx else s.ivRx) = hkdfExpandLabel P prk
      (if isTx then ascii "iv:tx" else ascii "iv:rx") [] 12 := by
    cases isTx
    · exact h.ivRx
    · exact h.ivTx
  obtain ⟨hs, ha | ha⟩ := mavlinkGetCryptConfig_ok.mp ho
  · have hk : (if isTx then s.kChachaTx else s.kChachaRx) = hkdfExpandLabel P prk
        (if isTx then ascii "chacha:key:tx" else ascii "chacha:key:rx") [] 32 := by
      cases isTx
      · exact h.kChachaRx
      · exact h.kChachaTx
    rw [mavlinkGetCryptConfig_chacha20 hs ha, ha, hk, hiv]
    refine ⟨rfl, .inl ⟨rfl, rfl⟩, ?_⟩
    exact List.take_of_length_le (by simp)
  · have hk : (if isTx then s.kTx else s.kRx) = hkdfExpandLabel P prk
        (if isTx then ascii "key:tx" else ascii "key:rx") [] 16 := by
      cases isTx
      · exact h.kRx
      · exact h.kTx
    rw [mavlinkGetCryptConfig_aesctr128 hs ha, ha, hk, hiv]
    refine ⟨rfl, .inr ⟨rfl, rfl⟩, ?_⟩
    exact List.take_left' (by simp)

theorem Keyed.transmit {prk : Bytes 32} (h : Keyed P prk s) (ht : Transmits s s') :
    Keyed P prk s' where
  kTx := (congrArg (fun t ↦ t.kTx) ht.core).trans h.kTx
  kRx := (congrArg (fun t ↦ t.kRx) ht.core).trans h.kRx
  ivTx := (congrArg (fun t ↦ t.ivTx) ht.core).trans h.ivTx
  ivRx := (congrArg (fun t ↦ t.ivRx) ht.core).trans h.ivRx
  kChachaTx := (congrArg (fun t ↦ t.kChachaTx) ht.core).trans h.kChachaTx
  kChachaRx := (congrArg (fun t ↦ t.kChachaRx) ht.core).trans h.kChachaRx

theorem Transmits.prk_eq (P : Platform ρ) (h : Transmits s s') : s'.prk P = s.prk P :=
  congrArg (fun t ↦ t.prk P) h.core

theorem activated_prk (P : Platform ρ) (s : HqcSession) (now : UInt32) (f : Finish) :
    ((s.noteRx now).activated P f).prk P = s.prk P := rfl

theorem activated_keyed (P : Platform ρ) (s : HqcSession) (now : UInt32) (f : Finish) :
    Keyed P (s.prk P) ((s.noteRx now).activated P f) := ⟨rfl, rfl, rfl, rfl, rfl, rfl⟩

theorem Open.authenticates (h : Open m s) {f : Finish} (ha : FinishAccepted P s f) :
    Authenticates P m s f where
  sessionId := ha.session.trans h.rx.sessionId
  role := ha.role
  tagLen := ha.tagLen
  tag := by rw [ha.tag, HqcSession.prk, h.rx.sessionId]
  rcvd := by
    have hk : s.rx.pkLen ≤ s.rx.pkeRcvd := h.rx.complete (CtStream.len_of_done ha.done.1)
    exact Nat.le_antisymm h.rx.fragments.rcvd_le hk
  cteAcked := CtStream.acked_of_done ha.done.1
  ctsAcked := CtStream.acked_of_done ha.done.2

/-- The inputs `is` of the handshake that `m` has opened contain a `FINISH` that
authenticates the keys which the session then holds. -/
def KeyedBy (P : Platform ρ) (m : Hello) (s : HqcSession) (is : List (Input ρ)) : Prop :=
  ∃ bs f e cs, is = bs ++ ⟨.finish f, e⟩ :: cs ∧
    let s₁ := (session P).final s bs
    Authenticates P m s₁ f ∧
      Keyed P (handshakePrk P s₁.rx.ssE s₁.rx.ssS s₁.rx.salt m.sessionId)
        ((session P).final s is) ∧
      ((session P).final s is).aeadAlg = m.aeadOffer

theorem KeyedBy.snoc {is : List (Input ρ)} (h : KeyedBy P m s is)
    (ht : Transmits ((session P).final s is) ((session P).final s (is ++ [i]))) :
    KeyedBy P m s (is ++ [i]) := by
  obtain ⟨bs, f, e, cs, rfl, ha, hk, hg⟩ := h
  refine ⟨bs, f, e, cs ++ [i], by simp, ha, hk.transmit ht, ht.alg_eq.trans hg⟩

theorem Open.state_ne_active (h : Open m s) : s.state ≠ .active := by
  intro ha
  rcases h.state with hs | ⟨hs, -⟩ | ⟨hs, -⟩
  · exact nomatch hs.symm.trans ha
  · exact nomatch hs.symm.trans ha
  · exact nomatch hs.symm.trans ha

theorem Open.activates {r : HqcSession × List Effect} (h : Open m s) (hm : Move P s i r)
    (ha : r.1.state = .active) : ∃ f, i.event = .finish f ∧ FinishAccepted P s f ∧
      r.1 = (s.noteRx (i.env.millis 0)).activated P f := by
  cases hm with
  | quiet s' fx ht hs hfx => exact absurd (hs.symm.trans ha) h.state_ne_active
  | acked s' fx ht hs hd hw hfx => exact nomatch hs.symm.trans ha
  | wiped s₀ s' fx ht hs hr hfx => exact nomatch hs.symm.trans ha
  | chunk c sid base mask hi hc hk => exact absurd ha h.state_ne_active
  | encap c sid base mask pke r hi hc hk hp hr =>
    have ho := h.afterChunk hc (i.env.millis 0)
    have hn : Open m r.1 := Open.keyCompletion ho.rx hk ho.alg hr
    exact absurd ha hn.state_ne_active
  | finished f hi hf => exact ⟨f, hi, hf, rfl⟩

theorem Open.keyedBy (h : Open m s) {is : List (Input ρ)} (hn : ∀ i ∈ is, ¬ i.event.IsHello)
    (ha : ((session P).final s is).state = .active) : KeyedBy P m s is := by
  induction is using List.reverseRecOn with
  | nil => exact absurd ha h.state_ne_active
  | append_singleton is i ih =>
    have hn' : ∀ i ∈ is, ¬ i.event.IsHello := fun j hj ↦ hn j (by simp [hj])
    have hp : Phase m ((session P).final s is) := Phase.run (.inr h) hn'
    have hm := handle_move (P := P) hp.sized (hn i (by simp))
    have he : (session P).final s (is ++ [i]) = (handle P ((session P).final s is) i).1 :=
      Machine.final_snoc ..
    rcases hp with hr | ho
    · -- at rest the keys are those of an earlier `FINISH`
      obtain ⟨ht, hs, -⟩ := hr.move hm
      rw [he, hs] at ha
      exact (ih hn' ha).snoc (he ▸ ht)
    · rw [he] at ha
      obtain ⟨f, hi, hf, hact⟩ := ho.activates hm ha
      have hauth := ho.authenticates hf
      have hprk : ((session P).final s is).prk P = handshakePrk P
          ((session P).final s is).rx.ssE ((session P).final s is).rx.ssS
          ((session P).final s is).rx.salt m.sessionId := by
        rw [HqcSession.prk, ho.rx.sessionId]
      refine ⟨is, f, i.env, [], by rw [← hi], hauth, ?_, ?_⟩
      · rw [he, hact, ← hprk]
        exact activated_keyed P _ _ f
      · rw [he, hact]
        exact ho.alg

/-- A session that is `ACTIVE` after a run has had a `HELLO`, and later a `FINISH`
that authenticates its keys. -/
theorem released_by (kChachaTx kChachaRx : Bytes 32) (is : List (Input ρ)) (isTx : Bool)
    (seq : UInt8) (h : (mavlinkGetCryptConfig ((session P).final (.fresh kChachaTx kChachaRx) is)
      isTx seq).ok = true) :
    ReleasedBy P (.fresh kChachaTx kChachaRx) is isTx
      (mavlinkGetCryptConfig ((session P).final (.fresh kChachaTx kChachaRx) is) isTx seq) := by
  have ha := (mavlinkGetCryptConfig_ok.mp h).1
  rcases exists_last_or (fun i : Input ρ ↦ i.event.IsHello) is with hn | ⟨as, i, bs, rfl, hi, hn⟩
  · -- without a `HELLO` the session stays in `IDLE`
    have hs := Resting.run (P := P) (fresh_resting kChachaTx kChachaRx) hn
    exact nomatch hs.2.symm.trans ha
  · obtain ⟨m, hm⟩ := hi.exists
    obtain ⟨_, e⟩ := i
    subst hm
    have hfin : (session P).final (.fresh kChachaTx kChachaRx) (as ++ ⟨.hello m, e⟩ :: bs) =
        (session P).final
          (handleHqcHello P e ((session P).final (.fresh kChachaTx kChachaRx) as) m).1 bs :=
      Machine.final_append ..
    rcases hello_phase P e ((session P).final (.fresh kChachaTx kChachaRx) as) m with
      ⟨hr, hs⟩ | ⟨ho, -⟩
    · have hs' := hr.run (P := P) hn
      rw [hfin, hs'.2, hs] at ha
      exact nomatch ha
    · rw [hfin] at ha
      obtain ⟨bs, f, e', cs, rfl, hauth, hk, hg⟩ := ho.keyedBy hn ha
      have hcut : (session P).final (.fresh kChachaTx kChachaRx) (as ++ ⟨.hello m, e⟩ :: bs) =
          (session P).final
            (handleHqcHello P e ((session P).final (.fresh kChachaTx kChachaRx) as) m).1 bs :=
        Machine.final_append ..
      refine ⟨as, m, e, bs, f, e', cs, rfl, fun i hi ↦ hn i ?_, ?_⟩
      · rcases List.mem_append.mp hi with hi | hi
        · exact List.mem_append_left _ hi
        · exact List.mem_append_right _ (List.mem_cons_of_mem _ hi)
      · rw [hcut]
        refine ⟨hauth, ?_⟩
        rw [hfin] at h ⊢
        rw [← hg]
        exact hk.releases h

end KemtlsMavlink
