import KemtlsMavlink.Session.Phase
import KemtlsMavlink.Session.Sample

namespace KemtlsMavlink

open Library

variable {ρ : Type} {P : Platform ρ} {m : Hello} {s : HqcSession} {i : Input ρ}

/-- Byte `j` of `rx.pke` is among those that the effect stores there. -/
def Effect.copies (j : Nat) : Effect → Bool
  | .pkeCopy off data => off ≤ j && j < off + data.length
  | _ => false

def Copied (fx : List Effect) (j : Nat) : Prop := fx.any (Effect.copies j) = true

instance (fx : List Effect) (j : Nat) : Decidable (Copied fx j) :=
  inferInstanceAs (Decidable (_ = _))

theorem copied_append {fx fx' : List Effect} {j : Nat} :
    Copied (fx ++ fx') j ↔ Copied fx j ∨ Copied fx' j := by
  simp [Copied]

theorem not_copied_of_forall {fx : List Effect} {j : Nat} (h : ∀ o ∈ fx, o.copies j = false) :
    ¬ Copied fx j := by
  intro hc
  obtain ⟨o, ho, hj⟩ := List.any_eq_true.mp hc
  exact Bool.false_ne_true ((h o ho).symm.trans hj)

theorem Sends.not_copied {fx : List Effect} (h : Sends s fx) (j : Nat) : ¬ Copied fx j := by
  refine not_copied_of_forall (h.forall_effect (fun o hn ↦ ?_) fun _ _ _ _ ↦ rfl)
  cases o with
  | pkeCopy off data => exact hn.elim
  | _ => rfl

structure SameKey (rx rx' : HqcRxBuf) : Prop where
  pkLen : rx'.pkLen = rx.pkLen
  mtu : rx'.mtu = rx.mtu
  pkeAcked : rx'.pkeAcked = rx.pkeAcked
  pkeRcvd : rx'.pkeRcvd = rx.pkeRcvd

theorem SameKey.received {rx rx' : HqcRxBuf} (h : SameKey rx rx') (j : Nat) :
    rx'.Received j ↔ rx.Received j := by
  rw [HqcRxBuf.Received, h.pkeAcked, HqcRxBuf.Received]

theorem SameKey.fragments {rx rx' : HqcRxBuf} (h : SameKey rx rx') (hf : rx.Fragments) :
    rx'.Fragments := by
  refine ⟨h.mtu ▸ hf.mtu_pos, ?_, ?_, fun i hi ↦ (h.received i).mpr (hf.received i ?_)⟩
  · rw [HqcRxBuf.pkChunks, h.pkeAcked, h.pkLen, h.mtu]
    exact hf.length
  · rw [h.pkeRcvd, h.pkLen]
    exact hf.rcvd_le
  · rwa [h.mtu, h.pkeRcvd] at hi

/-- What a step does to the key: nothing, but that it may free the buffer; a
wipe; or an accepted chunk. -/
inductive KeyMove (s : HqcSession) (i : Input ρ) (r : HqcSession × List Effect) : Prop
  | same (hk : SameKey s.rx r.1.rx) (hp : r.1.rx.pke = s.rx.pke ∨ r.1.rx.pke = none)
      (hc : ∀ j, ¬ Copied r.2 j)
  | wiped (hr : r.1.rx.pkLen = 0 ∧ r.1.rx.mtu = 220 ∧ r.1.rx.pkeAcked = [] ∧ r.1.rx.pkeRcvd = 0)
      (hp : r.1.rx.pke = none)
  | chunk (c : PkChunk) (hi : i.event = .pkChunk c) (ha : ChunkAccepted s.rx c)
      (hk : SameKey (s.rx.afterChunk c) r.1.rx) (hp : r.1.rx.pke = (s.rx.afterChunk c).pke)
      (hc : ∀ j, Copied r.2 j ↔ Copied (s.rx.storeFragment c).2 j)

theorem KeyCompletion.sameKey {e : Env ρ} {pke : Block} {r : HqcSession × List Effect}
    (h : KeyCompletion P e s pke r) :
    SameKey s.rx r.1.rx ∧ r.1.rx.pke = s.rx.pke ∧ ∀ j, ¬ Copied r.2 j := by
  have hc : ∀ j, ¬ Copied r.2 j := fun j ↦ not_copied_of_forall
    (h.forall_effect (Q := fun o ↦ o.copies j = false) rfl (fun _ ↦ rfl) fun _ ↦ rfl)
  cases h with
  | noBuffer hb => exact ⟨⟨rfl, rfl, rfl, rfl⟩, rfl, hc⟩
  | failed ct hb ho => exact ⟨⟨rfl, rfl, rfl, rfl⟩, rfl, hc⟩
  | done ct fx hb ho hfx => exact ⟨⟨rfl, rfl, rfl, rfl⟩, rfl, hc⟩

theorem Transmits.sameKey {s' : HqcSession} (h : Transmits s s') :
    SameKey s.rx s'.rx ∧ s'.rx.pke = s.rx.pke := by
  obtain ⟨r, a, b, c, d, he⟩ := h.rx_eq
  rw [he]
  exact ⟨⟨rfl, rfl, rfl, rfl⟩, rfl⟩

/-- A chunk that passes the checks is stored, whatever follows. -/
theorem accepted_chunk {c : PkChunk} (hi : i.event = .pkChunk c) (ha : ChunkAccepted s.rx c) :
    SameKey (s.rx.afterChunk c) (handle P s i).1.rx ∧
      (handle P s i).1.rx.pke = (s.rx.afterChunk c).pke ∧
      ∀ j, Copied (handle P s i).2 j ↔ Copied (s.rx.storeFragment c).2 j := by
  have h := handleHqcPkChunk_spec P i.env s c
  simp only [handle, hi]
  generalize handleHqcPkChunk P i.env s c = r at h ⊢
  cases h with
  | refused value status detail he => cases he.symm.trans (pkChunkError_eq_none.mpr ha)
  | stored sid base mask he hk =>
    refine ⟨⟨rfl, rfl, rfl, rfl⟩, rfl, fun j ↦ ?_⟩
    rw [copied_append]
    exact or_iff_left Bool.false_ne_true
  | complete sid base mask pke r he hk hp hr =>
    obtain ⟨hk, hp, hc⟩ := hr.sameKey
    refine ⟨hk, hp, fun j ↦ ?_⟩
    rw [copied_append, or_iff_left (hc j), copied_append]
    exact or_iff_left Bool.false_ne_true

theorem handle_keyMove (hz : s.rx.Sized) (hn : ¬ i.event.IsHello) : KeyMove s i (handle P s i) := by
  have hm := handle_move (P := P) hz hn
  generalize hr : handle P s i = r at hm ⊢
  cases hm with
  | quiet s' fx ht hs hfx => exact .same ht.sameKey.1 (.inl ht.sameKey.2) hfx.not_copied
  | acked s' fx ht hs hd hw hfx => exact .same ht.sameKey.1 (.inl ht.sameKey.2) hfx.not_copied
  | wiped s₀ s' fx ht hs hr hfx =>
    obtain ⟨hk, hp⟩ := ht.sameKey
    exact .wiped ⟨hk.pkLen, hk.mtu, hk.pkeAcked, hk.pkeRcvd⟩ hp
  | chunk c sid base mask hi ha hk =>
    obtain ⟨hk, hp, hc⟩ := accepted_chunk (P := P) hi ha
    rw [hr] at hk hp hc
    exact .chunk c hi ha hk hp hc
  | encap c sid base mask pke r hi ha hk hp hc =>
    obtain ⟨hk, hp, hc⟩ := accepted_chunk (P := P) hi ha
    rw [hr] at hk hp hc
    exact .chunk c hi ha hk hp hc
  | finished f hi ha => exact .same ⟨rfl, rfl, rfl, rfl⟩ (.inr rfl) fun j ↦ Bool.false_ne_true

theorem copied_storeFragment {rx : HqcRxBuf} {c : PkChunk} (hc : c.count.toNat ≤ 220) (j : Nat) :
    Copied (rx.storeFragment c).2 j ↔ ¬ rx.Received (rx.fragIdx c) ∧
      c.offset.toNat ≤ j ∧ j < c.offset.toNat + c.count.toNat := by
  by_cases h : rx.Received (rx.fragIdx c)
  · rw [HqcRxBuf.storeFragment_of_received h]
    exact ⟨fun hj ↦ absurd hj Bool.false_ne_true, fun hj ↦ absurd h hj.1⟩
  · rw [HqcRxBuf.storeFragment_of_not_received h]
    have hl : (c.data.toList.take c.count.toNat).length = c.count.toNat := by
      rw [List.length_take, Vector.length_toList]
      exact Nat.min_eq_left hc
    simp [Copied, Effect.copies, h, hl]

theorem div_eq_iff_mem {mtu : Nat} (hm : 0 < mtu) (i j : Nat) :
    j / mtu = i ↔ i * mtu ≤ j ∧ j < (i + 1) * mtu := by
  constructor
  · rintro rfl
    exact ⟨Nat.div_mul_le_self j mtu, (Nat.div_lt_iff_lt_mul hm).mp (Nat.lt_succ_self _)⟩
  · intro ⟨hl, hu⟩
    have hle : i ≤ j / mtu := (Nat.le_div_iff_mul_le hm).mpr hl
    have hlt : j / mtu < i + 1 := (Nat.div_lt_iff_lt_mul hm).mpr hu
    omega

def PkChunk.Covers (c : PkChunk) (rx : HqcRxBuf) : Prop :=
  c.offset.toNat = rx.fragIdx c * rx.mtu ∧
    c.offset.toNat + c.count.toNat = min ((rx.fragIdx c + 1) * rx.mtu) rx.pkLen

instance (c : PkChunk) (rx : HqcRxBuf) : Decidable (c.Covers rx) :=
  inferInstanceAs (Decidable (_ ∧ _))

def PkChunk.Brings (c : PkChunk) (rx : HqcRxBuf) (n : Nat) : Prop :=
  ∀ j < n, j / rx.mtu = rx.fragIdx c → c.offset.toNat ≤ j ∧ j < c.offset.toNat + c.count.toNat

theorem covers_iff {rx : HqcRxBuf} {c : PkChunk} (h : rx.Fragments) (ha : ChunkAccepted rx c) :
    c.Covers rx ↔ c.Brings rx rx.pkLen := by
  have hm := h.mtu_pos
  obtain ⟨hl, hu⟩ := (div_eq_iff_mem hm (rx.fragIdx c) c.offset.toNat).mp rfl
  have hf := (HqcRxBuf.lt_pkChunks_iff h _).mp ha.frag_lt
  have hend := ha.end_le
  have hcount := ha.count_le
  have hpos := ha.count_pos
  have hsucc := Nat.add_one_mul (rx.fragIdx c) rx.mtu
  unfold PkChunk.Covers
  constructor
  · intro ⟨ho, he⟩ j hj hi
    have hmem := (div_eq_iff_mem hm _ _).mp hi
    omega
  · intro hcov
    have hfirst := hcov (rx.fragIdx c * rx.mtu) hf ((div_eq_iff_mem hm _ _).mpr (by omega))
    have hlast := hcov (min ((rx.fragIdx c + 1) * rx.mtu) rx.pkLen - 1) (by omega)
      ((div_eq_iff_mem hm _ _).mpr (by omega))
    omega

/-- Every accepted chunk that marks a fragment brings the whole of it. -/
def CoversFragment (s : HqcSession) (i : Input ρ) : Prop :=
  match i.event with
  | .pkChunk c => pkChunkError s.rx c = none → ¬ s.rx.Received (s.rx.fragIdx c) → c.Covers s.rx
  | _ => True

/-- Every byte of a fragment that is marked, and of a key that is complete, has
been copied out of some chunk. -/
structure Reassembled (s : HqcSession) (fx : List Effect) : Prop where
  fragment : ∀ i, s.rx.Received i → ∀ j, i * s.rx.mtu ≤ j →
    j < min ((i + 1) * s.rx.mtu) s.rx.pkLen → Copied fx j
  whole : s.rx.pkLen ≤ s.rx.pkeRcvd → ∀ j < s.rx.pkLen, Copied fx j

/-- The invariant of a reassembly out of whole fragments: while the buffer is
there, the bytes copied are those of the marked fragments. -/
structure Filled (m : Hello) (s : HqcSession) (fx : List Effect) : Prop where
  phase : Phase m s
  fragments : s.rx.Fragments
  mtu : s.rx.mtu = 220
  copied : ∀ j < s.rx.pkLen, s.rx.Received (j / s.rx.mtu) → Copied fx j
  received : s.rx.pke.isSome → ∀ j, Copied fx j → s.rx.Received (j / s.rx.mtu)

theorem Filled.reassembled {fx : List Effect} (h : Filled m s fx) : Reassembled s fx := by
  have hm := h.fragments.mtu_pos
  refine ⟨fun i hi j hl hu ↦ h.copied j (by omega) ?_, fun hk j hj ↦ h.copied j hj ?_⟩
  · rwa [(div_eq_iff_mem hm i j).mpr (by omega)]
  · exact h.fragments.received _ (Nat.lt_of_le_of_lt (Nat.div_mul_le_self j _) (by omega))

theorem hello_pkeAcked (P : Platform ρ) (e : Env ρ) (s : HqcSession) (m : Hello) :
    (handleHqcHello P e s m).1.rx.pkeAcked = [] := by
  have h := handleHqcHello_spec P e s m
  generalize handleHqcHello P e s m = r at h ⊢
  cases h <;> rfl

theorem hello_filled {e : Env ρ} (ha : (handleHqcHello P e s m).1.state = .ctTx) :
    Filled m (handleHqcHello P e s m).1 [] := by
  rcases hello_phase P e s m with ⟨-, hs⟩ | ⟨ho, -⟩
  · exact nomatch ha.symm.trans hs
  · refine ⟨.inr ho, ho.rx.fragments, ho.rx.mtu, fun j _ hr ↦ ?_, fun _ j hc ↦ ?_⟩
    · rw [HqcRxBuf.Received, hello_pkeAcked] at hr
      exact absurd hr (by simp)
    · exact absurd hc (by simp [Copied])

theorem Filled.same {r : HqcSession × List Effect} {fx : List Effect} (h : Filled m s fx)
    (hph : Phase m r.1) (hk : SameKey s.rx r.1.rx)
    (hp : r.1.rx.pke = s.rx.pke ∨ r.1.rx.pke = none) (hc : ∀ j, ¬ Copied r.2 j) :
    Filled m r.1 (fx ++ r.2) := by
  have hcop : ∀ j, Copied (fx ++ r.2) j ↔ Copied fx j := fun j ↦
    copied_append.trans (or_iff_left (hc j))
  refine ⟨hph, hk.fragments h.fragments, hk.mtu.trans h.mtu, fun j hj hr ↦ ?_, fun hs j hj ↦ ?_⟩
  · rw [hk.received, hk.mtu] at hr
    exact (hcop j).mpr (h.copied j (hk.pkLen ▸ hj) hr)
  · rw [hk.received, hk.mtu]
    have hsome : s.rx.pke.isSome := by
      rcases hp with hp | hp
      · exact hp ▸ hs
      · rw [hp] at hs
        exact nomatch hs
    exact h.received hsome j ((hcop j).mp hj)

theorem Filled.chunk {r : HqcSession × List Effect} {fx : List Effect} {c : PkChunk}
    (h : Filled m s fx) (hph : Phase m r.1) (ha : ChunkAccepted s.rx c)
    (hk : SameKey (s.rx.afterChunk c) r.1.rx)
    (hcov : ¬ s.rx.Received (s.rx.fragIdx c) → c.Covers s.rx)
    (hc : ∀ j, Copied r.2 j ↔ Copied (s.rx.storeFragment c).2 j) :
    Filled m r.1 (fx ++ r.2) := by
  have hrec : ∀ i, r.1.rx.Received i ↔ i = s.rx.fragIdx c ∨ s.rx.Received i := fun i ↦
    (hk.received i).trans (HqcRxBuf.received_afterChunk h.fragments ha i)
  have hcop : ∀ j, Copied (fx ++ r.2) j ↔ Copied fx j ∨ ¬ s.rx.Received (s.rx.fragIdx c) ∧
      c.offset.toNat ≤ j ∧ j < c.offset.toNat + c.count.toNat := fun j ↦ by
    rw [copied_append, hc, copied_storeFragment (h.mtu ▸ ha.count_le)]
  have hlen : r.1.rx.pkLen = s.rx.pkLen := hk.pkLen.trans (HqcRxBuf.afterChunk_pkLen _ _)
  have hmtu : r.1.rx.mtu = s.rx.mtu := hk.mtu.trans (HqcRxBuf.afterChunk_mtu _ _)
  refine ⟨hph, hk.fragments (h.fragments.afterChunk ha), hmtu.trans h.mtu, ?_, ?_⟩
  · intro j hj hr
    rw [hmtu, hrec] at hr
    rw [hlen] at hj
    rw [hcop]
    by_cases hold : s.rx.Received (j / s.rx.mtu)
    · exact .inl (h.copied j hj hold)
    · have hi : j / s.rx.mtu = s.rx.fragIdx c := hr.resolve_right hold
      rw [hi] at hold
      exact .inr ⟨hold, (covers_iff h.fragments ha).mp (hcov hold) j hj hi⟩
  · intro _ j hj
    rw [hmtu, hrec]
    rcases (hcop j).mp hj with hj | ⟨hnew, hl, hu⟩
    · exact .inr (h.received ha.pke j hj)
    · obtain ⟨ho, he⟩ := hcov hnew
      exact .inl ((div_eq_iff_mem h.fragments.mtu_pos _ _).mpr (by omega))

theorem Filled.step {fx : List Effect} (h : Filled m s fx) (hi : ¬ i.event.IsHello)
    (hcov : CoversFragment s i) : Filled m (handle P s i).1 (fx ++ (handle P s i).2) := by
  have hph := h.phase.step (P := P) hi
  cases handle_keyMove (P := P) h.phase.sized hi with
  | same hk hp hc => exact h.same hph hk hp hc
  | wiped hr hp =>
    obtain ⟨hl, hm, ha, hn⟩ := hr
    refine ⟨hph, ⟨hm ▸ by decide, .inl ha, by rw [hn]; exact Nat.zero_le _, ?_⟩, hm, ?_, ?_⟩
    · exact fun i hi ↦ absurd hi (by rw [hn]; exact Nat.not_lt_zero _)
    · exact fun j hj ↦ absurd hj (by rw [hl]; exact Nat.not_lt_zero _)
    · exact fun hs ↦ nomatch hp ▸ hs
  | chunk c he ha hk hp hc =>
    unfold CoversFragment at hcov
    rw [he] at hcov
    exact h.chunk hph ha hk (hcov (pkChunkError_eq_none.mpr ha)) hc

theorem Filled.covers {fx : List Effect} (h : Filled m s fx)
    (hre : Reassembled (handle P s i).1 (fx ++ (handle P s i).2)) : CoversFragment s i := by
  unfold CoversFragment
  cases he : i.event with
  | pkChunk c =>
    intro hok hnew
    have hacc := pkChunkError_eq_none.mp hok
    obtain ⟨hk, -, hc⟩ := accepted_chunk (P := P) he hacc
    have hm := h.fragments.mtu_pos
    apply (covers_iff h.fragments hacc).mpr
    intro j hj hf
    obtain ⟨hl, hu⟩ := (div_eq_iff_mem hm _ _).mp hf
    have hcop := hre.fragment (s.rx.fragIdx c)
      ((hk.received _).mpr ((HqcRxBuf.received_afterChunk h.fragments hacc _).mpr (.inl rfl))) j
    rw [hk.mtu, hk.pkLen, HqcRxBuf.afterChunk_mtu, HqcRxBuf.afterChunk_pkLen, copied_append, hc,
      copied_storeFragment (h.mtu ▸ hacc.count_le)] at hcop
    -- the bytes copied before lie in fragments that were marked before
    rcases hcop hl (by omega) with hold | ⟨-, hnow⟩
    · exact absurd (hf ▸ h.received hacc.pke j hold) hnew
    · exact hnow
  | _ => trivial

/-- Reassembly is complete exactly along the runs in which every chunk that
marks a fragment brings the whole of it. -/
theorem reassembled_iff (P : Platform ρ) (e : Env ρ) (s : HqcSession) (m : Hello)
    (is : List (Input ρ)) (ha : (handleHqcHello P e s m).1.state = .ctTx)
    (hn : ∀ i ∈ is, ¬ i.event.IsHello) :
    (session P).Always Reassembled (handleHqcHello P e s m).1 is ↔
      (session P).Guarded CoversFragment (handleHqcHello P e s m).1 is :=
  Machine.always_iff_guarded (J := Filled m) (fun _ _ h ↦ h.reassembled)
    (fun _ _ _ h hi hc ↦ h.step hi hc) (fun _ _ _ h _ hre ↦ h.covers hre) (hello_filled ha) hn

theorem reassembled_two_bytes :
    (session samplePlatform).Always Reassembled (sampleSession 2)
      [⟨.pkChunk (sampleChunk 0 2), sampleEnv 1 2⟩] :=
  (reassembled_iff samplePlatform (sampleEnv 0 1) _ (sampleHello 2) _ (by decide +kernel)
    (by decide)).mpr ⟨by unfold CoversFragment; decide +kernel, trivial⟩

/-- One byte of a key of two bytes marks the only fragment, and the key is taken
for complete. -/
theorem short_chunk_leaves_a_gap :
    (sampleSession 2).state = .ctTx ∧
      ¬ (session samplePlatform).Always Reassembled (sampleSession 2)
        [⟨.pkChunk (sampleChunk 0 1), sampleEnv 1 2⟩] := by
  refine ⟨by decide +kernel, fun h ↦ ?_⟩
  have hc := (h [⟨.pkChunk (sampleChunk 0 1), sampleEnv 1 2⟩] [] rfl).fragment 0
    (by decide +kernel) 1 (by decide +kernel) (by decide +kernel)
  exact absurd hc (by decide +kernel)

end KemtlsMavlink
