import KemtlsMavlink.Session.Phase

namespace KemtlsMavlink

open Library

variable {ρ : Type} {P : Platform ρ} {s s' : HqcSession} {i : Input ρ} {kind : UInt8}

structure KemCall where
  kind : UInt8
  pk : Block
  ok : Bool

def Effect.kemCall : Effect → Option KemCall
  | .apKemEnc kind pk ok => some ⟨kind, pk, ok⟩
  | _ => none

def kemCall (fx : List Effect) : Option KemCall := fx.findSome? Effect.kemCall

theorem kemCall_append {fx fx' : List Effect} (h : ∀ o ∈ fx, o.kemCall = none) :
    kemCall (fx ++ fx') = kemCall fx' := by
  rw [kemCall, List.findSome?_append, List.findSome?_eq_none_iff.mpr h, Option.none_or, kemCall]

theorem kemCall_of_setup {o : Effect} (h : o.IsSetup) : o.kemCall = none := by
  cases o with
  | apKemEnc kind pk ok => exact h.elim
  | _ => rfl

def HqcRxBuf.secret (rx : HqcRxBuf) (kind : UInt8) : Bytes apKemBytes :=
  if kind = 0 then rx.ssE else rx.ssS

/-- Among the effects is a call of `ap_kem_enc` for a ciphertext of this kind
that has succeeded and returned `ss`. -/
def Encapsulates (P : Platform ρ) (rand : ρ) (fx : List Effect) (kind : UInt8)
    (ss : Bytes apKemBytes) : Prop :=
  ∃ pk ct, kemCall fx = some ⟨kind, pk, true⟩ ∧
    (P.apKemEnc (pk.read 0 apKemPublicKeyBytes) ct rand).ok = true ∧
    (P.apKemEnc (pk.read 0 apKemPublicKeyBytes) ct rand).ss = ss

/-- The secret of a ciphertext that is there after a step was there before it,
or has been returned in it. -/
def SecretStep (P : Platform ρ) (s : HqcSession) (rand : ρ) (kind : UInt8)
    (r : HqcSession × List Effect) : Prop :=
  (r.1.rx.stream kind).len ≠ 0 →
    (s.rx.stream kind).len ≠ 0 ∧ r.1.rx.secret kind = s.rx.secret kind ∨
      Encapsulates P rand r.2 kind (r.1.rx.secret kind)

theorem SecretStep.kept {rand : ρ} {r : HqcSession × List Effect}
    (hl : (r.1.rx.stream kind).len = (s.rx.stream kind).len)
    (hs : r.1.rx.secret kind = s.rx.secret kind) : SecretStep P s rand kind r := by
  intro hn
  exact .inl ⟨hl ▸ hn, hs⟩

theorem Transmits.stream_len (h : Transmits s s') (kind : UInt8) :
    (s'.rx.stream kind).len = (s.rx.stream kind).len := by
  obtain ⟨_, _, _, _, _, he⟩ := h.rx_eq
  rw [he]
  refine HqcRxBuf.stream_rel (R := fun a b ↦ a.len = b.len) ?_ ?_ kind <;> rfl

theorem Transmits.secret_eq (h : Transmits s s') (kind : UInt8) :
    s'.rx.secret kind = s.rx.secret kind := by
  obtain ⟨_, _, _, _, _, he⟩ := h.rx_eq
  rw [he]
  rfl

theorem stream_len_wipe (s : HqcSession) (kind : UInt8) : (s.wipe.rx.stream kind).len = 0 :=
  HqcRxBuf.forall_stream (Q := fun st ↦ st.len = 0) rfl rfl kind

theorem refuse_len (P : Platform ρ) (s : HqcSession) (r : Refusal) (kind : UInt8) :
    ((refuse P s r).1.rx.stream kind).len = (s.rx.stream kind).len := by
  unfold refuse
  cases r.status with
  | none => refine HqcRxBuf.stream_rel (R := fun a b ↦ a.len = b.len) ?_ ?_ kind <;> rfl
  | some status => refine HqcRxBuf.stream_rel (R := fun a b ↦ a.len = b.len) ?_ ?_ kind <;> rfl

theorem helloEncap_secret {e : Env ρ} {k : PdkKey} {fx : List Effect} (hk : kind = 0 ∨ kind = 1)
    (hl : ∀ kind, (s.rx.stream kind).len = 0) (hfx : ∀ o ∈ fx, o.kemCall = none) :
    ((helloEncap P e s k fx).1.rx.stream kind).len = 0 ∨
      Encapsulates P e.rand (helloEncap P e s k fx).2 kind
        ((helloEncap P e s k fx).1.rx.secret kind) := by
  unfold helloEncap
  cases e.mallocCts with
  | none => exact .inl ((refuse_len P s _ kind).trans (hl kind))
  | some init =>
    dsimp only
    split
    · exact .inl ((refuse_len P s _ kind).trans (hl kind))
    · rename_i hfail
      have hok := Bool.not_eq_false _ ▸ mt (congrArg Bool.not) hfail
      rcases hk with rfl | rfl
      · exact .inl (hl 0)
      · refine .inr ⟨k.pks, _, ?_, hok, rfl⟩
        rw [List.append_assoc, kemCall_append hfx, hok]
        rfl

theorem handleHqcHello_secret (P : Platform ρ) (e : Env ρ) (s : HqcSession) (m : Hello)
    (hk : kind = 0 ∨ kind = 1) : ((handleHqcHello P e s m).1.rx.stream kind).len = 0 ∨
      Encapsulates P e.rand (handleHqcHello P e s m).2 kind
        ((handleHqcHello P e s m).1.rx.secret kind) := by
  have hl : ∀ alg pke kind, ((helloSession P e s m alg pke).rx.stream kind).len = 0 :=
    fun _ _ ↦ HqcRxBuf.forall_stream (Q := fun st ↦ st.len = 0) rfl rfl
  have h := handleHqcHello_cases P e s m
  have hset := loadPks_setup P e m.sessionId
  generalize handleHqcHello P e s m = r at h ⊢
  cases h with
  | field alg status text hf => exact .inl ((refuse_len P _ _ kind).trans (hl _ _ kind))
  | noPke hf hp => exact .inl ((refuse_len P _ _ kind).trans (hl _ _ kind))
  | noKey init r hf hp hload => exact .inl ((refuse_len P _ _ kind).trans (hl _ _ kind))
  | encap init k fx hf hp hload =>
    rw [hload] at hset
    apply helloEncap_secret hk (hl _ _)
    refine List.forall_mem_append.mpr ⟨fun o ho ↦ kemCall_of_setup (hset o ho), ?_⟩
    exact List.forall_mem_singleton.mpr rfl

theorem keyCompletion_secret {e : Env ρ} {pke : Block} {r : HqcSession × List Effect}
    (hk : kind = 0 ∨ kind = 1) (h : KeyCompletion P e s pke r) : SecretStep P s e.rand kind r := by
  cases h with
  | noBuffer hb => exact .kept rfl rfl
  | failed ct hb ho =>
    rcases hk with rfl | rfl
    · exact .kept rfl rfl
    · exact .kept rfl rfl
  | done ct fx hb ho hfx =>
    rcases hk with rfl | rfl
    · exact fun _ ↦ .inr ⟨pke, _, rfl, ho, rfl⟩
    · exact .kept rfl rfl

theorem secret_afterChunk (rx : HqcRxBuf) (m : PkChunk) (kind : UInt8) :
    (rx.afterChunk m).secret kind = rx.secret kind := by
  obtain ⟨_, _, _, h⟩ := HqcRxBuf.afterChunk_eq rx m
  rw [h]
  rfl

theorem Move.secret {r : HqcSession × List Effect} (hk : kind = 0 ∨ kind = 1)
    (h : Move P s i r) : SecretStep P s i.env.rand kind r := by
  cases h with
  | quiet s' fx ht hs hfx => exact .kept (ht.stream_len kind) (ht.secret_eq kind)
  | acked s' fx ht hs hd hw hfx => exact .kept (ht.stream_len kind) (ht.secret_eq kind)
  | wiped s₀ s' fx ht hs hr hfx =>
    exact fun hn ↦ absurd ((ht.stream_len kind).trans (stream_len_wipe s₀ kind)) hn
  | chunk m sid base mask hi ha hc =>
    exact .kept (congrArg CtStream.len (HqcRxBuf.afterChunk_stream s.rx m kind))
      (secret_afterChunk s.rx m kind)
  | encap m sid base mask pke r hi ha hc hp hr =>
    intro hn
    have hnone : ∀ o ∈ (s.rx.storeFragment m).2 ++ [.pkAck sid base mask], o.kemCall = none :=
      HqcRxBuf.forall_stored_effect (Q := fun o ↦ o.kemCall = none) (fun _ _ ↦ rfl) rfl s.rx m
    rcases keyCompletion_secret hk hr hn with ⟨hl, hs⟩ | ⟨pk, ct, hcall, hok, hss⟩
    · left
      rw [HqcSession.setRx_rx] at hl hs
      rw [HqcRxBuf.afterChunk_stream] at hl
      exact ⟨hl, hs.trans (secret_afterChunk s.rx m kind)⟩
    · exact .inr ⟨pk, ct, (kemCall_append hnone).trans hcall, hok, hss⟩
  | finished m hi ha =>
    rcases hk with rfl | rfl
    · exact .kept rfl rfl
    · exact .kept rfl rfl

theorem secret_step (P : Platform ρ) (hz : s.rx.Sized) (hk : kind = 0 ∨ kind = 1) (i : Input ρ) :
    SecretStep P s i.env.rand kind (handle P s i) := by
  by_cases hi : i.event.IsHello
  · obtain ⟨m, he⟩ := hi.exists
    simp only [handle, he]
    exact fun hn ↦ .inr ((handleHqcHello_secret P i.env s m hk).resolve_left hn)
  · exact (handle_move hz hi).secret hk

end KemtlsMavlink
