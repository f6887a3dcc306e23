import KemtlsMavlink.Controller.KeyRelease

namespace KemtlsMavlink

open Library

variable {ρ : Type} {n : Nat} {P : Platform ρ} {fc : FlightController n}

def Effect.EnablesSigning : Effect → Prop
  | .enableSigningWithKey _ => True
  | _ => False

theorem Sends.not_enables {s : HqcSession} {fx : List Effect} (h : Sends s fx) :
    ∀ o ∈ fx, ¬ o.EnablesSigning := by
  refine h.forall_effect (fun o hn he ↦ ?_) fun _ _ _ _ ↦ id
  cases o with
  | enableSigningWithKey key => exact hn
  | _ => exact he

theorem hello_not_enables (P : Platform ρ) (e : Env ρ) (s : HqcSession) (m : Hello) :
    ∀ o ∈ (handleHqcHello P e s m).2, ¬ o.EnablesSigning := by
  have heff : ∀ o, HelloEffect P e s m o → ¬ o.EnablesSigning := by
    intro o ho he
    rcases ho with ho | ⟨k, fx, ok, -, -, rfl⟩
    · cases o with
      | enableSigningWithKey key => exact ho
      | _ => exact he
    · exact he
  exact (handleHqcHello_spec P e s m).forall_effect heff fun _ _ ↦ id

theorem Settled.enables {s : HqcSession} {i : Input ρ} (h : Settled s) :
    (∀ o ∈ (handle P s i).2, ¬ o.EnablesSigning) ∨
      ∃ f, i.event = .finish f ∧ FinishAccepted P s f := by
  by_cases hi : i.event.IsHello
  · obtain ⟨m, he⟩ := hi.exists
    simp only [handle, he]
    exact .inl (hello_not_enables P i.env s m)
  · have hm := handle_move (P := P) h.sized hi
    generalize handle P s i = r at hm ⊢
    have hstore : ∀ (c : PkChunk) (sid : UInt64) (base : Nat) (mask : UInt32),
        ∀ o ∈ (s.rx.storeFragment c).2 ++ [.pkAck sid base mask], ¬ o.EnablesSigning :=
      fun c _ _ _ ↦ HqcRxBuf.forall_stored_effect (fun _ _ ↦ id) id s.rx c
    cases hm with
    | quiet s' fx ht hs hfx => exact .inl hfx.not_enables
    | acked s' fx ht hs hd hw hfx => exact .inl hfx.not_enables
    | wiped s₀ s' fx ht hs hr hfx => exact .inl hfx.not_enables
    | chunk c sid base mask he ha hk => exact .inl (hstore c sid base mask)
    | encap c sid base mask pke r he ha hk hp hr =>
      have hkey := hr.forall_effect (Q := fun o ↦ ¬ o.EnablesSigning) id (fun _ ↦ id) fun _ ↦ id
      exact .inl (List.forall_mem_append.mpr ⟨hstore c sid base mask, hkey⟩)
    | finished f he ha => exact .inr ⟨f, he, ha⟩

/-- A `FINISH` that the session `s` of channel `c` accepts while the vehicle is
disarmed. -/
structure Activation (P : Platform ρ) (fc : FlightController n) (c : Fin n) (s : HqcSession)
    (f : Finish) : Prop where
  session : fc.session c = some s
  accepted : FinishAccepted P s f
  disarmed : fc.softArmed = false

def KeepsSigning (P : Platform ρ) (fc : FlightController n) (e : ControllerEvent n ρ) : Prop :=
  ∀ c f env s, e = .receive c ⟨.finish f, env⟩ → ¬ Activation P fc c s f

def KeepsSession (P : Platform ρ) (c : Fin n) (fc : FlightController n)
    (e : ControllerEvent n ρ) : Prop :=
  ∀ f env s, e = .receive c ⟨.finish f, env⟩ → fc.session c = some s → ¬ FinishAccepted P s f

/-- The status of channel `c` points at its own signing block, which holds `key`. -/
structure Backend.SignsWith (c : Fin n) (key : Bytes 32) (b : Backend n) : Prop where
  status : b.channelStatus.signing = some c
  secretKey : b.signing.secretKey = key

namespace FlightController

def signed (fc : FlightController n) (c : Fin n) : Option (SigningBlock × ChannelStatus n) :=
  (fc.chan c).map fun b ↦ (b.signing, b.channelStatus)

def AllSignWith (key : Bytes 32) (fc : FlightController n) : Prop :=
  ∀ c b, fc.chan c = some b → b.SignsWith c key

theorem AllSignWith.of_signed {fc' : FlightController n} {key : Bytes 32}
    (h : fc.AllSignWith key) (hs : ∀ c, fc'.signed c = fc.signed c) : fc'.AllSignWith key := by
  intro c b hb
  have hc := hs c
  rw [signed, hb, Option.map_some] at hc
  obtain ⟨b', hb', he⟩ := Option.map_eq_some_iff.mp hc.symm
  obtain ⟨hsig, hst⟩ := Prod.mk.inj he
  have h' := h c b' hb'
  exact ⟨hst ▸ h'.status, hsig ▸ h'.secretKey⟩

theorem setSession_signed {c : Fin n} {b : Backend n} (hb : fc.chan c = some b) (s : HqcSession)
    (d : Fin n) : (fc.setSession c b s).signed d = fc.signed d := by
  unfold signed setSession
  by_cases h : d = c
  · subst h
    simp [hb]
  · simp [h]

theorem performer_of_not_enables (c : Fin n) {fx : List Effect}
    (h : ∀ o ∈ fx, ¬ o.EnablesSigning) : (performer c).final fc fx = fc := by
  induction fx with
  | nil => rfl
  | cons o fx ih =>
    obtain ⟨ho, hfx⟩ := List.forall_mem_cons.mp h
    have hstep : (fc.perform c o).1 = fc := by
      cases o with
      | enableSigningWithKey key => exact absurd trivial ho
      | _ => rfl
    rw [Machine.final_cons]
    exact (congrArg (fun fc ↦ (performer c).final fc fx) hstep).trans (ih hfx)

theorem performer_finish (c : Fin n) (key : Bytes 32) (sid : UInt64) (value : Nat)
    (status : KexStatus) (detail : UInt8) :
    (performer c).final fc [.enableSigningWithKey key, .hqcStatus sid value status detail] =
      (fc.enableSigningWithKey c key 0 none).fc := rfl

theorem step_activation_chan {c d : Fin n} {s : HqcSession} {f : Finish}
    (h : Activation P fc c s f) (env : Env ρ) {b' : Backend n}
    (hb' : (fc.step P (.receive c ⟨.finish f, env⟩)).1.chan d = some b') :
    ∃ b₀, b' = Backend.activateSigning (signKey P s.rx.ssE s.rx.ssS s.rx.salt s.rx.sessionId)
      0 d b₀ := by
  obtain ⟨b, hb, rfl⟩ := Option.map_eq_some_iff.mp h.session
  have hh : handle P b.hqc ⟨.finish f, env⟩ = _ := handleHqcFinish_accepted env h.accepted
  have hd : (fc.setSession c b ((b.hqc.noteRx (env.millis 0)).activated P f)).softArmed = false :=
    h.disarmed
  rw [step_receive_some hb, hh, performer_finish, enableSigningWithKey_disarmed hd] at hb'
  obtain ⟨b₀, -, rfl⟩ := Option.map_eq_some_iff.mp hb'
  exact ⟨b₀, rfl⟩

theorem step_activation {c : Fin n} {s : HqcSession} {f : Finish} (h : Activation P fc c s f)
    (env : Env ρ) : (fc.step P (.receive c ⟨.finish f, env⟩)).1.AllSignWith
      (signKey P s.rx.ssE s.rx.ssS s.rx.salt s.rx.sessionId) := by
  intro d b' hb'
  obtain ⟨b₀, rfl⟩ := step_activation_chan h env hb'
  exact ⟨rfl, rfl⟩

theorem step_activation_session {c : Fin n} {s : HqcSession} {f : Finish}
    (h : Activation P fc c s f) (env : Env ρ) :
    (fc.step P (.receive c ⟨.finish f, env⟩)).1.session c =
      some ((s.noteRx (env.millis 0)).activated P f) := by
  have hin : (ControllerEvent.receive c ⟨.finish f, env⟩ : ControllerEvent n ρ).inputOf c =
      some ⟨.finish f, env⟩ := if_pos rfl
  rw [step_session, h.session, hin, Option.map_some]
  exact congrArg (fun r ↦ some r.1) (handleHqcFinish_accepted env h.accepted)

theorem step_signed {e : ControllerEvent n ρ} (hs : ∀ c s, fc.session c = some s → Settled s)
    (hk : KeepsSigning P fc e) (d : Fin n) : (fc.step P e).1.signed d = fc.signed d := by
  cases e with
  | setArmed armed => rfl
  | receive c i =>
    cases hb : fc.chan c with
    | none => rw [step_receive_none hb]
    | some b =>
      have hc : fc.session c = some b.hqc := by rw [session, hb, Option.map_some]
      rw [step_receive_some hb]
      rcases (hs c b.hqc hc).enables (P := P) (i := i) with hq | ⟨f, hi, hf⟩
      · rw [performer_of_not_enables c hq]
        exact setSession_signed hb _ d
      · obtain ⟨_, env⟩ := i
        subst hi
        have hh : handle P b.hqc ⟨.finish f, env⟩ = _ := handleHqcFinish_accepted env hf
        have ha : (fc.setSession c b
            ((b.hqc.noteRx (env.millis 0)).activated P f)).softArmed = true := by
          by_contra hn
          exact hk c f env b.hqc rfl ⟨hc, hf, Bool.not_eq_true _ ▸ hn⟩
        rw [hh, performer_finish, enableSigningWithKey_armed ha]
        exact setSession_signed hb _ d

def Settled (fc : FlightController n) : Prop :=
  ∀ c s, fc.session c = some s → KemtlsMavlink.Settled s

theorem Fresh.settled (h : fc.Fresh) : fc.Settled := by
  intro c s hs
  obtain ⟨b, hb, rfl⟩ := Option.map_eq_some_iff.mp hs
  obtain ⟨kTx, kRx, hk⟩ := h c b hb
  rw [hk]
  exact fresh_settled kTx kRx

theorem Settled.run (h : fc.Settled) (es : List (ControllerEvent n ρ)) :
    ((controller P n).final fc es).Settled := by
  intro c s hs
  rw [final_session] at hs
  obtain ⟨s₀, hs₀, rfl⟩ := Option.map_eq_some_iff.mp hs
  exact (h c s₀ hs₀).run _

theorem Settled.step (h : fc.Settled) (e : ControllerEvent n ρ) : (fc.step P e).1.Settled :=
  Settled.run (P := P) h [e]

theorem final_activation {es : List (ControllerEvent n ρ)} {c : Fin n} {s : HqcSession} {f : Finish}
    (h : Activation P ((controller P n).final fc es) c s f) (env : Env ρ) :
    ((controller P n).final fc (es ++ [.receive c ⟨.finish f, env⟩])).AllSignWith
      (signKey P s.rx.ssE s.rx.ssS s.rx.salt s.rx.sessionId) := by
  rw [Machine.final_snoc]
  exact step_activation h env

theorem AllSignWith.run {key : Bytes 32} (h : fc.AllSignWith key) (hs : fc.Settled)
    {es : List (ControllerEvent n ρ)} (hg : (controller P n).Guarded (KeepsSigning P) fc es) :
    ((controller P n).final fc es).AllSignWith key := by
  refine (hg.invariant (I := fun fc ↦ fc.Settled ∧ fc.AllSignWith key) ?_ ⟨hs, h⟩).2
  intro fc e ⟨hs, ha⟩ hk
  exact ⟨hs.step e, ha.of_signed (step_signed hs hk)⟩

end FlightController

theorem Settled.active_step {s : HqcSession} {i : Input ρ} (h : Settled s)
    (hn : ∀ f, i.event = .finish f → ¬ FinishAccepted P s f)
    (ha : (handle P s i).1.state = .active) :
    s.state = .active ∧ (handle P s i).1.prk P = s.prk P := by
  by_cases hi : i.event.IsHello
  · obtain ⟨m, he⟩ := hi.exists
    simp only [handle, he] at ha
    rcases hello_phase P i.env s m with ⟨-, hs⟩ | ⟨-, hs⟩
    · cases hs.symm.trans ha
    · cases hs.symm.trans ha
  · have hm := handle_move (P := P) h.sized hi
    rcases h with hr | ⟨m, ho⟩
    · obtain ⟨ht, hs, -⟩ := hr.move hm
      exact ⟨hs.symm.trans ha, ht.prk_eq P⟩
    · obtain ⟨f, he, hf, -⟩ := ho.activates hm ha
      exact absurd hf (hn f he)

theorem signKey_eq (P : Platform ρ) (s : HqcSession) :
    signKey P s.rx.ssE s.rx.ssS s.rx.salt s.rx.sessionId =
      hkdfExpandLabel P (s.prk P) (ascii "sign") [] 32 := rfl

/-- If the session of channel `c` is `ACTIVE`, it has the secrets of `prk`. -/
def FlightController.ActiveWith (P : Platform ρ) (c : Fin n) (prk : Bytes 32)
    (fc : FlightController n) : Prop :=
  ∀ s, fc.session c = some s → s.state = .active → s.prk P = prk

theorem FlightController.ActiveWith.step {c : Fin n} {prk : Bytes 32} (h : fc.ActiveWith P c prk)
    (hs : fc.Settled) {e : ControllerEvent n ρ} (hk : KeepsSession P c fc e) :
    (fc.step P e).1.ActiveWith P c prk := by
  intro s' hs' ha
  rw [step_session] at hs'
  obtain ⟨s, hsc, rfl⟩ := Option.map_eq_some_iff.mp hs'
  cases he : e.inputOf c with
  | none =>
    simp only [he] at ha ⊢
    exact h s hsc ha
  | some i =>
    simp only [he] at ha ⊢
    have hn : ∀ f, i.event = .finish f → ¬ FinishAccepted P s f := by
      intro f hi hf
      obtain ⟨_, env⟩ := i
      subst hi
      exact hk f env s (ControllerEvent.eq_receive he) hsc hf
    obtain ⟨ha', hp⟩ := (hs c s hsc).active_step hn ha
    exact hp.trans (h s hsc ha')

theorem FlightController.ActiveWith.run {c : Fin n} {prk : Bytes 32} (h : fc.ActiveWith P c prk)
    (hs : fc.Settled) {es : List (ControllerEvent n ρ)}
    (hg : (controller P n).Guarded (KeepsSession P c) fc es) :
    ((controller P n).final fc es).ActiveWith P c prk := by
  refine (hg.invariant (I := fun fc ↦ fc.Settled ∧ fc.ActiveWith P c prk) ?_ ⟨hs, h⟩).2
  intro fc e ⟨hs, ha⟩ hk
  exact ⟨hs.step e, ha.step hs hk⟩

/-- After a `FINISH` is accepted on channel `c` while the vehicle is disarmed, and
until the next such `FINISH`, all channels sign with the key of that handshake.
This is the key of the session of `c` as long as it stays `ACTIVE` and accepts no
other `FINISH`. -/
theorem signing_key_of_last_activation (P : Platform ρ) (hf : fc.Fresh)
    {as bs : List (ControllerEvent n ρ)} {c : Fin n} {f : Finish} {env : Env ρ} {s : HqcSession}
    (ha : Activation P ((controller P n).final fc as) c s f)
    (hk : (controller P n).Guarded (KeepsSigning P)
      ((controller P n).final fc (as ++ [.receive c ⟨.finish f, env⟩])) bs) :
    ((controller P n).final fc (as ++ [.receive c ⟨.finish f, env⟩] ++ bs)).AllSignWith
        (signKey P s.rx.ssE s.rx.ssS s.rx.salt s.rx.sessionId) ∧
      ((controller P n).Guarded (KeepsSession P c)
          ((controller P n).final fc (as ++ [.receive c ⟨.finish f, env⟩])) bs →
        ∀ b, ((controller P n).final fc
            (as ++ [.receive c ⟨.finish f, env⟩] ++ bs)).chan c = some b →
          b.hqc.state = .active →
            b.SignsWith c
              (signKey P b.hqc.rx.ssE b.hqc.rx.ssS b.hqc.rx.salt b.hqc.rx.sessionId)) := by
  have hs : ((controller P n).final fc (as ++ [.receive c ⟨.finish f, env⟩])).Settled :=
    hf.settled.run _
  have hall := FlightController.final_activation ha env
  have hown : ((controller P n).final fc (as ++ [.receive c ⟨.finish f, env⟩])).ActiveWith P c
      (s.prk P) := by
    intro s' hs' _
    rw [Machine.final_snoc] at hs'
    have he := hs'.symm.trans (FlightController.step_activation_session ha env)
    rw [Option.some.inj he]
    exact activated_prk P s _ f
  rw [Machine.final_append]
  refine ⟨hall.run hs hk, fun hk' b hb hact ↦ ?_⟩
  have hb' := hall.run hs hk c b hb
  have hp : b.hqc.prk P = s.prk P :=
    hown.run hs hk' b.hqc (by rw [FlightController.session, hb, Option.map_some]) hact
  refine ⟨hb'.status, hb'.secretKey.trans ?_⟩
  rw [signKey_eq, signKey_eq, hp]

def sampleTwoRuns : List (ControllerEvent 2 UInt8) :=
  sampleRun 1 0 ++ (sampleHandshake 3).map (.receive 1)

theorem sampleTwoRuns_activation :
    Activation samplePlatform ((controller samplePlatform 2).final (sampleController 2)
      sampleTwoRuns) 1 (sampleWaiting 3) (sampleFinish 3) where
  session := by
    rw [FlightController.final_session, sampleController_session, Option.map_some, sampleTwoRuns,
      List.filterMap_append, sampleRun, filterMap_inputOf_receive, filterMap_inputOf_receive,
      if_neg (by decide), if_pos rfl, List.nil_append, sampleWaiting]
  accepted := sampleFinish_accepted (by decide)
  disarmed := by
    rw [sampleTwoRuns, Machine.final_append, FlightController.final_receive_softArmed, sampleRun,
      FlightController.final_receive_softArmed]
    rfl

theorem setArmed_session (fc : FlightController n) (armed : Bool) (c : Fin n) :
    ((controller P n).step fc (.setArmed armed)).1.session c = fc.session c := rfl

theorem guarded_setArmed {Q : FlightController n → ControllerEvent n ρ → Prop}
    (hq : ∀ fc armed, Q fc (.setArmed armed)) (fc : FlightController n) (armed : Bool) :
    (controller P n).Guarded Q fc [.setArmed armed] := ⟨hq fc armed, trivial⟩

theorem signing_key_of_last_activation_sample :
    ((controller samplePlatform 2).final (sampleController 2) (sampleTwoRuns ++
        [.receive 1 ⟨.finish (sampleFinish 3), sampleEnv 4 0⟩] ++ [.setArmed true])).AllSignWith
      (signKey samplePlatform (sampleWaiting 3).rx.ssE (sampleWaiting 3).rx.ssS
        (sampleWaiting 3).rx.salt (sampleWaiting 3).rx.sessionId) ∧
    ∃ b, ((controller samplePlatform 2).final (sampleController 2) (sampleTwoRuns ++
        [.receive 1 ⟨.finish (sampleFinish 3), sampleEnv 4 0⟩] ++ [.setArmed true])).chan 1 =
          some b ∧ b.hqc.state = .active ∧
      b.SignsWith 1
        (signKey samplePlatform b.hqc.rx.ssE b.hqc.rx.ssS b.hqc.rx.salt b.hqc.rx.sessionId) := by
  obtain ⟨hall, hown⟩ := signing_key_of_last_activation samplePlatform sampleController_fresh
    sampleTwoRuns_activation (guarded_setArmed (fun _ _ _ _ _ _ he ↦ nomatch he) _ true)
  have hsession : ((controller samplePlatform 2).final (sampleController 2) (sampleTwoRuns ++
      [.receive 1 ⟨.finish (sampleFinish 3), sampleEnv 4 0⟩] ++ [.setArmed true])).session 1 =
        some (((sampleWaiting 3).noteRx 4).activated samplePlatform (sampleFinish 3)) := by
    have hstep := FlightController.step_activation_session sampleTwoRuns_activation (sampleEnv 4 0)
    rw [Machine.final_snoc, setArmed_session, Machine.final_snoc]
    exact hstep
  obtain ⟨b, hb, hhqc⟩ := Option.map_eq_some_iff.mp hsession
  have hactive : b.hqc.state = .active := by
    rw [hhqc, activated_state]
  exact ⟨hall, b, hb, hactive,
    hown (guarded_setArmed (fun _ _ _ _ _ he ↦ nomatch he) _ true) b hb hactive⟩

/-- Every channel whose session is `ACTIVE` signs with the key of this session. -/
def FlightController.OwnSigningKeys (P : Platform ρ) (fc : FlightController n) : Prop :=
  ∀ c b, fc.chan c = some b → b.hqc.state = .active →
    b.SignsWith c (signKey P b.hqc.rx.ssE b.hqc.rx.ssS b.hqc.rx.salt b.hqc.rx.sessionId)

theorem FlightController.OwnSigningKeys.signsWith (h : fc.OwnSigningKeys P) {c : Fin n}
    {s : HqcSession} (hs : fc.session c = some s) (ha : s.state = .active) :
    ∃ b, fc.chan c = some b ∧
      b.SignsWith c (hkdfExpandLabel P (s.prk P) (ascii "sign") [] 32) := by
  obtain ⟨b, hb, rfl⟩ := Option.map_eq_some_iff.mp hs
  exact ⟨b, hb, h c b hb ha⟩

theorem FlightController.armed_run (hs : fc.Settled) (ha : fc.softArmed = true) (c d : Fin n)
    (is : List (Input ρ)) :
    ((controller P n).final fc (is.map (.receive c))).signed d = fc.signed d := by
  induction is generalizing fc with
  | nil => rfl
  | cons i is ih =>
    have hk : KeepsSigning P fc (.receive c i) := by
      intro c' f env s _ hact
      exact nomatch ha.symm.trans hact.disarmed
    have hstep : (fc.step P (.receive c i)).1.signed d = fc.signed d := step_signed hs hk d
    exact (ih (hs.step _) ((step_receive_softArmed c i).trans ha)).trans hstep

theorem sampleRun_armed {c : Fin n} (hf : fc.Fresh) (ha : fc.softArmed = true)
    (hs : fc.session c = some (.fresh (Bytes.zeros 32) (Bytes.zeros 32)))
    (hn : ∀ b, fc.chan c = some b → b.channelStatus.signing = none) :
    ¬ ((controller samplePlatform n).final fc (sampleRun 1 c)).OwnSigningKeys samplePlatform := by
  intro h
  obtain ⟨b, hb, hsw⟩ := h.signsWith (sampleRun_session hs) (sampleActive_state 1)
  have hsig :=
    FlightController.armed_run (P := samplePlatform) hf.settled ha c c (sampleActivation 1)
  obtain ⟨b₀, hb₀, -⟩ := Option.map_eq_some_iff.mp hs
  rw [FlightController.signed, FlightController.signed, ← sampleRun, hb, hb₀, Option.map_some,
    Option.map_some] at hsig
  have hst : b.channelStatus = b₀.channelStatus := (Prod.mk.inj (Option.some.inj hsig)).2
  have hnone := hn b₀ hb₀
  rw [← hst, hsw.status] at hnone
  cases hnone

theorem sampleTwoRuns_session (i : Input UInt8) :
    ((controller samplePlatform 2).final (sampleController 2)
      (sampleTwoRuns ++ [.receive 1 i])).session 0 = some (sampleActive 1) := by
  have hi : (ControllerEvent.receive 1 i : ControllerEvent 2 UInt8).inputOf 0 = none := by
    simp [ControllerEvent.inputOf]
  rw [FlightController.final_session, sampleController_session, Option.map_some, sampleTwoRuns,
    List.filterMap_append, List.filterMap_append, List.filterMap_cons_none hi, sampleRun,
    filterMap_inputOf_receive, filterMap_inputOf_receive, if_pos rfl, if_neg (by decide),
    List.filterMap_nil, List.append_nil, List.append_nil, sampleActive_eq (by decide)]

theorem sampleWaiting_signKey_ne :
    hkdfExpandLabel samplePlatform ((sampleWaiting 1).prk samplePlatform) (ascii "sign") [] 32 ≠
      hkdfExpandLabel samplePlatform ((sampleWaiting 3).prk samplePlatform) (ascii "sign") []
        32 := by
  decide +kernel

/-- A handshake that ends while the vehicle is armed leaves its channel without a
signing key, and one that ends on channel 1 takes that of channel 0 away. -/
theorem signing_keys_are_shared :
    ¬ ((controller samplePlatform 1).final (sampleController 1)
        (.setArmed true :: sampleRun 1 0)).OwnSigningKeys samplePlatform ∧
      ¬ ((controller samplePlatform 2).final (sampleController 2)
        (sampleTwoRuns ++ [.receive 1 ⟨.finish (sampleFinish 3), sampleEnv 4 0⟩])).OwnSigningKeys
          samplePlatform := by
  constructor
  · rw [Machine.final_cons]
    exact sampleRun_armed sampleController_fresh rfl (sampleController_session 0)
      fun b hb ↦ Option.some.inj hb ▸ rfl
  · intro h
    have hs := sampleTwoRuns_session ⟨.finish (sampleFinish 3), sampleEnv 4 0⟩
    obtain ⟨b, hb, hsw⟩ := h.signsWith hs (sampleActive_state 1)
    have hall := FlightController.final_activation sampleTwoRuns_activation (sampleEnv 4 0)
    have hkey := hsw.secretKey.symm.trans (hall 0 b hb).secretKey
    rw [signKey_eq, sampleActive, activated_prk] at hkey
    exact sampleWaiting_signKey_ne hkey

end KemtlsMavlink
