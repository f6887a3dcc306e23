import KemtlsMavlink.Controller.SigningKeys

namespace KemtlsMavlink

open Library

variable {ρ : Type} {n : Nat} {P : Platform ρ} {fc : FlightController n}

/-- The two message ids that the generated MAVLink headers name. -/
structure MavlinkIds where
  radioStatus : UInt32
  radio : UInt32

def acceptList (ids : MavlinkIds) : List UInt32 := [ids.radioStatus, ids.radio]

def acceptUnsignedCallback (ids : MavlinkIds) (c : Fin n) (msgId : UInt32) : Bool :=
  if c.val = 0 then true
  else (acceptList ids).any (· = msgId)

/-- The frames of the handshake, from `HQC_HELLO` to `HQC_ABORT`. -/
def mavlinkIsCleartextMsg (msgid : UInt32) : Bool :=
  [61000, 61001, 61002, 61003, 61004, 61005, 61006, 61007].any (· = msgid)

/-- What the generated library does with an unsigned frame of a channel, given
the signing block that the status of the channel points at. -/
abbrev UnsignedPolicy (n : Nat) := Fin n → Option SigningBlock → UInt32 → Bool

/-- With signing set it asks the callback of the block. -/
def UnsignedPolicy.AsksCallback (ids : MavlinkIds) (policy : UnsignedPolicy n) : Prop :=
  ∀ c block msgId, policy c (some block) msgId = true ↔
    block.acceptUnsignedCallback = true ∧ acceptUnsignedCallback ids c msgId = true

def FlightController.signingOf (fc : FlightController n) (c : Fin n) : Option SigningBlock :=
  (fc.chan c).bind fun b ↦ b.channelStatus.signing.bind fun d ↦ (fc.chan d).map (·.signing)

def FlightController.admitsUnsigned (policy : UnsignedPolicy n) (fc : FlightController n)
    (c : Fin n) (msgId : UInt32) : Bool := policy c (fc.signingOf c) msgId

inductive GcsEvent (n : Nat) (ρ : Type)
  | controller (e : ControllerEvent n ρ)
  | setupSigning (c : Fin n) (m : SetupSigning) (io : StorageIo n)

def FlightController.gcsStep (P : Platform ρ) (fc : FlightController n) :
    GcsEvent n ρ → FlightController n × List (Fin n × Effect)
  | .controller e => fc.step P e
  | .setupSigning c m io => ((fc.handleSetupSigning m io).1,
      (fc.handleSetupSigning m io).2.map fun o ↦ (c, o))

def gcs (P : Platform ρ) (n : Nat) : Machine (FlightController n) (GcsEvent n ρ) (Fin n × Effect) :=
  ⟨FlightController.gcsStep P⟩

/-- A `SETUP_SIGNING` with neither a key nor a timestamp switches signing off. -/
def GcsEvent.KeepsSigningOn : GcsEvent n ρ → Prop
  | .controller _ => True
  | .setupSigning _ m _ => m.initialTimestamp ≠ 0 ∨ ∃ b ∈ m.secretKey.toList, b ≠ 0

/-- Every channel with a backend points at its own block, and the block at the callback. -/
def FlightController.SigningOn (fc : FlightController n) : Prop :=
  ∀ c b, fc.chan c = some b →
    b.channelStatus.signing = some c ∧ b.signing.acceptUnsignedCallback = true

theorem FlightController.SigningOn.signingOf (h : fc.SigningOn) {c : Fin n} {b : Backend n}
    (hb : fc.chan c = some b) : fc.signingOf c = some b.signing := by
  simp [FlightController.signingOf, hb, (h c b hb).1]

theorem FlightController.SigningOn.of_signed {fc' : FlightController n} (h : fc.SigningOn)
    (hs : ∀ c, fc'.signed c = fc.signed c) : fc'.SigningOn := by
  intro c b hb
  have hc := hs c
  rw [FlightController.signed, hb, Option.map_some] at hc
  obtain ⟨b', hb', he⟩ := Option.map_eq_some_iff.mp hc.symm
  obtain ⟨hsig, hst⟩ := Prod.mk.inj he
  have h' := h c b' hb'
  exact ⟨hst ▸ h'.1, hsig ▸ h'.2⟩

theorem step_signingOn {c : Fin n} {s : HqcSession} {f : Finish} (h : Activation P fc c s f)
    (env : Env ρ) : (fc.step P (.receive c ⟨.finish f, env⟩)).1.SigningOn := by
  intro d b' hb'
  obtain ⟨b₀, rfl⟩ := FlightController.step_activation_chan h env hb'
  exact ⟨rfl, rfl⟩

theorem FlightController.SigningOn.controllerStep (h : fc.SigningOn) (hs : fc.Settled)
    (e : ControllerEvent n ρ) : (fc.step P e).1.SigningOn := by
  by_cases hk : KeepsSigning P fc e
  · exact h.of_signed (FlightController.step_signed hs hk)
  · unfold KeepsSigning at hk
    push Not at hk
    obtain ⟨c, f, env, s, rfl, ha⟩ := hk
    exact step_signingOn ha env

theorem Backend.loadSigningKey_signingOn {st : SigningStorage} {io : StorageIo n} {i : Fin n}
    {b : Backend n} (hst : st.key.timestamp ≠ 0 ∨ ∃ x ∈ st.key.secretKey.toList, x ≠ 0)
    (h : b.channelStatus.signing = some i ∧ b.signing.acceptUnsignedCallback = true) :
    (b.loadSigningKey st io i).channelStatus.signing = some i ∧
      (b.loadSigningKey st io i).signing.acceptUnsignedCallback = true := by
  unfold Backend.loadSigningKey
  split
  · exact h
  · unfold signingKeyLoad
    split_ifs
    · exact h
    · exact h
    · exact h
    · refine ⟨?_, rfl⟩
      dsimp only
      rw [if_neg]
      simp only [Bool.and_eq_true, decide_eq_true_eq, List.all_eq_true, not_and, not_forall]
      intro hz
      obtain ⟨x, hx, hne⟩ := hst.resolve_left (not_not.mpr hz)
      exact ⟨x, hx, by simpa using hne⟩

theorem signingKeySave_key {st : SigningStorage} {io : StorageIo n} {key : SigningKey}
    (h : (signingKeySave st io key).1 = true) : (signingKeySave st io key).2.key = key := by
  unfold signingKeySave at h ⊢
  split_ifs at h ⊢
  rfl

theorem FlightController.SigningOn.setupSigning (h : fc.SigningOn) {m : SetupSigning}
    (io : StorageIo n) (hm : m.initialTimestamp ≠ 0 ∨ ∃ x ∈ m.secretKey.toList, x ≠ 0) :
    (fc.handleSetupSigning m io).1.SigningOn := by
  unfold FlightController.handleSetupSigning
  dsimp only
  split_ifs with ha hs
  · exact h
  · exact h
  · intro c b hb
    obtain ⟨b₀, hb₀, rfl⟩ := Option.map_eq_some_iff.mp hb
    have hkey := signingKeySave_key (by simpa using hs)
    split_ifs
    · apply Backend.loadSigningKey_signingOn _ (h c b₀ hb₀)
      rw [hkey]
      exact hm
    · exact h c b₀ hb₀

theorem Backend.loadSigningKey_hqc (st : SigningStorage) (io : StorageIo n) (i : Fin n)
    (b : Backend n) : (b.loadSigningKey st io i).hqc = b.hqc := by
  unfold Backend.loadSigningKey
  split
  · rfl
  · split
    · rfl
    · rfl

theorem FlightController.handleSetupSigning_session (m : SetupSigning) (io : StorageIo n)
    (d : Fin n) : (fc.handleSetupSigning m io).1.session d = fc.session d := by
  unfold FlightController.handleSetupSigning
  dsimp only
  split_ifs
  · rfl
  · rfl
  · unfold FlightController.session
    dsimp only
    rw [Option.map_map]
    congr 1
    funext b
    dsimp only [Function.comp_apply]
    split_ifs
    · exact Backend.loadSigningKey_hqc _ _ _ b
    · rfl

theorem FlightController.Settled.gcsStep (h : fc.Settled) (e : GcsEvent n ρ) :
    (fc.gcsStep P e).1.Settled := by
  cases e with
  | controller e => exact h.step e
  | setupSigning c m io =>
    intro d s hs
    exact h d s ((FlightController.handleSetupSigning_session m io d).symm.trans hs)

theorem FlightController.SigningOn.gcsStep (h : fc.SigningOn) (hs : fc.Settled)
    {e : GcsEvent n ρ} (he : e.KeepsSigningOn) : (fc.gcsStep P e).1.SigningOn := by
  cases e with
  | controller e => exact h.controllerStep hs e
  | setupSigning c m io => exact h.setupSigning io he

/-- From an activation on, and until signing is switched off, every channel with
a backend has signing on. -/
theorem signingOn_run (hf : fc.Fresh) {as bs : List (GcsEvent n ρ)} {c : Fin n} {f : Finish}
    {s : HqcSession} (ha : Activation P ((gcs P n).final fc as) c s f) (env : Env ρ)
    (hk : ∀ e ∈ bs, e.KeepsSigningOn) :
    ((gcs P n).final fc
      (as ++ .controller (.receive c ⟨.finish f, env⟩) :: bs)).SigningOn := by
  have hs : ((gcs P n).final fc as).Settled :=
    Machine.invariant (M := gcs P n) (I := FlightController.Settled) (fun _ e h ↦ h.gcsStep e)
      hf.settled as
  have hg : (gcs P n).Guarded (fun _ e ↦ e.KeepsSigningOn)
      ((gcs P n).step ((gcs P n).final fc as) (.controller (.receive c ⟨.finish f, env⟩))).1 bs :=
    Machine.guarded_of_forall fun e he _ ↦ hk e he
  rw [Machine.final_append, Machine.final_cons]
  refine (hg.invariant (I := fun fc ↦ fc.Settled ∧ fc.SigningOn) ?_ ⟨?_, ?_⟩).2
  · intro fc e ⟨hs, hon⟩ he
    exact ⟨hs.gcsStep e, hon.gcsStep hs he⟩
  · exact hs.gcsStep _
  · exact step_signingOn ha env

theorem acceptUnsignedCallback_zero (ids : MavlinkIds) {c : Fin n} (hc : c.val = 0)
    (msgId : UInt32) : acceptUnsignedCallback ids c msgId = true := if_pos hc

theorem acceptUnsignedCallback_iff (ids : MavlinkIds) {c : Fin n} (hc : c.val ≠ 0)
    (msgId : UInt32) : acceptUnsignedCallback ids c msgId = true ↔
      msgId = ids.radioStatus ∨ msgId = ids.radio := by
  rw [acceptUnsignedCallback, if_neg hc]
  simp [acceptList, @eq_comm _ msgId]

/-- An admission that follows the design of the handshake. -/
def AdmittedByDesign (ids : MavlinkIds) (msgId : UInt32) : Prop :=
  msgId = ids.radioStatus ∨ msgId = ids.radio ∨ mavlinkIsCleartextMsg msgId = true

theorem admitsUnsigned_iff {ids : MavlinkIds} {policy : UnsignedPolicy n}
    (hlib : policy.AsksCallback ids) (h : fc.SigningOn) {d : Fin n} {b : Backend n}
    (hb : fc.chan d = some b) (msgId : UInt32) :
    fc.admitsUnsigned policy d msgId = true ↔ acceptUnsignedCallback ids d msgId = true := by
  rw [FlightController.admitsUnsigned, h.signingOf hb, hlib]
  exact and_iff_right (h d b hb).2

/-- After an activation, channel 0 admits every unsigned frame; the other channels
admit, apart from the frames of the handshake, those of the two radio messages. -/
theorem unsigned_admission (P : Platform ρ) {ids : MavlinkIds} {policy : UnsignedPolicy n}
    (hlib : policy.AsksCallback ids) (hf : fc.Fresh) {as bs : List (GcsEvent n ρ)} {c : Fin n}
    {f : Finish} {s : HqcSession} (ha : Activation P ((gcs P n).final fc as) c s f)
    (env : Env ρ) (hk : ∀ e ∈ bs, e.KeepsSigningOn) {d : Fin n} {b : Backend n}
    (hb : ((gcs P n).final fc
      (as ++ .controller (.receive c ⟨.finish f, env⟩) :: bs)).chan d = some b)
    (msgId : UInt32) :
    (d.val = 0 → ((gcs P n).final fc
        (as ++ .controller (.receive c ⟨.finish f, env⟩) :: bs)).admitsUnsigned policy d msgId =
          true) ∧
      (d.val ≠ 0 → mavlinkIsCleartextMsg msgId = false →
        (((gcs P n).final fc
          (as ++ .controller (.receive c ⟨.finish f, env⟩) :: bs)).admitsUnsigned policy d msgId =
            true ↔ msgId = ids.radioStatus ∨ msgId = ids.radio)) := by
  have hadm := admitsUnsigned_iff hlib (signingOn_run hf ha env hk) hb msgId
  constructor
  · intro hd
    exact hadm.mpr (acceptUnsignedCallback_zero ids hd msgId)
  · intro hd _
    exact hadm.trans (acceptUnsignedCallback_iff ids hd msgId)

theorem gcs_final_controller (P : Platform ρ) (fc : FlightController n)
    (es : List (ControllerEvent n ρ)) :
    (gcs P n).final fc (es.map .controller) = (controller P n).final fc es := by
  induction es generalizing fc with
  | nil => rfl
  | cons e es ih => exact ih (fc.step P e).1

def sampleIds : MavlinkIds := ⟨109, 166⟩

def samplePolicy : UnsignedPolicy n
  | _, none, _ => true
  | c, some block, msgId =>
    block.acceptUnsignedCallback && acceptUnsignedCallback sampleIds c msgId

theorem samplePolicy_asksCallback : (samplePolicy (n := n)).AsksCallback sampleIds :=
  fun _ _ _ ↦ Bool.and_eq_true_iff

def sampleWait (c : Fin n) : List (GcsEvent n UInt8) :=
  ((sampleHandshake 1).map (.receive c)).map .controller

def sampleSigned (c : Fin n) : FlightController n :=
  (gcs samplePlatform n).final (sampleController n)
    (sampleWait c ++ [.controller (.receive c ⟨.finish (sampleFinish 1), sampleEnv 4 0⟩)])

theorem sampleWait_activation (c : Fin n) :
    Activation samplePlatform ((gcs samplePlatform n).final (sampleController n) (sampleWait c)) c
      (sampleWaiting 1) (sampleFinish 1) where
  session := by
    rw [sampleWait, gcs_final_controller, FlightController.final_session,
      sampleController_session, Option.map_some, filterMap_inputOf_receive, if_pos rfl,
      sampleWaiting]
  accepted := sampleFinish_accepted (by decide)
  disarmed := by
    rw [sampleWait, gcs_final_controller, FlightController.final_receive_softArmed]
    rfl

theorem sampleSigned_signingOn (c : Fin n) : (sampleSigned c).SigningOn := by
  have hk : ∀ e ∈ ([] : List (GcsEvent n UInt8)), e.KeepsSigningOn := List.forall_mem_nil _
  exact signingOn_run sampleController_fresh (sampleWait_activation c) _ hk

theorem sampleSigned_chan (c d : Fin n) : ∃ b, (sampleSigned c).chan d = some b := by
  have hs : ((sampleSigned c).session d).isSome := by
    rw [sampleSigned, sampleWait, ← List.map_singleton, ← List.map_append, gcs_final_controller,
      FlightController.final_session, sampleController_session]
    rfl
  rw [FlightController.session, Option.isSome_map] at hs
  exact Option.isSome_iff_exists.mp hs

theorem unsigned_admission_sample :
    (sampleSigned (0 : Fin 2)).admitsUnsigned samplePolicy 0 76 = true ∧
      ¬ (sampleSigned (0 : Fin 2)).admitsUnsigned samplePolicy 1 76 = true := by
  obtain ⟨b₀, hb₀⟩ := sampleSigned_chan (0 : Fin 2) 0
  obtain ⟨b₁, hb₁⟩ := sampleSigned_chan (0 : Fin 2) 1
  have hk : ∀ e ∈ ([] : List (GcsEvent 2 UInt8)), e.KeepsSigningOn := List.forall_mem_nil _
  rw [sampleSigned] at hb₀ hb₁ ⊢
  have h₀ := unsigned_admission samplePlatform samplePolicy_asksCallback sampleController_fresh
    (sampleWait_activation 0) (sampleEnv 4 0) hk hb₀ 76
  have h₁ := unsigned_admission samplePlatform samplePolicy_asksCallback sampleController_fresh
    (sampleWait_activation 0) (sampleEnv 4 0) hk hb₁ 76
  refine ⟨h₀.1 rfl, fun h ↦ ?_⟩
  exact absurd ((h₁.2 (by decide) (by decide)).mp h) (by decide)

/-- After the handshake channel 0 admits an unsigned command, and channel 1 does
not admit an unsigned `HELLO`. -/
theorem unsigned_admission_off_design :
    ¬ ((sampleSigned (0 : Fin 2)).admitsUnsigned samplePolicy 0 76 = true ↔
        AdmittedByDesign sampleIds 76) ∧
      ¬ ((sampleSigned (0 : Fin 2)).admitsUnsigned samplePolicy 1 61000 = true ↔
        AdmittedByDesign sampleIds 61000) := by
  obtain ⟨b₀, hb₀⟩ := sampleSigned_chan (0 : Fin 2) 0
  obtain ⟨b₁, hb₁⟩ := sampleSigned_chan (0 : Fin 2) 1
  have h₀ := admitsUnsigned_iff samplePolicy_asksCallback (sampleSigned_signingOn 0) hb₀ 76
  have h₁ := admitsUnsigned_iff samplePolicy_asksCallback (sampleSigned_signingOn 0) hb₁ 61000
  rw [h₀, h₁]
  unfold AdmittedByDesign
  decide

end KemtlsMavlink
