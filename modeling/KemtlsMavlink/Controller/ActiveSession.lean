import KemtlsMavlink.Controller.SigningKeys

namespace KemtlsMavlink

open Library

variable {ρ : Type} {n : Nat} {P : Platform ρ} {fc : FlightController n} {s s' : HqcSession}

/-- What protects the traffic of a session: its keys and IVs, the secret and the
transcript they belong to, and the algorithm. -/
structure SameKeys (s s' : HqcSession) : Prop where
  th : s'.th = s.th
  ms : s'.ms = s.ms
  kTx : s'.kTx = s.kTx
  kRx : s'.kRx = s.kRx
  ivTx : s'.ivTx = s.ivTx
  ivRx : s'.ivRx = s.ivRx
  kChachaTx : s'.kChachaTx = s.kChachaTx
  kChachaRx : s'.kChachaRx = s.kChachaRx
  aeadAlg : s'.aeadAlg = s.aeadAlg

theorem sameKeys_noteRx (s : HqcSession) (now : UInt32) : SameKeys s (s.noteRx now) :=
  ⟨rfl, rfl, rfl, rfl, rfl, rfl, rfl, rfl, rfl⟩

/-- An event that is no concern of the sessions on other channels, and no `HELLO`. -/
def ControllerEvent.QuietFor (c : Fin n) : ControllerEvent n ρ → Prop
  | .receive d i => d = c ∧ ¬ i.event.IsHello
  | .setArmed _ => True

def Effect.IsChunkOrAbort : Effect → Prop
  | .ctChunk _ | .hqcAbort .. => True
  | _ => False

/-- The session of channel `c` is `s`, up to the time of its last message, and
the signing state of every channel is that of `fc₀`. -/
structure Unmoved (c : Fin n) (s : HqcSession) (fc₀ fc : FlightController n) : Prop where
  session : ∃ now, fc.session c = some (s.noteRx now)
  signed : ∀ d, fc.signed d = fc₀.signed d

theorem Unmoved.refl {c : Fin n} (h : fc.session c = some s) : Unmoved c s fc fc :=
  ⟨⟨s.tLastRx, h⟩, fun _ ↦ rfl⟩

theorem Settled.resting (h : Settled s) (ha : s.state = .active) : Resting s := by
  rcases h with h | ⟨m, h⟩
  · exact h
  · rcases h.state with hs | ⟨hs, -⟩ | ⟨hs, -⟩ <;> exact nomatch ha.symm.trans hs

namespace FlightController

theorem performer_outputs (c : Fin n) {fx : List Effect} (h : ∀ o ∈ fx, ¬ o.EnablesSigning) :
    (performer c).outputs fc fx = fx := by
  induction fx generalizing fc with
  | nil => rfl
  | cons o fx ih =>
    obtain ⟨ho, hfx⟩ := List.forall_mem_cons.mp h
    have hstep : (fc.perform c o).2 = [o] := by
      cases o with
      | enableSigningWithKey key => exact absurd trivial ho
      | _ => rfl
    rw [Machine.outputs_cons, ih hfx]
    exact congrArg (· ++ fx) hstep

theorem step_receive_outputs {c : Fin n} {b : Backend n} (hb : fc.chan c = some b) {i : Input ρ}
    (h : ∀ o ∈ (handle P b.hqc i).2, ¬ o.EnablesSigning) :
    (fc.step P (.receive c i)).2 = (handle P b.hqc i).2.map fun o ↦ (c, o) := by
  simp only [step, hb, performer_outputs c h]

end FlightController

theorem Resting.signed_step (h : Resting s) {c : Fin n} {i : Input ρ} (hi : ¬ i.event.IsHello)
    (hs : fc.session c = some s) (d : Fin n) :
    (fc.step P (.receive c i)).1.signed d = fc.signed d := by
  obtain ⟨b, hb, rfl⟩ := Option.map_eq_some_iff.mp hs
  have hn : ∀ o ∈ (handle P b.hqc i).2, ¬ o.EnablesSigning := by
    intro o ho
    obtain ⟨_, _, _, _, rfl⟩ := (h.quiet hi).2 o ho
    exact id
  rw [FlightController.step_receive_some hb, FlightController.performer_of_not_enables c hn]
  exact FlightController.setSession_signed hb _ d

theorem Unmoved.step {c : Fin n} {fc₀ : FlightController n} (hr : Resting s)
    (h : Unmoved c s fc₀ fc) {e : ControllerEvent n ρ} (he : e.QuietFor c) :
    Unmoved c s fc₀ (fc.step P e).1 ∧ ∀ o ∈ (fc.step P e).2, ¬ o.2.IsChunkOrAbort := by
  obtain ⟨now, hs⟩ := h.session
  cases e with
  | setArmed armed => exact ⟨⟨⟨now, hs⟩, h.signed⟩, List.forall_mem_nil _⟩
  | receive d i =>
    obtain ⟨rfl, hi⟩ := he
    have hr' : Resting (s.noteRx now) := hr.transmit (.of_core rfl rfl rfl) rfl
    obtain ⟨hstep, hfx⟩ := hr'.quiet (P := P) hi
    have hin : (ControllerEvent.receive d i).inputOf d = some i := if_pos rfl
    have hsess : (fc.step P (.receive d i)).1.session d = some (handle P (s.noteRx now) i).1 := by
      rw [FlightController.step_session, hs, hin, Option.map_some]
    refine ⟨⟨?_, fun c ↦ (hr'.signed_step hi hs c).trans (h.signed c)⟩, ?_⟩
    · rcases hstep with he | he
      · exact ⟨now, by rw [hsess, he]⟩
      · exact ⟨i.env.millis 0, by rw [hsess, he]; rfl⟩
    · obtain ⟨b, hb, hbs⟩ := Option.map_eq_some_iff.mp hs
      have hn : ∀ o ∈ (handle P b.hqc i).2, ¬ o.EnablesSigning := by
        rw [hbs]
        intro o ho
        obtain ⟨_, _, _, _, rfl⟩ := hfx o ho
        exact id
      rw [FlightController.step_receive_outputs hb hn, hbs]
      intro o ho
      obtain ⟨o', ho', rfl⟩ := List.mem_map.mp ho
      obtain ⟨_, _, _, _, rfl⟩ := hfx o' ho'
      exact id

/-- An `ACTIVE` session is left alone by every sequence of messages other than
`HELLO` and of ticks, and so is the signing state; no ciphertext fragment and no
abort is sent. -/
theorem active_session_survives (P : Platform ρ) (hf : fc.Fresh)
    (as bs : List (ControllerEvent n ρ)) {c : Fin n}
    (hs : ((controller P n).final fc as).session c = some s) (ha : s.state = .active)
    (hq : ∀ e ∈ bs, e.QuietFor c) :
    (∃ s', ((controller P n).final fc (as ++ bs)).session c = some s' ∧ s'.state = .active ∧
        SameKeys s s') ∧
      (∀ d, ((controller P n).final fc (as ++ bs)).signed d =
        ((controller P n).final fc as).signed d) ∧
      ∀ o ∈ (controller P n).outputs ((controller P n).final fc as) bs, ¬ o.2.IsChunkOrAbort := by
  have hr : Resting s := (hf.settled.run as c s hs).resting ha
  have hg : (controller P n).Guarded (fun _ e ↦ e.QuietFor c) ((controller P n).final fc as) bs :=
    Machine.guarded_of_forall fun e he _ ↦ hq e he
  have hstart : Unmoved c s ((controller P n).final fc as) ((controller P n).final fc as) :=
    .refl hs
  have hend : Unmoved c s ((controller P n).final fc as)
      ((controller P n).final fc (as ++ bs)) := by
    rw [Machine.final_append]
    exact hg.invariant (fun _ _ hu he ↦ (hu.step hr he).1) hstart
  obtain ⟨now, hnow⟩ := hend.session
  refine ⟨⟨s.noteRx now, hnow, ha, sameKeys_noteRx s now⟩, hend.signed, ?_⟩
  exact hg.outputs (fun _ _ hu he ↦ hu.step hr he) hstart

theorem active_session_survives_sample :
    ∃ s', ((controller samplePlatform 1).final (sampleController 1) (sampleRun 1 0 ++
        [.receive 0 ⟨.ctAck (sampleAck 0), sampleEnv 5 0⟩, .receive 0 ⟨.tick, sampleEnv 9 0⟩,
          .receive 0 ⟨.pkChunk (sampleChunk 0 1), sampleEnv 9 3⟩])).session 0 = some s' ∧
      s'.state = .active ∧ SameKeys (sampleActive 1) s' := by
  have hs := sampleRun_session (sampleController_session (n := 1) 0)
  have h := active_session_survives samplePlatform sampleController_fresh (sampleRun 1 0)
    [.receive 0 ⟨.ctAck (sampleAck 0), sampleEnv 5 0⟩, .receive 0 ⟨.tick, sampleEnv 9 0⟩,
      .receive 0 ⟨.pkChunk (sampleChunk 0 1), sampleEnv 9 3⟩] hs (sampleActive_state 1)
    (by simp [ControllerEvent.QuietFor, Event.IsHello])
  exact h.1

/-- The session is still running with its keys, and `mavlink_get_crypt_config`
has not noticed anything. -/
structure StillRuns (s s' : HqcSession) : Prop where
  state : s'.state = .active
  keys : SameKeys s s'
  crypt : ∀ isTx seq, mavlinkGetCryptConfig s' isTx seq = mavlinkGetCryptConfig s isTx seq

def Effect.Accepts : Effect → Prop
  | .helloAck ack => ack.accept = 1
  | _ => False

instance : DecidablePred Effect.Accepts
  | .helloAck ack => inferInstanceAs (Decidable (ack.accept = 1))
  | .pkAck .. | .ctChunk _ | .hqcStatus .. | .hqcAbort .. | .sendText .. | .fsOpen | .fsClose
  | .pkeCopy .. | .pksStore .. | .apKemEnc .. | .enableSigningWithKey _ => isFalse id

/-- The answers to a `HELLO` include a `HELLO_ACK` that accepts it. -/
def HelloAccepted (fx : List Effect) : Prop := ∃ o ∈ fx, o.Accepts

instance (fx : List Effect) : Decidable (HelloAccepted fx) :=
  inferInstanceAs (Decidable (∃ o ∈ fx, o.Accepts))

theorem helloAccept_accepted (s : HqcSession) (k : PdkKey) (cts : Block) (ss : Bytes apKemBytes)
    (fx : List Effect) : HelloAccepted (fx ++ (helloAccept P s k cts ss).2) :=
  ⟨.helloAck (ackOf _ _), List.mem_append_right _ List.mem_cons_self, rfl⟩

/-- `reset` comes before every check, so that a refused `HELLO` drops the session,
and with it the encryption of its channel. -/
theorem refused_hello_drops_session (P : Platform ρ) (e : Env ρ) (s : HqcSession) (m : Hello)
    (hr : ¬ HelloAccepted (handleHqcHello P e s m).2) :
    ¬ StillRuns s (handleHqcHello P e s m).1 ∧ (handleHqcHello P e s m).1.state = .idle ∧
      ∀ isTx seq, (mavlinkGetCryptConfig (handleHqcHello P e s m).1 isTx seq).ok = false := by
  have h := handleHqcHello_spec P e s m
  generalize handleHqcHello P e s m = r at h hr ⊢
  cases h with
  | refused th alg fx hfx =>
    refine ⟨fun hrun ↦ ?_, rfl, fun _ _ ↦ rfl⟩
    exact nomatch hrun.state
  | accepted pke cts k ss fx fx' hf hs hw hk hfx => exact absurd (helloAccept_accepted ..) hr

def sampleRefused : Hello := { sampleHello 1 with version := 2 }

theorem sampleRefused_refused : ¬ HelloAccepted
    (handleHqcHello samplePlatform (sampleEnv 5 0) (sampleActive 1) sampleRefused).2 := by
  decide +kernel

theorem refused_hello_drops_session_sample :
    (handleHqcHello samplePlatform (sampleEnv 5 0) (sampleActive 1) sampleRefused).1.state =
      .idle :=
  (refused_hello_drops_session samplePlatform _ _ _ sampleRefused_refused).2.1

/-- One `HELLO` with a version that the code does not support, and the link of an
`ACTIVE` session is back to plaintext. -/
theorem unsupported_version_drops_session :
    (session samplePlatform).final (.fresh (Bytes.zeros 32) (Bytes.zeros 32))
        (sampleActivation 1) = sampleActive 1 ∧
      (sampleActive 1).state = .active ∧
      ¬ HelloAccepted
        (handleHqcHello samplePlatform (sampleEnv 5 0) (sampleActive 1) sampleRefused).2 ∧
      ¬ StillRuns (sampleActive 1)
        (handleHqcHello samplePlatform (sampleEnv 5 0) (sampleActive 1) sampleRefused).1 := by
  refine ⟨sampleActive_eq (by decide), sampleActive_state 1, sampleRefused_refused, ?_⟩
  intro h
  exact nomatch h.state

end KemtlsMavlink
