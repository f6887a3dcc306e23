import KemtlsMavlink.Controller.Signing
import KemtlsMavlink.Session.Authentication

namespace KemtlsMavlink

open Library

variable {ρ : Type} {n : Nat} {P : Platform ρ}

/-- What can happen to the flight controller: an input reaches the session of a
channel, or the vehicle is armed or disarmed. -/
inductive ControllerEvent (n : Nat) (ρ : Type)
  | receive (c : Fin n) (i : Input ρ)
  | setArmed (armed : Bool)

namespace FlightController

/-- An effect of the session of channel `c`: the call of
`enable_signing_with_key` runs here, everything else is sent. -/
def perform (c : Fin n) (fc : FlightController n) : Effect → FlightController n × List Effect
  | .enableSigningWithKey key =>
    let r := fc.enableSigningWithKey c key 0 none
    (r.fc, .enableSigningWithKey key :: r.texts)
  | o => (fc, [o])

def performer (c : Fin n) : Machine (FlightController n) Effect Effect := ⟨perform c⟩

def setSession (fc : FlightController n) (c : Fin n) (b : Backend n) (s : HqcSession) :
    FlightController n :=
  { fc with chan := Function.update fc.chan c (some { b with hqc := s }) }

def step (P : Platform ρ) (fc : FlightController n) :
    ControllerEvent n ρ → FlightController n × List (Fin n × Effect)
  | .setArmed armed => ({ fc with softArmed := armed }, [])
  | .receive c i =>
    match fc.chan c with
    | none => (fc, [])
    | some b =>
      let r := handle P b.hqc i
      let fc := fc.setSession c b r.1
      ((performer c).final fc r.2, ((performer c).outputs fc r.2).map fun o ↦ (c, o))

def backendFor (fc : FlightController n) (chan : UInt8) : Option (Backend n) :=
  if h : chan.toNat < n then fc.chan ⟨chan.toNat, h⟩ else none

def mavlinkGetCryptConfig (fc : FlightController n) (chan : UInt8) (isTx : Bool) (seq : UInt8) :
    CryptAnswer :=
  match fc.backendFor chan with
  | none => { ok := false }
  | some b => KemtlsMavlink.mavlinkGetCryptConfig b.hqc isTx seq

def session (fc : FlightController n) (c : Fin n) : Option HqcSession := (fc.chan c).map (·.hqc)

def Fresh (fc : FlightController n) : Prop :=
  ∀ c b, fc.chan c = some b → ∃ kChachaTx kChachaRx, b.hqc = .fresh kChachaTx kChachaRx

end FlightController

def controller (P : Platform ρ) (n : Nat) :
    Machine (FlightController n) (ControllerEvent n ρ) (Fin n × Effect) :=
  ⟨FlightController.step P⟩

def ControllerEvent.inputOf (c : Fin n) : ControllerEvent n ρ → Option (Input ρ)
  | .receive d i => if d = c then some i else none
  | .setArmed _ => none

theorem ControllerEvent.eq_receive {c : Fin n} {e : ControllerEvent n ρ} {i : Input ρ}
    (h : e.inputOf c = some i) : e = .receive c i := by
  cases e with
  | setArmed armed => exact nomatch h
  | receive d j =>
    by_cases hd : d = c
    · have hj : j = i := Option.some.inj ((if_pos hd).symm.trans h)
      rw [hd, hj]
    · exact nomatch (if_neg hd).symm.trans h

namespace FlightController

variable {fc : FlightController n}

theorem enableSigningWithKey_armed (h : fc.softArmed = true) (c : Fin n) (key : Bytes 32)
    (ts : UInt64) (persist : Option (StorageIo n)) :
    (fc.enableSigningWithKey c key ts persist).fc = fc := by
  simp only [enableSigningWithKey, h, if_true]

theorem enableSigningWithKey_disarmed (h : fc.softArmed = false) (c : Fin n) (key : Bytes 32)
    (ts : UInt64) : (fc.enableSigningWithKey c key ts none).fc =
      { fc with chan := fun i ↦ (fc.chan i).map (Backend.activateSigning key ts i) } := by
  simp [enableSigningWithKey, h]

theorem enableSigningWithKey_session (c d : Fin n) (key : Bytes 32) (ts : UInt64) :
    (fc.enableSigningWithKey c key ts none).fc.session d = fc.session d := by
  cases h : fc.softArmed
  · rw [enableSigningWithKey_disarmed h, session, session, Option.map_map]
    rfl
  · rw [enableSigningWithKey_armed h]

theorem perform_session (c d : Fin n) (o : Effect) :
    (fc.perform c o).1.session d = fc.session d := by
  cases o with
  | enableSigningWithKey key => exact enableSigningWithKey_session c d key 0
  | _ => rfl

theorem performer_session (c d : Fin n) (fx : List Effect) :
    ((performer c).final fc fx).session d = fc.session d :=
  Machine.invariant (M := performer c) (I := fun fc' ↦ fc'.session d = fc.session d)
    (fun _ o h ↦ (perform_session c d o).trans h) rfl fx

theorem performer_softArmed (c : Fin n) (fx : List Effect) :
    ((performer c).final fc fx).softArmed = fc.softArmed := by
  refine Machine.invariant (M := performer c) (I := fun fc' ↦ fc'.softArmed = fc.softArmed)
    ?_ rfl fx
  intro fc' o h
  refine Eq.trans ?_ h
  cases o with
  | enableSigningWithKey key =>
    change (fc'.enableSigningWithKey c key 0 none).fc.softArmed = fc'.softArmed
    cases ha : fc'.softArmed
    · rw [enableSigningWithKey_disarmed ha, ha]
    · rw [enableSigningWithKey_armed ha, ha]
  | _ => rfl

theorem setSession_session (c d : Fin n) (b : Backend n) (s : HqcSession) :
    (fc.setSession c b s).session d = if d = c then some s else fc.session d := by
  unfold session setSession
  by_cases h : d = c
  · subst h
    simp
  · simp [h]

theorem step_receive_none {c : Fin n} (h : fc.chan c = none) (i : Input ρ) :
    fc.step P (.receive c i) = (fc, []) := by
  simp only [step, h]

theorem step_receive_some {c : Fin n} {b : Backend n} (h : fc.chan c = some b) (i : Input ρ) :
    (fc.step P (.receive c i)).1 = (performer c).final (fc.setSession c b (handle P b.hqc i).1)
      (handle P b.hqc i).2 := by
  simp only [step, h]

theorem step_receive_softArmed (c : Fin n) (i : Input ρ) :
    (fc.step P (.receive c i)).1.softArmed = fc.softArmed := by
  cases hb : fc.chan c with
  | none => rw [step_receive_none hb]
  | some b =>
    rw [step_receive_some hb]
    exact performer_softArmed c _

theorem final_receive_softArmed (c : Fin n) (is : List (Input ρ)) :
    ((controller P n).final fc (is.map (.receive c))).softArmed = fc.softArmed := by
  induction is generalizing fc with
  | nil => rfl
  | cons i is ih => exact ih.trans (step_receive_softArmed c i)

theorem step_session (fc : FlightController n) (c : Fin n) (e : ControllerEvent n ρ) :
    (fc.step P e).1.session c =
    (fc.session c).map fun s ↦
      match e.inputOf c with
      | none => s
      | some i => (handle P s i).1 := by
  cases e with
  | setArmed armed => exact Option.map_id'.symm
  | receive d i =>
    cases hb : fc.chan d with
    | none =>
      rw [step_receive_none hb]
      by_cases hd : d = c
      · subst hd
        rw [session, hb, Option.map_none, Option.map_none]
      · simp [ControllerEvent.inputOf, hd]
    | some b =>
      rw [step_receive_some hb, performer_session, setSession_session]
      by_cases hd : d = c
      · subst hd
        simp [ControllerEvent.inputOf, session, hb]
      · simp [ControllerEvent.inputOf, hd, Ne.symm hd]

/-- Along every run each channel's session runs on the inputs of its channel. -/
theorem final_session (fc : FlightController n) (c : Fin n) (es : List (ControllerEvent n ρ)) :
    ((controller P n).final fc es).session c = (fc.session c).map fun s ↦
      (KemtlsMavlink.session P).final s (es.filterMap (ControllerEvent.inputOf c)) := by
  cases hs : fc.session c with
  | none =>
    refine Machine.invariant (M := controller P n) (I := fun fc ↦ fc.session c = none) ?_ hs es
    intro fc e h
    exact (step_session fc c e).trans (by rw [h, Option.map_none])
  | some s =>
    refine Machine.relates (M := controller P n) (N := KemtlsMavlink.session P)
      (R := fun fc s ↦ fc.session c = some s) ?_ ?_ hs es
    · intro fc s e h he
      have hstep := step_session (P := P) fc c e
      rw [h, he] at hstep
      exact hstep
    · intro fc s e i h he
      have hstep := step_session (P := P) fc c e
      rw [h, he] at hstep
      exact hstep

end FlightController

end KemtlsMavlink
