import KemtlsMavlink.Controller.KeyRelease
import KemtlsMavlink.Kem.ApKem
import KemtlsMavlink.Session.Secrets

namespace KemtlsMavlink

open Library

variable {n : Nat}

/-- The code that the session and `ap_kem_enc` are linked with. -/
structure Linked where
  sha256 : List UInt8 → Bytes 32
  kexCode : KexStatus → UInt8
  encaps : KemEncaps

/-- The randomness of one handler call: the flag as it is then, and what the
system answers to the calls of `randombytes`. -/
structure KemRandomness where
  failed : Bool
  ios : Nat → EntropyIo

variable (L : Linked)

def Linked.platform : Platform KemRandomness where
  sha256 := L.sha256
  apKemEnc pk ct r := apKemEnc L.encaps r.failed r.ios pk ct
  kexCode := L.kexCode

def Linked.entropyUse (failed : Bool) (ios : Nat → EntropyIo) : Option KemCall → EntropyUse
  | none => ⟨failed, []⟩
  | some call => apKemEncEntropy L.encaps failed ios (call.pk.read 0 apKemPublicKeyBytes)

def Input.withFailed (i : Input (Nat → EntropyIo)) (failed : Bool) : Input KemRandomness :=
  ⟨i.event, i.env.millis, i.env.mallocPke, i.env.callocPks, i.env.mallocCts, i.env.mallocCte,
    i.env.fs, failed, i.env.rand⟩

/-- What can happen after the boot: an input of a channel, arming, or a call of
`randombytes` by any other code. -/
inductive BootEvent (n : Nat)
  | receive (c : Fin n) (i : Input (Nat → EntropyIo))
  | setArmed (armed : Bool)
  | randombytes (io : EntropyIo) (x : List UInt8)

/-- The flight controller with the flag `s_entropy_failed`, which all its
channels share. -/
structure Boot (n : Nat) where
  entropyFailed : Bool
  fc : FlightController n

namespace Boot

def start (fc : FlightController n) : Boot n := ⟨false, fc⟩

/-- The outputs of a step are its calls of `randombytes`, in order: whether each
of them has failed. -/
def step (b : Boot n) : BootEvent n → Boot n × List Bool
  | .receive c i =>
    let r := b.fc.step L.platform (.receive c (i.withFailed b.entropyFailed))
    let u := L.entropyUse b.entropyFailed i.env.rand (kemCall (r.2.map Prod.snd))
    (⟨u.failed, r.1⟩, u.draws)
  | .setArmed armed => (⟨b.entropyFailed, (b.fc.step L.platform (.setArmed armed)).1⟩, [])
  | .randombytes io x =>
    (⟨(KemtlsMavlink.randombytes io b.entropyFailed x).2, b.fc⟩, [randombytesFails io x])

end Boot

def boot (n : Nat) : Machine (Boot n) (BootEvent n) Bool := ⟨Boot.step L⟩

/-- In the run a call of `ap_kem_enc` on channel `c` has returned `ss`, and no
call of `randombytes` up to the end of that step has failed. -/
def ReturnedClean (fc : FlightController n) (es : List (BootEvent n)) (c : Fin n) (kind : UInt8)
    (ss : Bytes apKemBytes) : Prop :=
  ∃ as i bs s, es = as ++ .receive c i :: bs ∧
    ((boot L n).final (.start fc) as).fc.session c = some s ∧
    Encapsulates L.platform ⟨((boot L n).final (.start fc) as).entropyFailed, i.env.rand⟩
      (handle L.platform s (i.withFailed ((boot L n).final (.start fc) as).entropyFailed)).2
      kind ss ∧
    ∀ failed ∈ (boot L n).outputs (.start fc) (as ++ [.receive c i]), failed = false

variable {L} {b : Boot n} {fc : FlightController n} {es : List (BootEvent n)} {c : Fin n}
  {kind : UInt8} {ss : Bytes apKemBytes}

theorem Linked.entropyUse_failed (failed : Bool) (ios : Nat → EntropyIo) (call : Option KemCall) :
    (L.entropyUse failed ios call).failed =
      (failed || (L.entropyUse failed ios call).draws.any id) := by
  cases call with
  | none => exact (Bool.or_false failed).symm
  | some call => exact apKemEncEntropy_failed

theorem Boot.step_failed (b : Boot n) (e : BootEvent n) :
    (b.step L e).1.entropyFailed = (b.entropyFailed || (b.step L e).2.any id) := by
  cases e with
  | receive c i => exact L.entropyUse_failed b.entropyFailed i.env.rand _
  | setArmed armed => exact (Bool.or_false _).symm
  | randombytes io x =>
    apply (randombytes_flag io b.entropyFailed x).trans
    simp [step]

theorem final_failed (fc : FlightController n) (es : List (BootEvent n)) :
    ((boot L n).final (.start fc) es).entropyFailed =
      ((boot L n).outputs (.start fc) es).any id := by
  induction es using List.reverseRecOn with
  | nil => rfl
  | append_singleton es e ih =>
    rw [Machine.final_snoc, Machine.outputs_snoc, List.any_append, ← ih]
    exact Boot.step_failed _ e

theorem performer_kemCall (c : Fin n) (fc : FlightController n) (fx : List Effect) :
    kemCall ((FlightController.performer c).outputs fc fx) = kemCall fx := by
  induction fx generalizing fc with
  | nil => rfl
  | cons o fx ih =>
    rw [Machine.outputs_cons]
    cases o with
    | apKemEnc kind pk ok => rfl
    | enableSigningWithKey key =>
      have htexts : ∀ o ∈ (fc.enableSigningWithKey c key 0 none).texts, o.kemCall = none := by
        unfold FlightController.enableSigningWithKey
        dsimp only
        split_ifs <;> exact List.forall_mem_singleton.mpr rfl
      have hnone : ∀ o ∈ (fc.perform c (.enableSigningWithKey key)).2, o.kemCall = none :=
        List.forall_mem_cons.mpr ⟨rfl, htexts⟩
      exact (kemCall_append hnone).trans (ih _)
    | _ => exact (kemCall_append (List.forall_mem_singleton.mpr rfl)).trans (ih _)

theorem step_receive_kemCall {ρ : Type} {P : Platform ρ} {s : HqcSession}
    (hs : fc.session c = some s) (i : Input ρ) :
    kemCall ((fc.step P (.receive c i)).2.map Prod.snd) = kemCall (handle P s i).2 := by
  obtain ⟨b, hb, rfl⟩ := Option.map_eq_some_iff.mp hs
  simp only [FlightController.step, hb, List.map_map]
  exact (congrArg kemCall (List.map_id _)).trans (performer_kemCall c _ _)

theorem Boot.step_clean {s : HqcSession} {i : Input (Nat → EntropyIo)}
    (hs : b.fc.session c = some s)
    (h : Encapsulates L.platform ⟨b.entropyFailed, i.env.rand⟩
      (handle L.platform s (i.withFailed b.entropyFailed)).2 kind ss) :
    (b.step L (.receive c i)).1.entropyFailed = false := by
  obtain ⟨pk, ct, hcall, hok, -⟩ := h
  simp only [step, step_receive_kemCall hs, hcall]
  exact apKemEnc_ok hok

/-- One step of the session of a channel, or none. -/
theorem Boot.step_session (b : Boot n) (e : BootEvent n) (c : Fin n) :
    (b.step L e).1.fc.session c = b.fc.session c ∨ ∃ i s, e = .receive c i ∧
      b.fc.session c = some s ∧ (b.step L e).1.fc.session c =
        some (handle L.platform s (i.withFailed b.entropyFailed)).1 := by
  cases e with
  | setArmed armed => exact .inl rfl
  | randombytes io x => exact .inl rfl
  | receive d i =>
    have hstep := FlightController.step_session (P := L.platform) b.fc c
      (.receive d (i.withFailed b.entropyFailed))
    by_cases hd : d = c
    · subst hd
      rw [show ControllerEvent.inputOf d (.receive d (i.withFailed b.entropyFailed)) = some _ from
        if_pos rfl] at hstep
      cases hs : b.fc.session d with
      | none => exact .inl (hstep.trans (by rw [hs, Option.map_none]))
      | some s => exact .inr ⟨i, s, rfl, rfl, hstep.trans (by rw [hs, Option.map_some])⟩
    · rw [show ControllerEvent.inputOf c (.receive d (i.withFailed b.entropyFailed)) = none from
        if_neg hd] at hstep
      exact .inl (hstep.trans Option.map_id')

theorem ReturnedClean.snoc (h : ReturnedClean L fc es c kind ss) (e : BootEvent n) :
    ReturnedClean L fc (es ++ [e]) c kind ss := by
  obtain ⟨as, i, bs, s, rfl, hs, henc, hclean⟩ := h
  exact ⟨as, i, bs ++ [e], s, by simp, hs, henc, hclean⟩

structure CleanSecrets (L : Linked) (fc : FlightController n) (es : List (BootEvent n)) (c : Fin n)
    (s : HqcSession) : Prop where
  settled : Settled s
  returned : ∀ kind, kind = 0 ∨ kind = 1 → (s.rx.stream kind).len ≠ 0 →
    ReturnedClean L fc es c kind (s.rx.secret kind)

theorem CleanSecrets.step {s : HqcSession} (h : CleanSecrets L fc es c s)
    (hs : ((boot L n).final (.start fc) es).fc.session c = some s)
    (i : Input (Nat → EntropyIo)) : CleanSecrets L fc (es ++ [.receive c i]) c
      (handle L.platform s
        (i.withFailed ((boot L n).final (.start fc) es).entropyFailed)).1 := by
  refine ⟨h.settled.step _, fun kind hk hl ↦ ?_⟩
  rcases secret_step L.platform h.settled.sized hk _ hl with ⟨hl', he⟩ | henc
  · rw [he]
    exact (h.returned kind hk hl').snoc _
  · refine ⟨es, i, [], s, rfl, hs, henc, ?_⟩
    have hflag : ((boot L n).outputs (.start fc) (es ++ [.receive c i])).any id = false := by
      rw [← final_failed, Machine.final_snoc]
      exact Boot.step_clean hs henc
    intro failed hfailed
    exact Bool.eq_false_iff.mpr (List.any_eq_false.mp hflag failed hfailed)

end KemtlsMavlink
