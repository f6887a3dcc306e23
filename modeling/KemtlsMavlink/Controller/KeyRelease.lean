import KemtlsMavlink.Controller.Channels

namespace KemtlsMavlink

open Library

variable {ρ : Type} {n : Nat} {P : Platform ρ} {fc : FlightController n}

theorem backendFor_eq_some {chan : UInt8} {b : Backend n} (h : fc.backendFor chan = some b) :
    ∃ c : Fin n, c.val = chan.toNat ∧ fc.chan c = some b := by
  unfold FlightController.backendFor at h
  split at h
  · exact ⟨_, rfl, h⟩
  · exact nomatch h

/-- Whenever `mavlink_get_crypt_config` answers on a channel, that channel has
received, after its last `HELLO`, a `FINISH` that authenticates the answer. -/
theorem released_keys_authenticated (P : Platform ρ) (hf : fc.Fresh)
    (es : List (ControllerEvent n ρ)) (chan : UInt8) (isTx : Bool) (seq : UInt8)
    (h : (((controller P n).final fc es).mavlinkGetCryptConfig chan isTx seq).ok = true) :
    ∃ (c : Fin n) (s₀ : HqcSession), c.val = chan.toNat ∧ fc.session c = some s₀ ∧
      ReleasedBy P s₀ (es.filterMap (ControllerEvent.inputOf c)) isTx
        (((controller P n).final fc es).mavlinkGetCryptConfig chan isTx seq) := by
  unfold FlightController.mavlinkGetCryptConfig at h ⊢
  cases hb : ((controller P n).final fc es).backendFor chan with
  | none =>
    rw [hb] at h
    exact nomatch h
  | some b =>
    rw [hb] at h
    obtain ⟨c, hc, hb'⟩ := backendFor_eq_some hb
    have hs := FlightController.final_session (P := P) fc c es
    rw [FlightController.session, hb', Option.map_some] at hs
    obtain ⟨s₀, hs₀, hfin⟩ := Option.map_eq_some_iff.mp hs.symm
    obtain ⟨b₀, hb₀, rfl⟩ := Option.map_eq_some_iff.mp hs₀
    obtain ⟨kTx, kRx, hk⟩ := hf c b₀ hb₀
    refine ⟨c, b₀.hqc, hc, hs₀, ?_⟩
    dsimp only at h hfin ⊢
    rw [hk] at hfin ⊢
    rw [← hfin] at h ⊢
    exact released_by kTx kRx _ isTx seq h

def sampleBackend : Backend n :=
  ⟨.fresh (Bytes.zeros 32) (Bytes.zeros 32), ⟨0, 0, 0, Bytes.zeros 32, false⟩, ⟨none, false⟩, false⟩

def sampleController (n : Nat) : FlightController n :=
  ⟨fun _ ↦ some sampleBackend, false, ⟨0, ⟨0, 0, Bytes.zeros 32⟩⟩⟩

def sampleRun (r : UInt8) (c : Fin n) : List (ControllerEvent n UInt8) :=
  (sampleActivation r).map (.receive c)

theorem sampleController_fresh : (sampleController n).Fresh := by
  intro c b hb
  have he : sampleBackend = b := Option.some.inj hb
  exact ⟨Bytes.zeros 32, Bytes.zeros 32, he ▸ rfl⟩

theorem sampleController_session (c : Fin n) : (sampleController n).session c =
    some (.fresh (Bytes.zeros 32) (Bytes.zeros 32)) := rfl

theorem filterMap_inputOf_receive (c d : Fin n) (is : List (Input ρ)) :
    (is.map (ControllerEvent.receive c)).filterMap (ControllerEvent.inputOf d) =
      if c = d then is else [] := by
  induction is with
  | nil => simp
  | cons i is ih =>
    by_cases h : c = d
    · have hi : (ControllerEvent.receive c i).inputOf d = some i := if_pos h
      rw [List.map_cons, List.filterMap_cons_some hi, ih, if_pos h, if_pos h]
    · have hi : (ControllerEvent.receive c i).inputOf d = none := if_neg h
      rw [List.map_cons, List.filterMap_cons_none hi, ih, if_neg h, if_neg h]

theorem sampleRun_session {fc : FlightController n} {c : Fin n}
    (h : fc.session c = some (.fresh (Bytes.zeros 32) (Bytes.zeros 32))) :
    ((controller samplePlatform n).final fc (sampleRun 1 c)).session c = some (sampleActive 1) := by
  rw [FlightController.final_session, h, sampleRun, filterMap_inputOf_receive, if_pos rfl,
    Option.map_some, sampleActive_eq (by decide)]

theorem mavlinkGetCryptConfig_of_session {c : Fin n} {s : HqcSession} (hs : fc.session c = some s)
    {chan : UInt8} (hc : chan.toNat = c.val) (isTx : Bool) (seq : UInt8) :
    fc.mavlinkGetCryptConfig chan isTx seq = mavlinkGetCryptConfig s isTx seq := by
  obtain ⟨b, hb, rfl⟩ := Option.map_eq_some_iff.mp hs
  have hlt : chan.toNat < n := hc ▸ c.isLt
  have hf : fc.backendFor chan = some b := by
    unfold FlightController.backendFor
    rw [dif_pos hlt, ← hb]
    exact congrArg fc.chan (Fin.ext hc)
  simp only [FlightController.mavlinkGetCryptConfig, hf]

theorem released_keys_authenticated_sample :
    ∃ (c : Fin 1) (s₀ : HqcSession), c.val = 0 ∧ (sampleController 1).session c = some s₀ ∧
      ReleasedBy samplePlatform s₀
        ((sampleRun 1 0).filterMap (ControllerEvent.inputOf c)) true
        (((controller samplePlatform 1).final (sampleController 1)
          (sampleRun 1 0)).mavlinkGetCryptConfig 0 true 0) := by
  refine released_keys_authenticated samplePlatform sampleController_fresh (sampleRun 1 0)
    0 true 0 ?_
  rw [mavlinkGetCryptConfig_of_session (sampleRun_session (sampleController_session 0)) rfl]
  exact mavlinkGetCryptConfig_ok.mpr ⟨sampleActive_state 1, .inl sampleActive_aeadAlg⟩

end KemtlsMavlink
