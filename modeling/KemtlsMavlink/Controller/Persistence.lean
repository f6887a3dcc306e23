import KemtlsMavlink.Controller.SigningKeys

namespace KemtlsMavlink

open Library

variable {n : Nat} {fc : FlightController n}

theorem Bytes.toList_all_zero {k : Nat} (key : Bytes k) :
    key.toList.all (· = 0) = true ↔ key = Bytes.zeros k := by
  constructor
  · intro h
    apply Vector.ext
    intro j hj
    have hmem : key[j] ∈ key.toList := Vector.mem_toList_iff.mpr (Vector.getElem_mem hj)
    have hz := List.all_eq_true.mp h key[j] hmem
    simpa using hz
  · rintro rfl
    simp [Bytes.zeros]

namespace Backend

theorem loadSigningKey_disabled {b : Backend n} (h : b.mavlink2SigningDisabled = true)
    (st : SigningStorage) (io : StorageIo n) (i : Fin n) : b.loadSigningKey st io i = b := by
  simp [loadSigningKey, h]

theorem loadSigningKey_eq {b : Backend n} (h : b.mavlink2SigningDisabled = false)
    {st : SigningStorage} {io : StorageIo n} {i : Fin n} {key : Bytes 32} {ts : UInt64}
    (hl : signingKeyLoad st io i = some ⟨signingKeyMagic, ts, key⟩) :
    b.loadSigningKey st io i = { b.activateSigning key ts i with
      channelStatus :=
        if ts = 0 ∧ key = Bytes.zeros 32 then ⟨none, false⟩ else ⟨some i, true⟩ } := by
  have hz := Bytes.toList_all_zero key
  by_cases hc : ts = 0 ∧ key = Bytes.zeros 32
  · simp [loadSigningKey, activateSigning, h, hl, hc]
  · have hnot : (decide (ts = 0) && key.toList.all (· = 0)) = false := by
      rw [Bool.eq_false_iff]
      intro hall
      obtain ⟨ht, hk⟩ := (Bool.and_eq_true _ _).mp hall
      exact hc ⟨of_decide_eq_true ht, hz.mp hk⟩
    simp only [loadSigningKey, activateSigning, h, hl, hnot, hc, if_false, Bool.false_eq_true]

/-- The state before the two activations of channel `i` under which they agree: a
channel that has signing disabled must already hold the block and the pointers of
this activation, and any other needs a timestamp or a key that is not all zero. -/
structure MirrorsLoad (key : Bytes 32) (ts : UInt64) (i : Fin n) (b : Backend n) : Prop where
  disabled : b.mavlink2SigningDisabled = true →
    b.signing = ⟨mavlinkSigningFlagSignOutgoing, UInt8.ofNat i, ts + signingMinute, key, true⟩ ∧
      b.channelStatus = ⟨some i, true⟩
  enabled : b.mavlink2SigningDisabled = false → ts ≠ 0 ∨ key ≠ Bytes.zeros 32

theorem mirrorsLoad_iff {b : Backend n} {st : SigningStorage} {io : StorageIo n} {i : Fin n}
    {key : Bytes 32} {ts : UInt64}
    (hl : signingKeyLoad st io i = some ⟨signingKeyMagic, ts, key⟩) :
    ((b.activateSigning key ts i).signing = (b.loadSigningKey st io i).signing ∧
      (b.activateSigning key ts i).channelStatus = (b.loadSigningKey st io i).channelStatus) ↔
        b.MirrorsLoad key ts i := by
  cases hd : b.mavlink2SigningDisabled with
  | true =>
    rw [loadSigningKey_disabled hd]
    constructor
    · intro h
      exact ⟨fun _ ↦ ⟨h.1.symm, h.2.symm⟩, fun hf ↦ absurd (hd.symm.trans hf) (by simp)⟩
    · intro h
      exact ⟨(h.disabled hd).1.symm, (h.disabled hd).2.symm⟩
  | false =>
    rw [loadSigningKey_eq hd hl]
    constructor
    · intro h
      refine ⟨fun ht ↦ absurd (hd.symm.trans ht) (by simp), fun _ ↦ not_and_or.mp fun hz ↦ ?_⟩
      have hs := h.2
      rw [if_pos hz] at hs
      exact nomatch (ChannelStatus.mk.inj hs).1
    · intro h
      rw [if_neg (not_and_or.mpr (h.enabled hd))]
      exact ⟨rfl, rfl⟩

end Backend

theorem signingKeyLoad_saved {st : SigningStorage} {io : StorageIo n} {key : SigningKey}
    (hw : (signingKeySave st io key).1 = true) (hm : key.magic = signingKeyMagic) {i : Fin n}
    (hr : io.read i = true) : signingKeyLoad (signingKeySave st io key).2 io i = some key := by
  by_cases hsize : st.size < signingKeySize
  · simp [signingKeySave, hsize] at hw
  · cases hwrite : io.write with
    | false => simp [signingKeySave, hsize, hwrite] at hw
    | true => simp [signingKeySave, signingKeyLoad, hsize, hwrite, hr, hm]

namespace FlightController

theorem enableSigningWithKey_persist {c : Fin n} {key : Bytes 32} {ts : UInt64}
    {io : StorageIo n} (ha : fc.softArmed = false)
    (hw : (signingKeySave fc.signingStorage io ⟨signingKeyMagic, ts, key⟩).1 = true) :
    (fc.enableSigningWithKey c key ts (some io)).fc = { fc with
      signingStorage := (signingKeySave fc.signingStorage io ⟨signingKeyMagic, ts, key⟩).2
      chan := fun i ↦ (fc.chan i).map (Backend.loadSigningKey
        (signingKeySave fc.signingStorage io ⟨signingKeyMagic, ts, key⟩).2 io i) } := by
  simp [enableSigningWithKey, ha, hw]

theorem signed_map_eq_iff {f g : Backend n → Backend n} {o : Option (Backend n)} :
    (o.map f).map (fun b ↦ (b.signing, b.channelStatus)) =
        (o.map g).map (fun b ↦ (b.signing, b.channelStatus)) ↔
      ∀ b, o = some b → (f b).signing = (g b).signing ∧
        (f b).channelStatus = (g b).channelStatus := by
  cases o with
  | none => simp
  | some b => simp

/-- With the write and the reads of the storage successful, the activation without
persistence agrees with `load_signing_key` on exactly the channels that
`MirrorsLoad` describes. -/
theorem signed_persist_iff {c i : Fin n} {key : Bytes 32} {ts : UInt64} {io : StorageIo n}
    (ha : fc.softArmed = false)
    (hw : (signingKeySave fc.signingStorage io ⟨signingKeyMagic, ts, key⟩).1 = true)
    (hr : io.read i = true) :
    (fc.enableSigningWithKey c key ts none).fc.signed i =
        (fc.enableSigningWithKey c key ts (some io)).fc.signed i ↔
      ∀ b, fc.chan i = some b → b.MirrorsLoad key ts i := by
  have hl := signingKeyLoad_saved hw rfl hr
  rw [enableSigningWithKey_disarmed ha, enableSigningWithKey_persist ha hw, signed, signed,
    signed_map_eq_iff]
  exact forall_congr' fun b ↦ imp_congr_right fun _ ↦ Backend.mirrorsLoad_iff hl

end FlightController

theorem runtime_signing_mirrors_persistent (fc : FlightController n) (c : Fin n)
    (key : Bytes 32) (ts : UInt64) (io : StorageIo n) (ha : fc.softArmed = false)
    (hw : (signingKeySave fc.signingStorage io ⟨signingKeyMagic, ts, key⟩).1 = true)
    (hr : ∀ i, io.read i = true) :
    (∀ i, (fc.enableSigningWithKey c key ts none).fc.signed i =
        (fc.enableSigningWithKey c key ts (some io)).fc.signed i) ↔
      ∀ i b, fc.chan i = some b → b.MirrorsLoad key ts i :=
  forall_congr' fun i ↦ FlightController.signed_persist_iff ha hw (hr i)

/-- One channel, with the given value of its signing option, over a storage that
holds a key. -/
def sampleStored (disabled : Bool) : FlightController 1 :=
  ⟨fun _ ↦ some { sampleBackend with mavlink2SigningDisabled := disabled }, false,
    ⟨signingKeySize, ⟨0, 0, Bytes.zeros 32⟩⟩⟩

def sampleStorageIo : StorageIo 1 := ⟨true, ⟨0, 0, Bytes.zeros 32⟩, fun _ ↦ true⟩

theorem runtime_signing_mirrors_persistent_sample :
    ((sampleStored false).enableSigningWithKey 0 (Vector.replicate 32 1) 0 none).fc.signed 0 =
      ((sampleStored false).enableSigningWithKey 0 (Vector.replicate 32 1) 0
        (some sampleStorageIo)).fc.signed 0 := by
  have hmirrors : ∀ i b, (sampleStored false).chan i = some b →
      b.MirrorsLoad (Vector.replicate 32 1) 0 i := by
    intro i b hb
    obtain rfl := Option.some.inj hb
    exact ⟨(fun h ↦ nomatch h), fun _ ↦ .inr (by decide)⟩
  exact (runtime_signing_mirrors_persistent (sampleStored false) 0 (Vector.replicate 32 1) 0
    sampleStorageIo rfl rfl fun _ ↦ rfl).mpr hmirrors 0

/-- Without persistence a channel that has signing disabled signs, and a key and a
timestamp that are all zero turn signing on. -/
theorem runtime_signing_differs :
    ((sampleStored true).enableSigningWithKey 0 (Vector.replicate 32 1) 0 none).fc.signed 0 ≠
        ((sampleStored true).enableSigningWithKey 0 (Vector.replicate 32 1) 0
          (some sampleStorageIo)).fc.signed 0 ∧
      ((sampleStored false).enableSigningWithKey 0 (Bytes.zeros 32) 0 none).fc.signed 0 ≠
        ((sampleStored false).enableSigningWithKey 0 (Bytes.zeros 32) 0
          (some sampleStorageIo)).fc.signed 0 := by
  constructor
  · intro h
    have hs := congrArg (fun o ↦ o.bind fun p ↦ p.2.signing) h
    exact nomatch hs
  · intro h
    have hs := congrArg (fun o ↦ o.bind fun p ↦ p.2.signing) h
    exact nomatch hs

end KemtlsMavlink
