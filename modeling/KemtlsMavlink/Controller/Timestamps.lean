import KemtlsMavlink.Controller.Persistence
import KemtlsMavlink.Controller.Unsigned

namespace KemtlsMavlink

open Library

variable {n : Nat}

def epochOffset : UInt64 := 1420070400

/-- What `update_signing_timestamp` makes of the time of a GPS lock. -/
def gpsSigningTimestamp (timestampUsec : UInt64) : UInt64 :=
  let signingTimestamp := timestampUsec / (1000 * 1000)
  let signingTimestamp :=
    if epochOffset < signingTimestamp then signingTimestamp - epochOffset else signingTimestamp
  signingTimestamp * (100 * 1000)

/-- The flight controller with `last_signing_save_ms`. -/
structure SigningClock (n : Nat) where
  fc : FlightController n
  lastSigningSaveMs : UInt32

namespace FlightController

def raiseTimestamp (timestamp : UInt64) (fc : FlightController n) (c : Fin n) :
    FlightController n :=
  match (fc.chan c).bind (·.channelStatus.signing) with
  | none => fc
  | some d =>
    { fc with
      chan := fun i ↦ (fc.chan i).map fun b ↦
        if i = d ∧ b.signing.timestamp < timestamp then
          { b with signing := { b.signing with timestamp := timestamp } }
        else b }

def laterKey (fc : FlightController n) (r : SigningKey × Bool) (c : Fin n) : SigningKey × Bool :=
  match fc.signingOf c with
  | none => r
  | some block =>
    if r.1.timestamp < block.timestamp then ({ r.1 with timestamp := block.timestamp }, true)
    else r

/-- The timestamps of the links that sign. -/
def timestamps (fc : FlightController n) : List UInt64 :=
  (List.finRange n).filterMap fun c ↦ (fc.signingOf c).map (·.timestamp)

end FlightController

namespace SigningClock

def saveSigningTimestamp (s : SigningClock n) (now : UInt32) (io : StorageIo 1)
    (forceSaveNow : Bool) : SigningClock n :=
  if !forceSaveNow && now - s.lastSigningSaveMs < 30 * 1000 then s
  else
    let s := { s with lastSigningSaveMs := now }
    match signingKeyLoad s.fc.signingStorage io (Fin.last 0) with
    | none => s
    | some key =>
      let r := (List.finRange n).foldl s.fc.laterKey (key, false)
      if r.2 then
        { s with fc := { s.fc with
            signingStorage := (signingKeySave s.fc.signingStorage io r.1).2 } }
      else s

def updateSigningTimestamp (s : SigningClock n) (timestampUsec : UInt64) (now : UInt32)
    (io : StorageIo 1) : SigningClock n :=
  saveSigningTimestamp { s with
    fc := (List.finRange n).foldl
      (FlightController.raiseTimestamp (gpsSigningTimestamp timestampUsec)) s.fc } now io true

/-- A start: no link signs until `init` loads the key, which it does for the links of MAVLink 2. -/
def restart (s : SigningClock n) (mavlink2 : Fin n → Bool) (io : StorageIo n) : SigningClock n :=
  ⟨{ s.fc with
      chan := fun i ↦ (s.fc.chan i).map fun b ↦
        let b := { b with
          signing := ⟨0, 0, 0, Bytes.zeros 32, false⟩
          channelStatus := ⟨none, false⟩ }
        if mavlink2 i then b.loadSigningKey s.fc.signingStorage io i else b }, 0⟩

end SigningClock

/-- What happens to the timestamps. `traffic` is a frame that the MAVLink library signs or checks,
which takes the link to a later timestamp, and `activate` is the end of a handshake. -/
inductive SigningEvent (n : Nat)
  | restart (mavlink2 : Fin n → Bool) (io : StorageIo n)
  | gpsLock (timestampUsec : UInt64) (now : UInt32) (io : StorageIo 1)
  | heartbeat (now : UInt32) (io : StorageIo 1)
  | traffic (c : Fin n) (timestamp : UInt64)
  | activate (c : Fin n) (key : Bytes 32)

namespace SigningClock

def step (s : SigningClock n) : SigningEvent n → SigningClock n
  | .restart mavlink2 io => s.restart mavlink2 io
  | .gpsLock timestampUsec now io => s.updateSigningTimestamp timestampUsec now io
  | .heartbeat now io => s.saveSigningTimestamp now io false
  | .traffic c timestamp => { s with fc := s.fc.raiseTimestamp timestamp c }
  | .activate c key => { s with fc := (s.fc.enableSigningWithKey c key 0 none).fc }

end SigningClock

/-- After each event it emits the timestamps that the links then have. -/
def signingClock (n : Nat) : Machine (SigningClock n) (SigningEvent n) UInt64 :=
  ⟨fun s e ↦ (s.step e, (s.step e).fc.timestamps)⟩

theorem toNat_gpsSigningTimestamp (t : UInt64) : (gpsSigningTimestamp t).toNat =
    (if 1420070400 < t.toNat / 1000000 then t.toNat / 1000000 - 1420070400
      else t.toNat / 1000000) * 100000 := by
  have hsec : (t / (1000 * 1000)).toNat = t.toNat / 1000000 := UInt64.toNat_div _ _
  have hlt := t.toNat_lt
  have hepoch : epochOffset < t / (1000 * 1000) ↔ 1420070400 < t.toNat / 1000000 := by
    rw [UInt64.lt_iff_toNat_lt, hsec]
    rfl
  have hunit : ((100 * 1000 : UInt64)).toNat = 100000 := rfl
  rw [gpsSigningTimestamp, UInt64.toNat_mul, hunit]
  by_cases h : 1420070400 < t.toNat / 1000000
  · have hle : epochOffset ≤ t / (1000 * 1000) := by
      rw [UInt64.le_iff_toNat_le, hsec]
      exact h.le
    have hsub : (t / (1000 * 1000) - epochOffset).toNat = t.toNat / 1000000 - 1420070400 := by
      rw [UInt64.toNat_sub_of_le _ _ hle, hsec]
      rfl
    rw [if_pos (hepoch.mpr h), if_pos h, hsub]
    omega
  · rw [if_neg (mt hepoch.mp h), if_neg h, hsec]
    omega

/-- A later time gives an earlier timestamp when 2015 lies between the two, and the later one is
nearer to 2015 than the earlier one to 1970. -/
theorem gpsSigningTimestamp_backwards_iff (earlier later : UInt64) (h : earlier ≤ later) :
    gpsSigningTimestamp later < gpsSigningTimestamp earlier ↔
      earlier.toNat / 1000000 ≤ 1420070400 ∧ 1420070400 < later.toNat / 1000000 ∧
        later.toNat / 1000000 < earlier.toNat / 1000000 + 1420070400 := by
  have hsec : earlier.toNat / 1000000 ≤ later.toNat / 1000000 :=
    Nat.div_le_div_right (UInt64.le_iff_toNat_le.mp h)
  rw [UInt64.lt_iff_toNat_lt, toNat_gpsSigningTimestamp, toNat_gpsSigningTimestamp]
  generalize earlier.toNat / 1000000 = a at hsec ⊢
  generalize later.toNat / 1000000 = b at hsec ⊢
  split_ifs <;> omega

/-- A receiver that starts with the first day of GPS, in 1980, and then learns that it is 2024. -/
theorem gpsSigningTimestamp_backwards_first_day :
    gpsSigningTimestamp 1704067200000000 < gpsSigningTimestamp 315964800000000 :=
  (gpsSigningTimestamp_backwards_iff 315964800000000 1704067200000000 (by decide)).mpr (by decide)

namespace FlightController

variable {fc : FlightController n} {t u : UInt64}

theorem signingOf_eq_some {c : Fin n} {block : SigningBlock} : fc.signingOf c = some block ↔
    ∃ b d b', fc.chan c = some b ∧ b.channelStatus.signing = some d ∧ fc.chan d = some b' ∧
      b'.signing = block := by
  simp [signingOf, Option.bind_eq_some_iff]

theorem mem_timestamps : t ∈ fc.timestamps ↔
    ∃ c block, fc.signingOf c = some block ∧ block.timestamp = t := by
  simp [timestamps]

theorem timestamps_congr {fc' : FlightController n} (h : fc'.chan = fc.chan) :
    fc'.timestamps = fc.timestamps := by
  simp only [timestamps, signingOf, h]

theorem raiseTimestamp_storage (fc : FlightController n) (t : UInt64) (c : Fin n) :
    (fc.raiseTimestamp t c).signingStorage = fc.signingStorage := by
  unfold raiseTimestamp
  split
  · rfl
  · rfl

theorem mem_raiseTimestamp {c : Fin n} (h : u ∈ (fc.raiseTimestamp t c).timestamps) :
    u ∈ fc.timestamps ∨ u = t := by
  obtain ⟨d, block, hblock, rfl⟩ := mem_timestamps.mp h
  unfold raiseTimestamp at hblock
  split at hblock
  · exact .inl (mem_timestamps.mpr ⟨d, block, hblock, rfl⟩)
  · obtain ⟨b, e, b', hb, he, hb', rfl⟩ := signingOf_eq_some.mp hblock
    obtain ⟨a, ha, rfl⟩ := Option.map_eq_some_iff.mp hb
    obtain ⟨a', ha', rfl⟩ := Option.map_eq_some_iff.mp hb'
    have hstatus : a.channelStatus.signing = some e := by
      split_ifs at he <;> exact he
    split_ifs with hlater
    · exact .inr rfl
    · exact .inl (mem_timestamps.mpr
        ⟨d, a'.signing, signingOf_eq_some.mpr ⟨a, e, a', ha, hstatus, ha', rfl⟩, rfl⟩)

theorem le_raiseTimestamp (c : Fin n) (h : u ∈ fc.timestamps) :
    ∃ v ∈ (fc.raiseTimestamp t c).timestamps, u ≤ v := by
  unfold raiseTimestamp
  split
  · exact ⟨u, h, UInt64.le_refl u⟩
  · rename_i r _
    obtain ⟨d, block, hblock, rfl⟩ := mem_timestamps.mp h
    obtain ⟨b, e, b', hb, he, hb', rfl⟩ := signingOf_eq_some.mp hblock
    let raise (i : Fin n) (b : Backend n) : Backend n :=
      if i = r ∧ b.signing.timestamp < t then
        { b with signing := { b.signing with timestamp := t } }
      else b
    have hstatus : (raise d b).channelStatus.signing = some e := by
      rw [← he]
      dsimp only [raise]
      split_ifs <;> rfl
    have hle : b'.signing.timestamp ≤ (raise e b').signing.timestamp := by
      dsimp only [raise]
      split_ifs with hlater
      · exact UInt64.le_of_lt hlater.2
      · exact UInt64.le_refl _
    refine ⟨(raise e b').signing.timestamp, mem_timestamps.mpr ⟨d, (raise e b').signing,
      signingOf_eq_some.mpr ⟨raise d b, e, raise e b', ?_, hstatus, ?_, rfl⟩, rfl⟩, hle⟩
    · exact Option.map_eq_some_iff.mpr ⟨b, hb, rfl⟩
    · exact Option.map_eq_some_iff.mpr ⟨b', hb', rfl⟩

theorem foldl_raiseTimestamp (fc : FlightController n) (t : UInt64) (cs : List (Fin n)) :
    (cs.foldl (raiseTimestamp t) fc).signingStorage = fc.signingStorage ∧
      ∀ u ∈ fc.timestamps, ∃ v ∈ (cs.foldl (raiseTimestamp t) fc).timestamps, u ≤ v := by
  induction cs generalizing fc with
  | nil => exact ⟨rfl, fun u hu ↦ ⟨u, hu, UInt64.le_refl u⟩⟩
  | cons c cs ih =>
    obtain ⟨hst, hmem⟩ := ih (fc.raiseTimestamp t c)
    refine ⟨hst.trans (raiseTimestamp_storage fc t c), fun u hu ↦ ?_⟩
    obtain ⟨v, hv, huv⟩ := le_raiseTimestamp c hu
    obtain ⟨w, hw, hvw⟩ := hmem v hv
    exact ⟨w, hw, UInt64.le_trans huv hvw⟩

theorem enableSigningWithKey_storage (fc : FlightController n) (c : Fin n) (key : Bytes 32) :
    (fc.enableSigningWithKey c key 0 none).fc.signingStorage = fc.signingStorage := by
  cases ha : fc.softArmed with
  | true => rw [enableSigningWithKey_armed ha]
  | false => rw [enableSigningWithKey_disarmed ha]

/-- What the loop of `save_signing_timestamp` does to the key that was loaded. -/
structure LaterKey (fc : FlightController n) (cs : List (Fin n)) (key : SigningKey)
    (r : SigningKey × Bool) : Prop where
  magic : r.1.magic = key.magic
  le : key.timestamp ≤ r.1.timestamp
  links : ∀ c ∈ cs, ∀ block, fc.signingOf c = some block → block.timestamp ≤ r.1.timestamp
  same : r.2 = false → r.1 = key

theorem foldl_laterKey (fc : FlightController n) (key : SigningKey) (cs : List (Fin n)) :
    fc.LaterKey cs key (cs.foldl fc.laterKey (key, false)) := by
  induction cs using List.reverseRecOn with
  | nil => exact ⟨rfl, UInt64.le_refl _, by simp, fun _ ↦ rfl⟩
  | append_singleton cs c ih =>
    rw [List.foldl_concat]
    generalize cs.foldl fc.laterKey (key, false) = r at ih ⊢
    unfold laterKey
    split
    · rename_i hnone
      refine ⟨ih.magic, ih.le, fun d hd block hblock ↦ ?_, ih.same⟩
      rcases List.mem_append.mp hd with hd | hd
      · exact ih.links d hd block hblock
      · rw [List.mem_singleton.mp hd, hnone] at hblock
        exact nomatch hblock
    · rename_i last hlast
      have hmem {v : UInt64} (hv : r.1.timestamp ≤ v) (hl : last.timestamp ≤ v) :
          ∀ d ∈ cs ++ [c], ∀ block, fc.signingOf d = some block → block.timestamp ≤ v := by
        intro d hd block hblock
        rcases List.mem_append.mp hd with hd | hd
        · exact UInt64.le_trans (ih.links d hd block hblock) hv
        · rw [List.mem_singleton.mp hd, hlast] at hblock
          exact Option.some.inj hblock ▸ hl
      split_ifs with hlt
      · have hle := UInt64.le_of_lt hlt
        exact ⟨ih.magic, UInt64.le_trans ih.le hle, hmem hle (UInt64.le_refl _), fun h ↦ nomatch h⟩
      · exact ⟨ih.magic, ih.le, hmem (UInt64.le_refl _) (UInt64.not_lt.mp hlt), ih.same⟩

end FlightController

def SigningStorage.Valid (st : SigningStorage) : Prop :=
  signingKeySize ≤ st.size ∧ st.key.magic = signingKeyMagic

theorem signingKeyLoad_eq_some {st : SigningStorage} {io : StorageIo n} {i : Fin n}
    {key : SigningKey} : signingKeyLoad st io i = some key ↔
      st.Valid ∧ io.read i = true ∧ st.key = key := by
  unfold signingKeyLoad
  split_ifs with hsize hread hmagic
  · exact ⟨(fun h ↦ nomatch h), fun h ↦ absurd h.1.1 (Nat.not_le.mpr hsize)⟩
  · exact ⟨(fun h ↦ nomatch h), fun h ↦ by simp [h.2.1] at hread⟩
  · exact ⟨(fun h ↦ nomatch h), fun h ↦ absurd h.1.2 hmagic⟩
  · exact ⟨fun h ↦ ⟨⟨Nat.not_lt.mp hsize, not_not.mp hmagic⟩, by simpa using hread,
      Option.some.inj h⟩, fun h ↦ congrArg some h.2.2⟩

namespace SigningClock

variable {s : SigningClock n}

/-- What a save may change: the record gets later, in a storage that holds a key. -/
structure Saved (fc fc' : FlightController n) : Prop where
  chan : fc'.chan = fc.chan
  valid : fc'.signingStorage.Valid → fc.signingStorage.Valid
  le : fc.signingStorage.key.timestamp ≤ fc'.signingStorage.key.timestamp

theorem Saved.refl (fc : FlightController n) : Saved fc fc := ⟨rfl, id, UInt64.le_refl _⟩

theorem saved_of_laterKey {fc : FlightController n} {io : StorageIo 1} {r : SigningKey × Bool}
    (hv : fc.signingStorage.Valid) (hw : io.write = true)
    (hr : fc.LaterKey (List.finRange n) fc.signingStorage.key r) :
    let fc' := { fc with signingStorage := (signingKeySave fc.signingStorage io r.1).2 }
    Saved fc fc' ∧ fc'.signingStorage.key = r.1 := by
  have hsave : (signingKeySave fc.signingStorage io r.1).2 =
      { fc.signingStorage with key := r.1 } := by
    rw [signingKeySave, if_neg (Nat.not_lt.mpr hv.1), if_pos hw]
  dsimp only
  rw [hsave]
  exact ⟨⟨rfl, fun _ ↦ hv, hr.le⟩, rfl⟩

theorem saveSigningTimestamp_spec (now : UInt32) {io : StorageIo 1} (force : Bool)
    (hw : io.write = true) :
    Saved s.fc (s.saveSigningTimestamp now io force).fc ∧
      (force = true ∨ 30 * 1000 ≤ now - s.lastSigningSaveMs → io.read (Fin.last 0) = true →
        s.fc.signingStorage.Valid → ∀ t ∈ s.fc.timestamps,
          t ≤ (s.saveSigningTimestamp now io force).fc.signingStorage.key.timestamp) := by
  unfold saveSigningTimestamp
  split_ifs with hdue
  · refine ⟨.refl _, fun hsave ↦ ?_⟩
    obtain ⟨hforce, hsoon⟩ := (Bool.and_eq_true _ _).mp hdue
    rcases hsave with rfl | hlate
    · exact nomatch hforce
    · exact absurd (of_decide_eq_true hsoon) (UInt32.not_lt.mpr hlate)
  · dsimp only
    cases hload : signingKeyLoad s.fc.signingStorage io (Fin.last 0) with
    | none =>
      refine ⟨.refl _, fun _ hread hv ↦ ?_⟩
      rw [signingKeyLoad_eq_some.mpr ⟨hv, hread, rfl⟩] at hload
      exact nomatch hload
    | some key =>
      obtain ⟨hv, -, rfl⟩ := signingKeyLoad_eq_some.mp hload
      have hr := FlightController.foldl_laterKey s.fc s.fc.signingStorage.key (List.finRange n)
      dsimp only
      generalize (List.finRange n).foldl s.fc.laterKey (s.fc.signingStorage.key, false) = r at hr ⊢
      have hlinks : ∀ t ∈ s.fc.timestamps, t ≤ r.1.timestamp := by
        intro t ht
        obtain ⟨c, block, hblock, rfl⟩ := FlightController.mem_timestamps.mp ht
        exact hr.links c (List.mem_finRange c) block hblock
      split_ifs with hsave
      · obtain ⟨hsaved, hkey⟩ := saved_of_laterKey hv hw hr
        refine ⟨hsaved, fun _ _ _ t ht ↦ ?_⟩
        dsimp only at hkey ⊢
        rw [hkey]
        exact hlinks t ht
      · refine ⟨.refl _, fun _ _ _ t ht ↦ ?_⟩
        have hsame := hr.same (Bool.eq_false_iff.mpr hsave)
        rw [hsame] at hlinks
        exact hlinks t ht

end SigningClock

theorem Backend.loadSigningKey_of_none {b : Backend n} {st : SigningStorage} {io : StorageIo n}
    {i d : Fin n} (hb : b.channelStatus.signing = none)
    (h : (b.loadSigningKey st io i).channelStatus.signing = some d) :
    d = i ∧ st.Valid ∧
      (b.loadSigningKey st io i).signing.timestamp = st.key.timestamp + signingMinute := by
  unfold Backend.loadSigningKey at h ⊢
  by_cases hdis : b.mavlink2SigningDisabled = true
  · rw [if_pos hdis, hb] at h
    exact nomatch h
  · rw [if_neg hdis] at h ⊢
    cases hload : signingKeyLoad st io i with
    | none =>
      rw [hload] at h
      exact nomatch hb.symm.trans h
    | some key =>
      obtain ⟨hv, -, rfl⟩ := signingKeyLoad_eq_some.mp hload
      rw [hload] at h
      dsimp only at h ⊢
      split_ifs at h
      exact ⟨(Option.some.inj h).symm, hv, rfl⟩

theorem SigningClock.mem_restart {s : SigningClock n} {mavlink2 : Fin n → Bool} {io : StorageIo n}
    {t : UInt64} (h : t ∈ (s.restart mavlink2 io).fc.timestamps) :
    s.fc.signingStorage.Valid ∧ t = s.fc.signingStorage.key.timestamp + signingMinute := by
  obtain ⟨c, block, hblock, rfl⟩ := FlightController.mem_timestamps.mp h
  obtain ⟨b, d, b', hb, hd, hb', rfl⟩ := FlightController.signingOf_eq_some.mp hblock
  have hb₀ := hb
  obtain ⟨a, ha, rfl⟩ := Option.map_eq_some_iff.mp hb
  dsimp only at hd
  split_ifs at hd with hinit
  · obtain ⟨rfl, hv, htime⟩ := Backend.loadSigningKey_of_none rfl hd
    rw [hb₀] at hb'
    obtain rfl := Option.some.inj hb'
    dsimp only
    rw [if_pos hinit]
    exact ⟨hv, htime⟩

namespace SigningClock

variable {s : SigningClock n}

/-- The timestamp in the storage. -/
def record (s : SigningClock n) : UInt64 := s.fc.signingStorage.key.timestamp

/-- A timestamp is at most a minute past the record. -/
def Within (s : SigningClock n) (t : UInt64) : Prop :=
  t.toNat ≤ s.record.toNat + signingMinute.toNat

instance (s : SigningClock n) (t : UInt64) : Decidable (s.Within t) :=
  inferInstanceAs (Decidable (_ ≤ _))

/-- What is written is stored, and where the links lose their timestamps, none of these is more
than a minute past the record. -/
def KeepsRecord (s : SigningClock n) : SigningEvent n → Prop
  | .restart _ _ => ∀ t ∈ s.fc.timestamps, s.Within t
  | .gpsLock _ _ io => io.write = true
  | .heartbeat _ io => io.write = true
  | .traffic _ _ => True
  | .activate _ _ => ∀ t ∈ s.fc.timestamps, s.Within t

/-- The timestamps so far are at most a minute past the record, or at most one that a link has. -/
def Covered (s : SigningClock n) (ts : List UInt64) : Prop :=
  s.fc.signingStorage.Valid → ∀ t ∈ ts, s.Within t ∨ ∃ u ∈ s.fc.timestamps, t ≤ u

theorem Within.mono {s' : SigningClock n} {t : UInt64} (h : s.Within t)
    (hle : s.record ≤ s'.record) : s'.Within t :=
  Nat.le_trans h (Nat.add_le_add_right (UInt64.le_iff_toNat_le.mp hle) _)

theorem Within.of_le {t u : UInt64} (h : s.Within u) (hle : t ≤ u) : s.Within t :=
  Nat.le_trans (UInt64.le_iff_toNat_le.mp hle) h

theorem within_of_le {t : UInt64} (h : t ≤ s.record) : s.Within t :=
  Nat.le_trans (UInt64.le_iff_toNat_le.mp h) (Nat.le_add_right _ _)

theorem Covered.within {ts : List UInt64} (h : s.Covered ts) (hv : s.fc.signingStorage.Valid)
    (hlinks : ∀ t ∈ s.fc.timestamps, s.Within t) : ∀ t ∈ ts, s.Within t := by
  intro t ht
  rcases h hv t ht with hin | ⟨u, hu, hle⟩
  · exact hin
  · exact (hlinks u hu).of_le hle

theorem Covered.step_of {s' : SigningClock n} {ts : List UInt64} (h : s.Covered ts)
    (hv : s'.fc.signingStorage.Valid → s.fc.signingStorage.Valid) (hle : s.record ≤ s'.record)
    (hlinks : ∀ u ∈ s.fc.timestamps, s.Within u ∨ ∃ v ∈ s'.fc.timestamps, u ≤ v) :
    s'.Covered (ts ++ s'.fc.timestamps) := by
  intro hv' t ht
  rcases List.mem_append.mp ht with ht | ht
  · rcases h (hv hv') t ht with hin | ⟨u, hu, htu⟩
    · exact .inl (hin.mono hle)
    · rcases hlinks u hu with hin | ⟨v, hmem, huv⟩
      · exact .inl ((hin.of_le htu).mono hle)
      · exact .inr ⟨v, hmem, UInt64.le_trans htu huv⟩
  · exact .inr ⟨t, ht, UInt64.le_refl t⟩

theorem Covered.step {ts : List UInt64} (h : s.Covered ts) {e : SigningEvent n}
    (he : s.KeepsRecord e) : (s.step e).Covered (ts ++ (s.step e).fc.timestamps) := by
  cases e with
  | restart mavlink2 io =>
    exact h.step_of id (UInt64.le_refl _) fun u hu ↦ .inl (he u hu)
  | gpsLock timestampUsec now io =>
    obtain ⟨hst, hraise⟩ := FlightController.foldl_raiseTimestamp s.fc
      (gpsSigningTimestamp timestampUsec) (List.finRange n)
    obtain ⟨hsaved, -⟩ := saveSigningTimestamp_spec (s := { s with
      fc := (List.finRange n).foldl
        (FlightController.raiseTimestamp (gpsSigningTimestamp timestampUsec)) s.fc }) now true he
    refine h.step_of (fun hv ↦ ?_) ?_ fun u hu ↦ .inr ?_
    · exact hst ▸ hsaved.valid hv
    · refine UInt64.le_trans ?_ hsaved.le
      dsimp only
      rw [hst]
      exact UInt64.le_refl _
    · obtain ⟨v, hv, huv⟩ := hraise u hu
      exact ⟨v, (FlightController.timestamps_congr hsaved.chan).symm ▸ hv, huv⟩
  | heartbeat now io =>
    obtain ⟨hsaved, -⟩ := saveSigningTimestamp_spec (s := s) now false he
    refine h.step_of hsaved.valid hsaved.le fun u hu ↦ .inr ⟨u, ?_, UInt64.le_refl u⟩
    exact (FlightController.timestamps_congr hsaved.chan).symm ▸ hu
  | traffic c timestamp =>
    have hst := FlightController.raiseTimestamp_storage s.fc timestamp c
    refine h.step_of (fun hv ↦ ?_) ?_ fun u hu ↦ .inr (FlightController.le_raiseTimestamp c hu)
    · exact hst ▸ hv
    · rw [record, record, SigningClock.step, hst]
      exact UInt64.le_refl _
  | activate c key =>
    have hst := FlightController.enableSigningWithKey_storage s.fc c key
    refine h.step_of (fun hv ↦ ?_) ?_ fun u hu ↦ .inl (he u hu)
    · exact hst ▸ hv
    · rw [record, record, SigningClock.step, hst]
      exact UInt64.le_refl _

theorem covered_run {es : List (SigningEvent n)}
    (hg : (signingClock n).Guarded KeepsRecord s es) :
    ((signingClock n).final s es).Covered ((signingClock n).outputs s es) := by
  induction es using List.reverseRecOn with
  | nil => exact fun _ t ht ↦ nomatch ht
  | append_singleton es e ih =>
    obtain ⟨hg, he⟩ := Machine.guarded_snoc.mp hg
    rw [Machine.final_snoc, Machine.outputs_snoc]
    exact (ih hg).step he

theorem timestamps_subset_outputs {es : List (SigningEvent n)} (hs : s.fc.timestamps = []) :
    ∀ t ∈ ((signingClock n).final s es).fc.timestamps, t ∈ (signingClock n).outputs s es := by
  induction es using List.reverseRecOn with
  | nil =>
    intro t ht
    rw [Machine.final_nil, hs] at ht
    exact nomatch ht
  | append_singleton es e _ =>
    intro t ht
    rw [Machine.outputs_snoc]
    rw [Machine.final_snoc] at ht
    exact List.mem_append_right _ ht

theorem toNat_mem_restart {mavlink2 : Fin n → Bool} {io : StorageIo n} {u : UInt64}
    (hroom : s.record.toNat + signingMinute.toNat < UInt64.size)
    (h : u ∈ (s.restart mavlink2 io).fc.timestamps) :
    u.toNat = s.record.toNat + signingMinute.toNat := by
  rw [(mem_restart h).2, UInt64.toNat_add]
  exact Nat.mod_eq_of_lt hroom

end SigningClock

/-- After a run from the first start on, the links start again past every timestamp that one of them
has had, exactly when none has gone more than a minute past the record. -/
theorem restart_past_timestamps_iff (s : SigningClock n) (hs : s.fc.timestamps = [])
    (es : List (SigningEvent n)) (hg : (signingClock n).Guarded SigningClock.KeepsRecord s es)
    (hroom : ((signingClock n).final s es).record.toNat + signingMinute.toNat < UInt64.size)
    (mavlink2 : Fin n → Bool) (io : StorageIo n)
    (hload : (((signingClock n).final s es).restart mavlink2 io).fc.timestamps ≠ []) :
    (∀ t ∈ (signingClock n).outputs s es,
        ∀ u ∈ (((signingClock n).final s es).restart mavlink2 io).fc.timestamps, t ≤ u) ↔
      ∀ t ∈ ((signingClock n).final s es).fc.timestamps,
        ((signingClock n).final s es).Within t := by
  constructor
  · intro h t ht
    obtain ⟨u, hu⟩ := List.exists_mem_of_ne_nil _ hload
    have hle := h t (SigningClock.timestamps_subset_outputs hs t ht) u hu
    exact (UInt64.le_iff_toNat_le.mp hle).trans (SigningClock.toNat_mem_restart hroom hu).le
  · intro h t ht u hu
    have hin := (SigningClock.covered_run hg).within (SigningClock.mem_restart hu).1 h t ht
    rw [UInt64.le_iff_toNat_le]
    exact hin.trans (SigningClock.toNat_mem_restart hroom hu).ge

def sampleClock : SigningClock 1 :=
  ⟨{ sampleController 1 with
      signingStorage := ⟨signingKeySize, ⟨signingKeyMagic, 7, Bytes.zeros 32⟩⟩ }, 0⟩

def sampleStart : List (SigningEvent 1) :=
  [.restart (fun _ ↦ true) sampleStorageIo, .traffic (Fin.last 0) 6000008]

theorem sampleStart_guarded :
    (signingClock 1).Guarded SigningClock.KeepsRecord sampleClock sampleStart := by
  have hlinks : sampleClock.fc.timestamps = [] := rfl
  refine ⟨?_, trivial, trivial⟩
  change ∀ t ∈ sampleClock.fc.timestamps, _
  rw [hlinks]
  exact List.forall_mem_nil _

/-- A start, a frame and another start: the first heartbeat that saves is half a minute away, and
the link comes back before a timestamp that it has had. -/
theorem restart_past_timestamps_not_twice :
    ¬∀ t ∈ (signingClock 1).outputs sampleClock sampleStart,
      ∀ u ∈ (((signingClock 1).final sampleClock sampleStart).restart (fun _ ↦ true)
        sampleStorageIo).fc.timestamps, t ≤ u := by
  refine mt (restart_past_timestamps_iff sampleClock rfl sampleStart sampleStart_guarded
    (by decide +kernel) (fun _ ↦ true) sampleStorageIo (by decide +kernel)).mp ?_
  intro h
  exact absurd (h 6000008 (by decide +kernel)) (by decide +kernel)

/-- Half a minute after the last save the next heartbeat saves, and from then on the links may go a
minute further before a start. -/
theorem restart_past_saved (s : SigningClock n) (es : List (SigningEvent n))
    (hg : (signingClock n).Guarded SigningClock.KeepsRecord s es) (now : UInt32) (io : StorageIo 1)
    (hread : io.read 0 = true) (hwrite : io.write = true)
    (hdue : 30 * 1000 ≤ now - ((signingClock n).final s es).lastSigningSaveMs)
    (frames : List (Fin n × UInt64))
    (hframes : ∀ f ∈ frames, ((signingClock n).final s (es ++ [.heartbeat now io])).Within f.2)
    (hroom : ((signingClock n).final s (es ++ [.heartbeat now io])).record.toNat +
      signingMinute.toNat < UInt64.size) (mavlink2 : Fin n → Bool) (io' : StorageIo n) :
    let run := es ++ [.heartbeat now io] ++ frames.map fun f ↦ .traffic f.1 f.2
    ∀ t ∈ (signingClock n).outputs s run,
      ∀ u ∈ (((signingClock n).final s run).restart mavlink2 io').fc.timestamps, t ≤ u := by
  intro run t ht u hu
  have hrun : (signingClock n).Guarded SigningClock.KeepsRecord s run :=
    Machine.guarded_append.mpr ⟨Machine.guarded_snoc.mpr ⟨hg, hwrite⟩, Machine.guarded_of_forall
      fun e he _ ↦ by obtain ⟨f, -, rfl⟩ := List.mem_map.mp he; trivial⟩
  -- the frames leave the record alone, and take the links no further than `hframes` lets them
  have hkeep : ((signingClock n).final s run).fc.signingStorage =
        ((signingClock n).final s (es ++ [.heartbeat now io])).fc.signingStorage ∧
      (((signingClock n).final s run).fc.signingStorage.Valid →
        ∀ t ∈ ((signingClock n).final s run).fc.timestamps,
          ((signingClock n).final s (es ++ [.heartbeat now io])).Within t) := by
    clear ht hu hrun
    induction frames using List.reverseRecOn with
    | nil =>
      dsimp only [run]
      rw [List.map_nil, List.append_nil]
      refine ⟨rfl, fun hv t ht ↦ SigningClock.within_of_le ?_⟩
      obtain ⟨hsaved, hdone⟩ := SigningClock.saveSigningTimestamp_spec
        (s := (signingClock n).final s es) now false hwrite
      rw [Machine.final_snoc] at hv ht ⊢
      refine hdone (.inr hdue) hread (hsaved.valid hv) t ?_
      exact FlightController.timestamps_congr hsaved.chan ▸ ht
    | append_singleton frames f ih =>
      obtain ⟨hst, hin⟩ := ih fun g hg ↦ hframes g (List.mem_append_left _ hg)
      have hlast : (signingClock n).final s run = { (signingClock n).final s
          (es ++ [.heartbeat now io] ++ frames.map fun f ↦ .traffic f.1 f.2) with
        fc := ((signingClock n).final s (es ++ [.heartbeat now io] ++
          frames.map fun f ↦ .traffic f.1 f.2)).fc.raiseTimestamp f.2 f.1 } := by
        dsimp only [run]
        rw [List.map_append, ← List.append_assoc, List.map_singleton, Machine.final_snoc]
        rfl
      rw [hlast]
      dsimp only
      rw [FlightController.raiseTimestamp_storage]
      refine ⟨hst, fun hv t ht ↦ ?_⟩
      rcases FlightController.mem_raiseTimestamp ht with hold | rfl
      · exact hin hv t hold
      · exact hframes f (List.mem_append_right _ (List.mem_singleton_self f))
  obtain ⟨hst, hin⟩ := hkeep
  have hrecord : ((signingClock n).final s run).record =
      ((signingClock n).final s (es ++ [.heartbeat now io])).record :=
    congrArg (fun st ↦ st.key.timestamp) hst
  have hv := (SigningClock.mem_restart hu).1
  rw [← hrecord] at hroom
  have hwithin := (SigningClock.covered_run hrun).within hv (fun t ht ↦ by
    have h := hin hv t ht
    rwa [SigningClock.Within, ← hrecord] at h) t ht
  rw [UInt64.le_iff_toNat_le]
  exact hwithin.trans (SigningClock.toNat_mem_restart hroom hu).ge

theorem restart_past_saved_sample : (12000000 : UInt64) ∈ (signingClock 1).outputs sampleClock
      (sampleStart ++ [.heartbeat 30000 sampleStorageIo] ++ [.traffic 0 12000000]) ∧
    12000008 ∈ (((signingClock 1).final sampleClock
      (sampleStart ++ [.heartbeat 30000 sampleStorageIo] ++ [.traffic 0 12000000])).restart
        (fun _ ↦ true) sampleStorageIo).fc.timestamps ∧ (12000000 : UInt64) ≤ 12000008 := by
  have hsent : (12000000 : UInt64) ∈ (signingClock 1).outputs sampleClock
      (sampleStart ++ [.heartbeat 30000 sampleStorageIo] ++ [.traffic 0 12000000]) := by
    decide +kernel
  have hlink : 12000008 ∈ (((signingClock 1).final sampleClock
      (sampleStart ++ [.heartbeat 30000 sampleStorageIo] ++ [.traffic 0 12000000])).restart
        (fun _ ↦ true) sampleStorageIo).fc.timestamps := by
    decide +kernel
  exact ⟨hsent, hlink, restart_past_saved sampleClock sampleStart sampleStart_guarded 30000
    sampleStorageIo rfl rfl (by decide +kernel) [(0, 12000000)]
    (List.forall_mem_singleton.mpr (by decide +kernel)) (by decide +kernel) (fun _ ↦ true)
    sampleStorageIo _ hsent _ hlink⟩

end KemtlsMavlink
