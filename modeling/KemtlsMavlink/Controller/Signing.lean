import KemtlsMavlink.Session.Step

namespace KemtlsMavlink

open Library

variable {n : Nat}

/-- `mavlink_signing_t`, with whether the callback is `accept_unsigned_callback`
or null. -/
structure SigningBlock where
  flags : UInt8
  linkId : UInt8
  timestamp : UInt64
  secretKey : Bytes 32
  acceptUnsignedCallback : Bool

/-- The signing pointers of a channel status: the channel whose block it points
at, and whether it points at the shared streams. -/
structure ChannelStatus (n : Nat) where
  signing : Option (Fin n)
  signingStreams : Bool

structure Backend (n : Nat) where
  hqc : HqcSession
  signing : SigningBlock
  channelStatus : ChannelStatus n
  mavlink2SigningDisabled : Bool

structure SigningKey where
  magic : UInt32
  timestamp : UInt64
  secretKey : Bytes 32

def signingKeyMagic : UInt32 := 0x3852fcd1

/-- `sizeof(SigningKey)`, padding included. -/
def signingKeySize : Nat := 48

structure SigningStorage where
  size : Nat
  key : SigningKey

/-- What the storage answers to one write and to the read of each channel, and
what it holds after a write that fails. -/
structure StorageIo (n : Nat) where
  write : Bool
  torn : SigningKey
  read : Fin n → Bool

/-- `n` is `MAVLINK_COMM_NUM_BUFFERS`, and `chan` is `gcs().chan()`. -/
structure FlightController (n : Nat) where
  chan : Fin n → Option (Backend n)
  softArmed : Bool
  signingStorage : SigningStorage

structure SetupSigning where
  initialTimestamp : UInt64
  secretKey : Bytes 32

def mavlinkSigningFlagSignOutgoing : UInt8 := 1

def signingMinute : UInt64 := 60 * 100 * 1000

def signingKeySave (st : SigningStorage) (io : StorageIo n) (key : SigningKey) :
    Bool × SigningStorage :=
  if st.size < signingKeySize then (false, st)
  else if io.write then (true, { st with key := key })
  else (false, { st with key := io.torn })

def signingKeyLoad (st : SigningStorage) (io : StorageIo n) (i : Fin n) : Option SigningKey :=
  if st.size < signingKeySize then none
  else if !io.read i then none
  else if st.key.magic ≠ signingKeyMagic then none
  else some st.key

namespace Backend

def loadSigningKey (st : SigningStorage) (io : StorageIo n) (i : Fin n) (b : Backend n) :
    Backend n :=
  if b.mavlink2SigningDisabled then b
  else
    match signingKeyLoad st io i with
    | none => b
    | some key =>
      let signing : SigningBlock := {
        secretKey := key.secretKey
        linkId := UInt8.ofNat i
        timestamp := key.timestamp + signingMinute
        flags := mavlinkSigningFlagSignOutgoing
        acceptUnsignedCallback := true }
      let allZero := key.timestamp = 0 && key.secretKey.toList.all (· = 0)
      { b with
        signing := signing
        channelStatus := if allZero then ⟨none, false⟩ else ⟨some i, true⟩ }

def activateSigning (key : Bytes 32) (initialTimestamp : UInt64) (i : Fin n) (b : Backend n) :
    Backend n :=
  { b with
    signing := {
      secretKey := key
      linkId := UInt8.ofNat i
      timestamp := initialTimestamp + signingMinute
      flags := mavlinkSigningFlagSignOutgoing
      acceptUnsignedCallback := true }
    channelStatus := ⟨some i, true⟩ }

end Backend

structure SigningResult (n : Nat) where
  ok : Bool
  fc : FlightController n
  texts : List Effect

namespace FlightController

def signingEnabled (fc : FlightController n) (c : Fin n) : Bool :=
  match (fc.chan c).bind fun b ↦ b.channelStatus.signing.bind fc.chan with
  | none => false
  | some b => b.signing.flags &&& mavlinkSigningFlagSignOutgoing ≠ 0

/-- `enable_signing_with_key` on the channel `c`. With persistence it takes what
the storage answers. -/
def enableSigningWithKey (fc : FlightController n) (c : Fin n) (key : Bytes 32)
    (initialTimestamp : UInt64) (persist : Option (StorageIo n)) : SigningResult n :=
  if fc.softArmed then
    ⟨false, fc, [.sendText .warning "ERROR: Won't setup signing when armed" []]⟩
  else
    let saved := match persist with
      | none => (true, fc.signingStorage)
      | some io => signingKeySave fc.signingStorage io ⟨signingKeyMagic, initialTimestamp, key⟩
    let fc := { fc with signingStorage := saved.2 }
    if !saved.1 then
      ⟨false, fc, [.sendText .warning "ERROR: Failed to save signing key" []]⟩
    else
      let fc := { fc with
        chan := fun i ↦ (fc.chan i).map fun b ↦
          match persist with
          | none => b.activateSigning key initialTimestamp i
          | some io => b.loadSigningKey fc.signingStorage io i }
      ⟨true, fc, [.sendText .warning
        (if fc.signingEnabled c then "Signing enabled" else "ERROR: Failed enable signing") []]⟩

/-- `handle_setup_signing`. The loop over the links ends at the first one without
a backend. -/
def handleSetupSigning (fc : FlightController n) (m : SetupSigning) (io : StorageIo n) :
    FlightController n × List Effect :=
  if fc.softArmed then
    (fc, [.sendText .warning "ERROR: Won't setup signing when armed" []])
  else
    let saved := signingKeySave fc.signingStorage io
      ⟨signingKeyMagic, m.initialTimestamp, m.secretKey⟩
    let fc := { fc with signingStorage := saved.2 }
    if !saved.1 then (fc, [.sendText .warning "ERROR: Failed to save signing key" []])
    else
      ({ fc with
        chan := fun i ↦ (fc.chan i).map fun b ↦
          if ∀ j ≤ i, (fc.chan j).isSome then b.loadSigningKey fc.signingStorage io i else b }, [])

end FlightController

end KemtlsMavlink
