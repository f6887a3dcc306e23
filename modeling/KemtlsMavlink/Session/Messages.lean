import KemtlsMavlink.Session.Crypto

namespace KemtlsMavlink

open Library

structure Hello where
  sessionId : UInt64
  pkLen : UInt32
  version : UInt8
  suiteId : UInt8
  flags : UInt8
  aeadOffer : UInt8
  handshakeSalt : Bytes 16
  rc : Bytes 32

structure HelloAck where
  sessionId : UInt64
  mtu : UInt16
  window : UInt8
  requiredAlg : UInt8
  accept : UInt8
  status : KexStatus
  ctELen : UInt32
  ctSLen : UInt32
  rs : Bytes 32

structure PkChunk where
  sessionId : UInt64
  offset : UInt32
  count : UInt16
  data : Bytes 220

structure CtAck where
  sessionId : UInt64
  ctKind : UInt8
  base : UInt32
  mask : UInt32

structure Finish where
  sessionId : UInt64
  role : UInt8
  tagLen : UInt8
  tag : Bytes 32

structure CtChunk where
  sessionId : UInt64
  ctKind : UInt8
  offset : Nat
  count : Nat
  data : List UInt8

inductive Severity
  | error | warning | info
  deriving DecidableEq, Repr

inductive TextArg
  | num (n : Nat)
  | hex (bytes : List UInt8)

/-- What a handler does besides changing its session: the messages it sends on
its own channel, the file handles it opens and closes, and its calls of
`memcpy` into the two public-key buffers, of `ap_kem_enc` (with the kind of the
ciphertext, the key buffer as it was and the result) and of
`enable_signing_with_key`. -/
inductive Effect
  | helloAck (ack : HelloAck)
  | pkAck (sessionId : UInt64) (base : Nat) (mask : UInt32)
  | ctChunk (c : CtChunk)
  | hqcStatus (sessionId : UInt64) (value : Nat) (status : KexStatus) (detail : UInt8)
  | hqcAbort (sessionId : UInt64) (status : KexStatus) (detail : UInt8) (value : Nat)
  | sendText (severity : Severity) (fmt : String) (args : List TextArg)
  | fsOpen
  | fsClose
  | pkeCopy (offset : Nat) (data : List UInt8)
  | pksStore (offset count : Nat)
  | apKemEnc (kind : UInt8) (pk : Block) (ok : Bool)
  | enableSigningWithKey (key : Bytes 32)

end KemtlsMavlink
