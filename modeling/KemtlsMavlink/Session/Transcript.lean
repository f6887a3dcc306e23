import KemtlsMavlink.Session.Messages

namespace KemtlsMavlink

variable {ρ : Type} (P : Platform ρ)

def thUpdate (th : Bytes 32) (msg : List UInt8) : Bytes 32 :=
  if msg.length = 0 then P.sha256 th.toList else P.sha256 (th.toList ++ msg)

def thAddHello (th : Bytes 32) (m : Hello) : Bytes 32 :=
  let h := le32 61000 ++ le64 m.sessionId ++ le32 m.pkLen ++
    [m.version, m.suiteId, m.flags, m.aeadOffer]
  thUpdate P (thUpdate P (thUpdate P th h) m.handshakeSalt.toList) m.rc.toList

def thAddHelloAck (th : Bytes 32) (ack : HelloAck) : Bytes 32 :=
  let h := le32 61001 ++ le64 ack.sessionId ++
    [(ack.mtu &&& 0xFF).toUInt8, ((ack.mtu >>> 8) &&& 0xFF).toUInt8, ack.window,
      ack.requiredAlg, ack.accept, P.kexCode ack.status] ++ le32 ack.ctELen ++ le32 ack.ctSLen
  thUpdate P (thUpdate P th h) ack.rs.toList

def thAddPkSummary (th : Bytes 32) (sessionId : UInt64) (pkLen : UInt32) (sha : Bytes 32) :
    Bytes 32 :=
  let h := le32 61002 ++ le64 sessionId ++ le32 pkLen
  thUpdate P (thUpdate P th h) sha.toList

def thAddCtSummary (th : Bytes 32) (sessionId : UInt64) (kind : UInt8) (ctLen : UInt32)
    (sha : Bytes 32) : Bytes 32 :=
  let h := le32 61003 ++ le64 sessionId ++ [kind] ++ le32 ctLen
  thUpdate P (thUpdate P th h) sha.toList

/-- The tag has 32 bytes, so a longer `tag_len` hashes the same 32 here. -/
def thAddFinish (th : Bytes 32) (m : Finish) : Bytes 32 :=
  let h := le32 61005 ++ le64 m.sessionId ++ [m.role, m.tagLen]
  let th := thUpdate P th h
  if m.tagLen = 32 then thUpdate P th m.tag.toList
  else if m.tagLen > 0 then thUpdate P th (m.tag.toList.take m.tagLen.toNat)
  else th

def thAddAbort (th : Bytes 32) (sessionId : UInt64) (status : KexStatus) (detail : UInt8)
    (value : UInt32) : Bytes 32 :=
  thUpdate P th (le32 61006 ++ le64 sessionId ++ [P.kexCode status, detail] ++ le32 value)

inductive Record
  | hello (m : Hello)
  | helloAck (ack : HelloAck)
  | pkSummary (sessionId : UInt64) (pkLen : UInt32) (sha : Bytes 32)
  | ctSummary (sessionId : UInt64) (kind : UInt8) (ctLen : UInt32) (sha : Bytes 32)
  | finish (m : Finish)
  | abort (sessionId : UInt64) (status : KexStatus) (detail : UInt8) (value : UInt32)

def Record.absorb (th : Bytes 32) : Record → Bytes 32
  | .hello m => thAddHello P th m
  | .helloAck ack => thAddHelloAck P th ack
  | .pkSummary sessionId pkLen sha => thAddPkSummary P th sessionId pkLen sha
  | .ctSummary sessionId kind ctLen sha => thAddCtSummary P th sessionId kind ctLen sha
  | .finish m => thAddFinish P th m
  | .abort sessionId status detail value => thAddAbort P th sessionId status detail value

/-- The hash of a transcript: the fold of its records from 32 zero bytes. -/
def transcriptHash (rs : List Record) : Bytes 32 := rs.foldl (Record.absorb P) (Bytes.zeros 32)

end KemtlsMavlink
