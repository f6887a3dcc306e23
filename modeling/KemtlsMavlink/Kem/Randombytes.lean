import KemtlsMavlink.Library.ReadLoop
import KemtlsMavlink.Session.Crypto

namespace KemtlsMavlink

open Library

/-- What the system answers to one call of `randombytes`. Where the code is built
without `getrandom`, this is a source that fails at once. -/
structure EntropyIo where
  getrandom : Source UInt8
  openOk : Bool
  read : Source UInt8

def EntropyIo.fillDevice (io : EntropyIo) (f : Filling UInt8) : Filling UInt8 :=
  if io.openOk then io.read.fill f else f

/-- `randombytes` on a buffer, with the flag `s_entropy_failed`. -/
def randombytes (io : EntropyIo) (failed : Bool) (x : List UInt8) : List UInt8 × Bool :=
  if x.length = 0 then (x, failed)
  else
    let f := io.getrandom.fill (.start x)
    if f.left = 0 then (f.buf, failed)
    else
      let f := io.fillDevice f
      if f.left ≠ 0 then (List.replicate x.length 0, true) else (f.buf, failed)

/-- The call itself fails: it sets the flag where it was clear. -/
def randombytesFails (io : EntropyIo) (x : List UInt8) : Bool := (randombytes io false x).2

theorem randombytes_flag (io : EntropyIo) (failed : Bool) (x : List UInt8) :
    (randombytes io failed x).2 = (failed || randombytesFails io x) := by
  unfold randombytesFails randombytes
  dsimp only
  split_ifs <;> simp

end KemtlsMavlink
