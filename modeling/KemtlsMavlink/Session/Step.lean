import KemtlsMavlink.Library.Machine
import KemtlsMavlink.Session.Hello
import KemtlsMavlink.Session.PkChunk
import KemtlsMavlink.Session.CtAck
import KemtlsMavlink.Session.Tick
import KemtlsMavlink.Session.Finish

namespace KemtlsMavlink

open Library

variable {ρ : Type}

/-- What can reach the session of a channel: a decoded handshake message, or
the call of `tick` in `update_send`. -/
inductive Event
  | hello (m : Hello)
  | pkChunk (m : PkChunk)
  | ctAck (m : CtAck)
  | finish (m : Finish)
  | tick

def Event.IsHello : Event → Prop
  | .hello _ => True
  | _ => False

instance : DecidablePred Event.IsHello
  | .hello _ => isTrue trivial
  | .pkChunk _ | .ctAck _ | .finish _ | .tick => isFalse id

theorem Event.IsHello.exists {e : Event} (h : e.IsHello) : ∃ m, e = .hello m := by
  cases e with
  | hello m => exact ⟨m, rfl⟩
  | _ => exact absurd h id

structure Input (ρ : Type) where
  event : Event
  env : Env ρ

def handle (P : Platform ρ) (s : HqcSession) (i : Input ρ) : HqcSession × List Effect :=
  match i.event with
  | .hello m => handleHqcHello P i.env s m
  | .pkChunk m => handleHqcPkChunk P i.env s m
  | .ctAck m => handleHqcCtAck i.env s m
  | .finish m => handleHqcFinish P i.env s m
  | .tick => tick P i.env s

def session (P : Platform ρ) : Machine HqcSession (Input ρ) Effect := ⟨handle P⟩

end KemtlsMavlink
