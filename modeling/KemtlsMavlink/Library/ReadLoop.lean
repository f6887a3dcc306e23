import Mathlib.Data.List.TakeDrop

namespace KemtlsMavlink.Library

variable {β : Type*}

/-- How a call that asks for a number of elements can end. A call that brings
`data` brings what it was asked for at most. -/
inductive ReadResult (β : Type*)
  | interrupted
  | failed
  | data (bs : List β)

/-- The results of the successive calls to one source, interrupted finitely often. -/
structure Source (β : Type*) where
  result : Nat → ReadResult β
  settled : Nat
  settles : ∀ i ≥ settled, result i ≠ .interrupted

/-- A buffer that is being filled from its start on: the place of the next
element, and how many are wanted yet. -/
structure Filling (β : Type*) where
  buf : List β
  pos : Nat
  left : Nat

namespace Filling

def start (buf : List β) : Filling β := ⟨buf, 0, buf.length⟩

def store (f : Filling β) (bs : List β) : Filling β :=
  ⟨f.buf.take f.pos ++ bs ++ f.buf.drop (f.pos + bs.length), f.pos + bs.length,
    f.left - bs.length⟩

end Filling

/-- The elements that the first `m` calls bring, when `left` are wanted and each
call asks for those that are missing. -/
def delivered : Nat → (Nat → ReadResult β) → Nat → List β
  | 0, _, _ => []
  | m + 1, src, left =>
    match src 0 with
    | .data bs => bs.take left ++ delivered m (fun i ↦ src (i + 1)) (left - (bs.take left).length)
    | _ => delivered m (fun i ↦ src (i + 1)) left

/-- `while (left > 0)`: an interrupted call is made again, a failing one and one
that brings nothing end the loop. `none` when it has not ended within the fuel. -/
def fill : Nat → (Nat → ReadResult β) → Filling β → Option (Filling β)
  | 0, _, _ => none
  | fuel + 1, src, f =>
    if f.left = 0 then some f
    else
      match src 0 with
      | .interrupted => fill fuel (fun i ↦ src (i + 1)) f
      | .failed => some f
      | .data bs =>
        let bs := bs.take f.left
        if bs.isEmpty then some f else fill fuel (fun i ↦ src (i + 1)) (f.store bs)

theorem fill_isSome {fuel settled : Nat} {src : Nat → ReadResult β} {f : Filling β}
    (hs : ∀ i ≥ settled, src i ≠ .interrupted) (hfuel : f.left + settled < fuel) :
    (fill fuel src f).isSome := by
  induction fuel generalizing settled src f with
  | zero => exact absurd hfuel (Nat.not_lt_zero _)
  | succ fuel ih =>
    unfold fill
    split_ifs with hz
    · rfl
    · have hs' : ∀ i ≥ settled - 1, src (i + 1) ≠ .interrupted := fun i hi ↦ hs _ (by omega)
      split
      · rename_i hi
        have hpos : settled ≠ 0 := fun h ↦ hs 0 (by omega) hi
        exact ih hs' (by omega)
      · rfl
      · rename_i bs _
        dsimp only
        split_ifs with he
        · rfl
        · have hlen : 0 < (bs.take f.left).length := by
            rw [List.length_pos_iff]
            simpa using he
          apply ih hs'
          simp only [Filling.store]
          omega

namespace Source

variable (src : Source β) (f : Filling β)

theorem fill_isSome : (Library.fill (f.left + src.settled + 1) src.result f).isSome :=
  Library.fill_isSome src.settles (Nat.lt_succ_self _)

def fill : Filling β :=
  (Library.fill (f.left + src.settled + 1) src.result f).get (src.fill_isSome f)

end Source

end KemtlsMavlink.Library
