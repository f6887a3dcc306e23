import KemtlsMavlink.Library.Memory
import Mathlib.Algebra.Group.Nat.Defs

namespace KemtlsMavlink.Library

/-- What a step of a program on machine words and memory can do wrong. -/
inductive Fault
  | null | index | range | wrap | division

abbrev Checked := Except Fault

namespace Checked

variable {α β : Type}

def deref : Option α → Checked α
  | none => .error .null
  | some a => .ok a

def get (v : List α) (i : Nat) : Checked α :=
  match v[i]? with
  | none => .error .index
  | some a => .ok a

def set (v : List α) (i : Nat) (a : α) : Checked (List α) :=
  if i < v.length then .ok (v.set i a) else .error .index

/-- The `n` elements from `off` on lie inside the first `size`. -/
def range (off n size : Nat) : Checked Unit :=
  if off + n ≤ size then .ok () else .error .range

def load (b : Block) (off n : Nat) : Checked (List UInt8) := do
  range off n b.size
  .ok (b.read off n)

def store (b : Block) (off : Nat) (data : List UInt8) : Checked Block := do
  range off data.length b.size
  .ok (b.write off data)

def word (w n : Nat) : Checked Nat := if n < 2 ^ w then .ok n else .error .wrap

def sub (a b : Nat) : Checked Nat := if b ≤ a then .ok (a - b) else .error .wrap

def div (a b : Nat) : Checked Nat := if b = 0 then .error .division else .ok (a / b)

def mod (a b : Nat) : Checked Nat := if b = 0 then .error .division else .ok (a % b)

/-- How many elements pass a test. -/
def count (p : α → Checked Bool) : List α → Checked Nat
  | [] => .ok 0
  | a :: l => do
    let b ← p a
    let n ← count p l
    .ok (if b then n + 1 else n)

/-- The first element that passes a test; the elements after it are not tested. -/
def find (p : α → Checked Bool) : List α → Checked (Option α)
  | [] => .ok none
  | a :: l => do
    let b ← p a
    if b then .ok (some a) else find p l

@[simp] theorem ok_bind (a : α) (f : α → Checked β) :
    ((Except.ok a : Checked α) >>= f) = f a := rfl

@[simp] theorem deref_some (a : α) : deref (some a) = .ok a := rfl

theorem get_ok {v : List α} {i : Nat} (h : i < v.length) (d : α) :
    get v i = .ok (v.getD i d) := by
  simp [get, h, List.getD_eq_getElem?_getD]

theorem set_ok {v : List α} {i : Nat} (h : i < v.length) (a : α) :
    set v i a = .ok (v.set i a) := if_pos h

theorem range_ok {off n size : Nat} (h : off + n ≤ size) : range off n size = .ok () := if_pos h

theorem load_ok {b : Block} {off n : Nat} (h : off + n ≤ b.size) :
    load b off n = .ok (b.read off n) := by
  rw [load, range_ok h, ok_bind]

theorem store_ok {b : Block} {off : Nat} {data : List UInt8} (h : off + data.length ≤ b.size) :
    store b off data = .ok (b.write off data) := by
  rw [store, range_ok h, ok_bind]

theorem word_ok {w n : Nat} (h : n < 2 ^ w) : word w n = .ok n := if_pos h

theorem sub_ok {a b : Nat} (h : b ≤ a) : sub a b = .ok (a - b) := if_pos h

theorem div_ok (a : Nat) {b : Nat} (h : 0 < b) : div a b = .ok (a / b) :=
  if_neg (Nat.ne_of_gt h)

theorem mod_ok (a : Nat) {b : Nat} (h : 0 < b) : mod a b = .ok (a % b) :=
  if_neg (Nat.ne_of_gt h)

theorem count_ok {p : α → Checked Bool} {q : α → Bool} {l : List α}
    (h : ∀ a ∈ l, p a = .ok (q a)) : count p l = .ok (l.countP q) := by
  induction l with
  | nil => rfl
  | cons a l ih =>
    obtain ⟨ha, hl⟩ := List.forall_mem_cons.mp h
    rw [count, ha, ih hl, ok_bind, ok_bind, List.countP_cons]
    cases q a <;> rfl

theorem find_ok {p : α → Checked Bool} {q : α → Bool} {l : List α}
    (h : ∀ a ∈ l, p a = .ok (q a)) : find p l = .ok (l.find? q) := by
  induction l with
  | nil => rfl
  | cons a l ih =>
    obtain ⟨ha, hl⟩ := List.forall_mem_cons.mp h
    rw [find, ha, ih hl, ok_bind, List.find?_cons]
    cases q a <;> rfl

/-- The loop rule: when every round from a state that satisfies `I` is one of `g` and
keeps up `I`, then so is the whole loop. -/
theorem foldlM_ok {f : β → α → Checked β} {g : β → α → β} (I : β → Prop) {l : List α}
    (h : ∀ a ∈ l, ∀ b, I b → f b a = .ok (g b a) ∧ I (g b a)) {b : β} (hb : I b) :
    l.foldlM f b = .ok (l.foldl g b) ∧ I (l.foldl g b) := by
  induction l generalizing b with
  | nil => exact ⟨rfl, hb⟩
  | cons a l ih =>
    obtain ⟨ha, hl⟩ := List.forall_mem_cons.mp h
    obtain ⟨hf, hI⟩ := ha b hb
    rw [List.foldlM_cons, hf, ok_bind, List.foldl_cons]
    exact ih hl hI

end Checked

end KemtlsMavlink.Library
