import KemtlsMavlink.Library.LittleEndian
import Mathlib.Tactic.SplitIfs

namespace KemtlsMavlink.Library

/-! Byte strings and generators as Python has them. -/

inductive PyError
  | indexError | structError | valueError
  deriving DecidableEq, Repr

/-- `data[i]`, for an index that is not negative. -/
def pyIndex (data : List UInt8) (i : Nat) : Except PyError UInt8 :=
  match data[i]? with
  | some b => .ok b
  | none => .error .indexError

def pySlice (data : List UInt8) (a b : Nat) : List UInt8 := (data.take b).drop a

inductive ByteOrder
  | little | big
  deriving DecidableEq, Repr

namespace ByteOrder

def ofBytes : ByteOrder → List UInt8 → Nat
  | .little, bs => leNat bs
  | .big, bs => leNat bs.reverse

def toBytes : ByteOrder → Nat → Nat → List UInt8
  | .little, n, v => leBytes n v
  | .big, n, v => (leBytes n v).reverse

variable (o : ByteOrder) {n v : Nat}

@[simp] theorem length_toBytes (n v : Nat) : (o.toBytes n v).length = n := by
  cases o <;> simp [toBytes]

theorem ofBytes_toBytes (h : v < 256 ^ n) : o.ofBytes (o.toBytes n v) = v := by
  cases o with
  | little => exact leNat_leBytes h
  | big => rw [toBytes, ofBytes, List.reverse_reverse, leNat_leBytes h]

@[simp] theorem ofBytes_nil : o.ofBytes [] = 0 := by cases o <;> rfl

end ByteOrder

def structUnpack (o : ByteOrder) (size count : Nat) (data : List UInt8) :
    Except PyError (Vector Nat count) :=
  if data.length = size * count then
    .ok (Vector.ofFn fun i ↦ o.ofBytes ((data.drop (size * i)).take size))
  else .error .structError

def pyRead (file : List UInt8) (n : Int) : Except PyError (List UInt8 × List UInt8) :=
  if n < -1 then .error .valueError
  else if n = -1 then .ok (file, [])
  else .ok (file.splitAt n.toNat)

/-- What a generator yields, and the exception that ends it, if one does. -/
structure Generated (α : Type*) where
  items : List α
  raised : Option PyError

namespace Generated

variable {α : Type*}

def done : Generated α := ⟨[], none⟩

def yielding (a : α) (g : Generated α) : Generated α := ⟨a :: g.items, g.raised⟩

def ofExcept : Except PyError (Generated α) → Generated α
  | .ok g => g
  | .error err => ⟨[], some err⟩

@[simp] theorem ofExcept_ok (g : Generated α) : ofExcept (.ok g) = g := rfl

end Generated

variable {data : List UInt8} {a b i k : Nat}

theorem pyIndex_of_lt (h : i < data.length) : pyIndex data i = .ok data[i] := by
  rw [pyIndex, List.getElem?_eq_getElem h]

@[simp] theorem length_pySlice : (pySlice data a b).length = min b data.length - a := by
  rw [pySlice, List.length_drop, List.length_take]

theorem pySlice_append (as bs cs : List UInt8) :
    pySlice (as ++ bs ++ cs) as.length (as.length + bs.length) = bs := by
  rw [pySlice, ← List.length_append, List.take_left, List.drop_left]

theorem pySlice_of_eq (as bs cs : List UInt8) {a b : Nat} (h : data = as ++ bs ++ cs)
    (ha : as.length = a) (hb : a + bs.length = b) : pySlice data a b = bs := by
  rw [h, ← hb, ← ha, pySlice_append]

theorem pyIndex_of_eq (as : List UInt8) (b : UInt8) (cs : List UInt8) {a : Nat}
    (h : data = as ++ b :: cs) (ha : as.length = a) : pyIndex data a = .ok b := by
  rw [h, ← ha, pyIndex, List.getElem?_append_right (Nat.le_refl _), Nat.sub_self]
  rfl

theorem bind_eq_ok {ε α β : Type} {x : Except ε α} {f : α → Except ε β} {b : β} :
    (x >>= f) = .ok b ↔ ∃ a, x = .ok a ∧ f a = .ok b := by
  cases x with
  | ok a => exact ⟨fun h ↦ ⟨a, rfl, h⟩, fun ⟨_, ha, h⟩ ↦ Except.ok.inj ha ▸ h⟩
  | error err => exact ⟨fun h ↦ (nomatch h), fun ⟨_, ha, _⟩ ↦ (nomatch ha)⟩

theorem length_pyRead {file got rest : List UInt8} {n : Int}
    (h : pyRead file n = .ok (got, rest)) : got.length + rest.length = file.length := by
  rw [pyRead] at h
  split_ifs at h
  · cases h
    rfl
  · rw [List.splitAt_eq] at h
    cases h
    rw [← List.length_append, List.take_append_drop]

theorem pyRead_append (got rest : List UInt8) {n : Int} (h : got.length = n) :
    pyRead (got ++ rest) n = .ok (got, rest) := by
  rw [← h, pyRead, if_neg (by omega), if_neg (by omega), List.splitAt_eq, Int.toNat_natCast,
    List.take_left, List.drop_left]

theorem take_drop_flatMap {f : Nat → List UInt8} {n : Nat} (hf : ∀ v, (f v).length = n)
    {vs : List Nat} (hi : i < vs.length) (rest : List UInt8) :
    ((vs.flatMap f ++ rest).drop (n * i)).take n = f vs[i] := by
  induction vs generalizing i with
  | nil => simp at hi
  | cons v vs ih =>
    rw [List.flatMap_cons, List.append_assoc]
    cases i with
    | zero => rw [Nat.mul_zero, List.drop_zero, List.take_left' (hf v), List.getElem_cons_zero]
    | succ i =>
      rw [Nat.mul_succ, Nat.add_comm, ← List.drop_drop, List.drop_left' (hf v)]
      exact ih (Nat.lt_of_succ_lt_succ hi)

theorem structUnpack_toBytes (o : ByteOrder) (size : Nat) {count : Nat} (vs : Vector Nat count)
    (h : ∀ v ∈ vs.toList, v < 256 ^ size) :
    structUnpack o size count (vs.toList.flatMap (o.toBytes size)) = .ok vs := by
  have hl : (vs.toList.flatMap (o.toBytes size)).length = size * count := by
    simp [List.length_flatMap, Nat.mul_comm]
  rw [structUnpack, if_pos hl]
  congr 1
  apply Vector.ext
  intro i hi
  have hlt : i < vs.toList.length := by simpa using hi
  have hblock := take_drop_flatMap (fun v ↦ o.length_toBytes size v) hlt []
  rw [List.append_nil] at hblock
  rw [Vector.getElem_ofFn, hblock, o.ofBytes_toBytes (h _ (List.getElem_mem hlt)),
    Vector.getElem_toList]

theorem structUnpack_single (o : ByteOrder) (size : Nat) {v : Nat} (h : v < 256 ^ size) :
    structUnpack o size 1 (o.toBytes size v) = .ok #v[v] := by
  rw [← structUnpack_toBytes o size #v[v] (by simpa using h)]
  simp

theorem structUnpack_pair (o : ByteOrder) (size : Nat) {a b : Nat} (ha : a < 256 ^ size)
    (hb : b < 256 ^ size) :
    structUnpack o size 2 (o.toBytes size a ++ o.toBytes size b) = .ok #v[a, b] := by
  rw [← structUnpack_toBytes o size #v[a, b] (by simp [ha, hb])]
  simp

end KemtlsMavlink.Library
