import KemtlsMavlink.Library.PyBytes
import Mathlib.Tactic.SplitIfs

namespace KemtlsMavlink

open Library

inductive Proto
  | udp | tcp
  deriving DecidableEq, Repr

structure Datagram where
  proto : Proto
  src : String
  sport : Nat
  dst : String
  dport : Nat
  payload : List UInt8
  deriving DecidableEq, Repr

def fromBig (b : List UInt8) : Nat := ByteOrder.big.ofBytes b

def IsVlan (et : Nat) : Prop := et = 0x8100 ∨ et = 0x88A8

instance {et : Nat} : Decidable (IsVlan et) := inferInstanceAs (Decidable (_ ∨ _))

theorem fromBig_past {data : List UInt8} {off : Nat} (h : data.length < off) :
    ¬ IsVlan (fromBig (pySlice data (off + 2) (off + 4))) := by
  have hnil : pySlice data (off + 2) (off + 4) = [] := by
    apply List.length_eq_zero_iff.mp
    rw [length_pySlice]
    omega
  rw [hnil, fromBig, ByteOrder.ofBytes_nil]
  decide

def vlanLoop (data : List UInt8) (et off : Nat) : Nat × Nat :=
  if _h : IsVlan et then
    vlanLoop data (fromBig (pySlice data (off + 2) (off + 4))) (off + 4)
  else (et, off)
termination_by if IsVlan et then data.length + 4 - off + 1 else 0
decreasing_by
  rw [if_pos _h]
  split_ifs with hv
  · have hle : off ≤ data.length := Nat.not_lt.mp fun hlt ↦ fromBig_past hlt hv
    omega
  · exact Nat.succ_pos _

def linkLayer (lt : Int) (data : List UInt8) : Except PyError (Option (Nat × Nat)) :=
  if lt = 1 then return some (vlanLoop data (fromBig (pySlice data 12 14)) 14)
  else if lt = 113 then return some (fromBig (pySlice data 14 16), 16)
  else if lt = 276 then return some (fromBig (pySlice data 0 2), 20)
  else if lt = 101 then do
    let b ← pyIndex data 0
    return some (if b >>> 4 = 4 then 0x0800 else 0x86DD, 0)
  else if lt = 0 then
    let fam := ByteOrder.little.ofBytes (pySlice data 0 4)
    return some (if fam = 2 then 0x0800 else 0x86DD, 4)
  else return none

def dotted (bs : List UInt8) : String := ".".intercalate (bs.map fun b ↦ toString b.toNat)

def transport (proto : UInt8) (src dst : String) (seg : List UInt8) :
    Except PyError (Option Datagram) := do
  if proto = 17 ∧ 8 ≤ seg.length then
    let v ← structUnpack .big 2 3 (pySlice seg 0 6)
    let ulen := v[2]
    return some ⟨.udp, src, v[0], dst, v[1],
      if 8 ≤ ulen then pySlice seg 8 ulen else seg.drop 8⟩
  else if proto = 6 ∧ 20 ≤ seg.length then
    let v ← structUnpack .big 2 2 (pySlice seg 0 4)
    let b ← pyIndex seg 12
    return some ⟨.tcp, src, v[0], dst, v[1], seg.drop ((b >>> 4).toNat * 4)⟩
  else return none

def network (ip : List UInt8) : Except PyError (Option Datagram) := do
  let b ← pyIndex ip 0
  let ihl := (b &&& 0x0F).toNat * 4
  let proto ← pyIndex ip 9
  let src := dotted (pySlice ip 12 16)
  let dst := dotted (pySlice ip 16 20)
  let tot := fromBig (pySlice ip 2 4)
  let seg := if 0 < tot ∧ tot ≤ ip.length then pySlice ip ihl tot else ip.drop ihl
  transport proto src dst seg

def decodeTry (lt : Int) (data : List UInt8) : Except PyError (Option Datagram) := do
  match ← linkLayer lt data with
  | none => return none
  | some (et, off) => if et ≠ 0x0800 then return none else network (data.drop off)

/-- `decode`, where `except (IndexError, struct.error): pass` leads to the `return None`. -/
def decode (lt : Int) (data : List UInt8) : Except PyError (Option Datagram) :=
  match decodeTry lt data with
  | .error .indexError | .error .structError => .ok none
  | r => r

end KemtlsMavlink
