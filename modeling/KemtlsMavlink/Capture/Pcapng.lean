import KemtlsMavlink.Library.Binary64
import KemtlsMavlink.Library.PyBytes

namespace KemtlsMavlink

open Library

/-- The tuples that `read_pcapng` yields. -/
structure PcapPacket where
  timestamp : Option ℚ
  linktype : Nat
  data : List UInt8
  deriving DecidableEq

structure Iface where
  linktype : Nat
  tsresol : UInt8

/-- The variables of `read_pcapng` and the rest of its file. -/
structure PcapReader where
  endian : ByteOrder
  ifaces : List Iface
  file : List UInt8

def optionLoop (endian : ByteOrder) (opts : List UInt8) (tsresol : UInt8) (i : Nat) :
    Except PyError UInt8 :=
  if _h : i + 4 ≤ opts.length then do
    let v ← structUnpack endian 2 2 (pySlice opts i (i + 4))
    if v[0] = 0 then return tsresol
    let tsresol ← if v[0] = 9 ∧ 1 ≤ v[1] then pyIndex opts (i + 4) else pure tsresol
    optionLoop endian opts tsresol (i + 4 + (v[1] + 3) / 4 * 4)
  else return tsresol
termination_by opts.length - i

/-- `2 ** (tsresol & 0x7F)` or `10 ** tsresol`. -/
def tsDiv (tsresol : UInt8) : Nat :=
  if tsresol &&& 0x80 ≠ 0 then 2 ^ (tsresol &&& 0x7F).toNat else 10 ^ tsresol.toNat

def readBody (endian : ByteOrder) (ifaces : List Iface) (btype : Nat) (body : List UInt8) :
    Except PyError (Option PcapPacket × List Iface) :=
  if btype = 1 then do
    let v ← structUnpack endian 2 1 (pySlice body 0 2)
    let tsresol ← optionLoop endian (body.drop 8) 6 0
    return (none, ifaces ++ [⟨v[0], tsresol⟩])
  else if btype = 6 then do
    let v ← structUnpack endian 4 5 (pySlice body 0 20)
    let iface := ifaces.getD v[0] ⟨1, 6⟩
    -- the divisor is a float, so the count becomes one as well
    let timestamp := doubleDiv (v[1] <<< 32 ||| v[2]) (tsDiv iface.tsresol)
    return (some ⟨some timestamp, iface.linktype, pySlice body 20 (20 + v[3])⟩, ifaces)
  else if btype = 3 then
    let lt := match ifaces with
      | iface :: _ => iface.linktype
      | [] => 1
    return (some ⟨none, lt, body.drop 4⟩, ifaces)
  else return (none, ifaces)

/-- A turn of the loop of `read_pcapng`: what it yields, and what it leaves to the next turn;
`none` where it returns. -/
def readBlock (s : PcapReader) : Except PyError (Option (Option PcapPacket × PcapReader)) := do
  let (hdr, f) ← pyRead s.file 8
  if hdr.length < 8 then return none
  let btype ← structUnpack s.endian 4 1 (pySlice hdr 0 4)
  if btype[0] = 0x0A0D0D0A then
    let (bom, f) ← pyRead f 4
    let endian := if bom = [0x4d, 0x3c, 0x2b, 0x1a] then ByteOrder.little else .big
    let blen ← structUnpack endian 4 1 (pySlice hdr 4 8)
    let (_, f) ← pyRead f (blen[0] - 16)
    let (_, f) ← pyRead f 4
    return some (none, ⟨endian, [], f⟩)
  else
    let blen ← structUnpack s.endian 4 1 (pySlice hdr 4 8)
    if blen[0] < 12 then return none
    let (body, f) ← pyRead f (blen[0] - 12)
    let (_, f) ← pyRead f 4
    let (packet, ifaces) ← readBody s.endian s.ifaces btype[0] body
    return some (packet, ⟨s.endian, ifaces, f⟩)

variable {s t : PcapReader} {p : Option PcapPacket}

theorem readBlock_shortens (h : readBlock s = .ok (some (p, t))) :
    t.file.length < s.file.length := by
  obtain ⟨⟨hdr, f⟩, hhdr, h⟩ := bind_eq_ok.mp h
  have hlen := length_pyRead hhdr
  dsimp only at h
  by_cases hshort : hdr.length < 8
  · rw [if_pos hshort] at h
    cases h
  rw [if_neg hshort] at h
  obtain ⟨btype, -, h⟩ := bind_eq_ok.mp h
  by_cases hshb : btype[0] = 0x0A0D0D0A
  · rw [if_pos hshb] at h
    obtain ⟨⟨bom, f₁⟩, h₁, h⟩ := bind_eq_ok.mp h
    obtain ⟨blen, -, h⟩ := bind_eq_ok.mp h
    obtain ⟨⟨_, f₂⟩, h₂, h⟩ := bind_eq_ok.mp h
    obtain ⟨⟨_, f₃⟩, h₃, h⟩ := bind_eq_ok.mp h
    have hlen₁ := length_pyRead h₁
    have hlen₂ := length_pyRead h₂
    have hlen₃ := length_pyRead h₃
    cases h
    dsimp only at hlen₂ hlen₃ ⊢
    omega
  · rw [if_neg hshb] at h
    obtain ⟨blen, -, h⟩ := bind_eq_ok.mp h
    by_cases hsmall : blen[0] < 12
    · rw [if_pos hsmall] at h
      cases h
    rw [if_neg hsmall] at h
    obtain ⟨⟨body, f₁⟩, h₁, h⟩ := bind_eq_ok.mp h
    obtain ⟨⟨_, f₂⟩, h₂, h⟩ := bind_eq_ok.mp h
    obtain ⟨⟨_, _⟩, -, h⟩ := bind_eq_ok.mp h
    have hlen₁ := length_pyRead h₁
    have hlen₂ := length_pyRead h₂
    cases h
    dsimp only at hlen₂ ⊢
    omega

def readPcapngFrom (s : PcapReader) : Generated PcapPacket :=
  match _h : readBlock s with
  | .ok (some (packet, t)) =>
    let g := readPcapngFrom t
    ⟨packet.toList ++ g.items, g.raised⟩
  | .ok none => .done
  | .error err => ⟨[], some err⟩
termination_by s.file.length
decreasing_by exact readBlock_shortens _h

/-- `read_pcapng`, of a file with these bytes. -/
def readPcapng (file : List UInt8) : Generated PcapPacket :=
  readPcapngFrom ⟨.little, [], file⟩

theorem readPcapngFrom_turn (h : readBlock s = .ok (some (p, t))) :
    readPcapngFrom s =
      ⟨p.toList ++ (readPcapngFrom t).items, (readPcapngFrom t).raised⟩ := by
  rw [readPcapngFrom]
  split <;> rename_i heq <;> cases h.symm.trans heq
  rfl

theorem readPcapngFrom_end (h : readBlock s = .ok none) : readPcapngFrom s = .done := by
  rw [readPcapngFrom]
  split <;> rename_i heq <;> cases h.symm.trans heq
  rfl

end KemtlsMavlink
