import KemtlsMavlink.Capture.Pcapng

namespace KemtlsMavlink

open Library

structure Padded where
  data : List UInt8
  padding : List UInt8
  length_padding : padding.length = (4 - data.length % 4) % 4

def Padded.bytes (b : Padded) : List UInt8 := b.data ++ b.padding

structure IfOption where
  code : UInt16
  value : Padded
  code_ne : code ≠ 0
  length_lt : value.data.length < 2 ^ 16

/-- An interface description, whose options end with `opt_endofopt` or with the block. -/
structure InterfaceDescription where
  linktype : UInt16
  reserved : UInt16
  snaplen : UInt32
  options : List IfOption
  endofopt : Bool

/-- The blocks of a section after its header; the count of an enhanced packet block is its
timestamp. -/
inductive PcapBlock
  | interface (d : InterfaceDescription)
  | enhanced (iface : UInt32) (count : UInt64) (origlen : UInt32) (packet : Padded)
    (options : List UInt8)
  | simple (origlen : UInt32) (packet : Padded)
  | other (btype : UInt32) (body : List UInt8)

variable (o : ByteOrder)

def IfOption.bytes (opt : IfOption) : List UInt8 :=
  o.toBytes 2 opt.code.toNat ++ o.toBytes 2 opt.value.data.length ++ opt.value.bytes

def IfOption.tsresol? (opt : IfOption) : Option UInt8 :=
  if opt.code = 9 then opt.value.data.head? else none

namespace InterfaceDescription

variable (d : InterfaceDescription)

def optionBytes : List UInt8 :=
  d.options.flatMap (IfOption.bytes o) ++ if d.endofopt then [0, 0, 0, 0] else []

def tsresol : UInt8 := (d.options.filterMap IfOption.tsresol?).getLastD 6

def resolution : Nat :=
  if d.tsresol.toNat < 128 then 10 ^ d.tsresol.toNat else 2 ^ (d.tsresol.toNat - 128)

def iface : Iface := ⟨d.linktype.toNat, d.tsresol⟩

end InterfaceDescription

structure Captured where
  interface : InterfaceDescription
  count : Option UInt64
  packet : Padded

namespace PcapBlock

def btype : PcapBlock → Nat
  | interface _ => 1
  | enhanced .. => 6
  | simple .. => 3
  | other t _ => t.toNat

def body : PcapBlock → List UInt8
  | interface d => o.toBytes 2 d.linktype.toNat ++ o.toBytes 2 d.reserved.toNat ++
      o.toBytes 4 d.snaplen.toNat ++ d.optionBytes o
  | enhanced iface count origlen packet options =>
      [iface.toNat, count.toNat / 2 ^ 32, count.toNat % 2 ^ 32, packet.data.length,
        origlen.toNat].flatMap (o.toBytes 4) ++ packet.bytes ++ options
  | simple origlen packet => o.toBytes 4 origlen.toNat ++ packet.bytes
  | other _ body => body

def bytes (b : PcapBlock) : List UInt8 :=
  o.toBytes 4 b.btype ++ o.toBytes 4 ((b.body o).length + 12) ++ b.body o ++
    o.toBytes 4 ((b.body o).length + 12)

def interfaces (seen : List InterfaceDescription) : PcapBlock → List InterfaceDescription
  | interface d => seen ++ [d]
  | _ => seen

def isPacket : PcapBlock → Bool
  | enhanced .. | simple .. => true
  | interface _ | other .. => false

def captured (seen : List InterfaceDescription) : PcapBlock → Option Captured
  | enhanced iface count _ packet _ => seen[iface.toNat]?.map fun d ↦ ⟨d, some count, packet⟩
  | simple _ packet => seen.head?.map fun d ↦ ⟨d, none, packet⟩
  | _ => none

/-- The length fits its field, the block of a packet comes after the description of its
interface, and the block is no section header. -/
def WellFormed (seen : List InterfaceDescription) (b : PcapBlock) : Prop :=
  (b.body o).length + 12 < 2 ^ 32 ∧
    match b with
    | interface _ => True
    | enhanced iface .. => iface.toNat < seen.length
    | simple .. => seen ≠ []
    | other t _ => t ∉ ([1, 3, 6, 0x0A0D0D0A] : List UInt32)

end PcapBlock

def WellFormedBlocks (seen : List InterfaceDescription) : List PcapBlock → Prop
  | [] => True
  | b :: bs => b.WellFormed o seen ∧ WellFormedBlocks (b.interfaces seen) bs

def capturedIn (seen : List InterfaceDescription) : List PcapBlock → List Captured
  | [] => []
  | b :: bs => (b.captured seen).toList ++ capturedIn (b.interfaces seen) bs

/-- The header of a section begins with the byte-order magic; its versions, section length and
options are not read. -/
structure PcapSection where
  order : ByteOrder
  header : List UInt8
  blocks : List PcapBlock
  header_lt : header.length + 16 < 2 ^ 32
  wellFormed : WellFormedBlocks order [] blocks

namespace PcapSection

def headerBytes (s : PcapSection) : List UInt8 :=
  s.order.toBytes 4 0x0A0D0D0A ++ s.order.toBytes 4 (s.header.length + 16) ++
    s.order.toBytes 4 0x1A2B3C4D ++ s.header ++ s.order.toBytes 4 (s.header.length + 16)

def bytes (s : PcapSection) : List UInt8 :=
  s.headerBytes ++ s.blocks.flatMap (PcapBlock.bytes s.order)

def captured (s : PcapSection) : List Captured := capturedIn [] s.blocks

end PcapSection

def packetsOf (file : List PcapSection) : List Captured := file.flatMap PcapSection.captured

def fileBytes (file : List PcapSection) : List UInt8 := file.flatMap PcapSection.bytes

theorem high_bit (r : UInt8) : (r &&& 0x80 ≠ 0 ↔ ¬ r.toNat < 128) ∧
    (¬ r.toNat < 128 → (r &&& 0x7F).toNat = r.toNat - 128) := by
  obtain ⟨⟨r⟩⟩ := r
  revert r
  decide +kernel

theorem tsDiv_tsresol (d : InterfaceDescription) : tsDiv d.tsresol = d.resolution := by
  obtain ⟨hhigh, hlow⟩ := high_bit d.tsresol
  rw [tsDiv, InterfaceDescription.resolution]
  by_cases h : d.tsresol.toNat < 128
  · rw [if_pos h, if_neg fun hne ↦ hhigh.mp hne h]
  · rw [if_neg h, if_pos (hhigh.mpr h), hlow h]

theorem resolution_pos (d : InterfaceDescription) : 0 < d.resolution := by
  rw [InterfaceDescription.resolution]
  split_ifs <;> positivity

theorem resolution_le (d : InterfaceDescription) :
    d.resolution ≤ 2 ^ (4 * d.tsresol.toNat) := by
  rw [InterfaceDescription.resolution]
  split_ifs with h
  · calc 10 ^ d.tsresol.toNat ≤ (2 ^ 4) ^ d.tsresol.toNat :=
          Nat.pow_le_pow_left (by norm_num) _
      _ = 2 ^ (4 * d.tsresol.toNat) := (Nat.pow_mul ..).symm
  · exact Nat.pow_le_pow_right two_pos (by omega)

theorem isDoubleQuotient_resolution (count : UInt64) (d : InterfaceDescription) :
    IsDoubleQuotient count.toNat d.resolution (doubleDiv count.toNat d.resolution) := by
  have hr := d.tsresol.toNat_lt
  exact isDoubleQuotient_doubleDiv _ (resolution_pos d) (resolution_le d) (by omega)

theorem Padded.length_bytes (b : Padded) : b.bytes.length = (b.data.length + 3) / 4 * 4 := by
  rw [Padded.bytes, List.length_append, b.length_padding]
  omega

theorem IfOption.length_bytes (opt : IfOption) :
    (opt.bytes o).length = 4 + (opt.value.data.length + 3) / 4 * 4 := by
  rw [IfOption.bytes, List.length_append, Padded.length_bytes]
  simp

theorem optionLoop_option (opt : IfOption) (pre rest : List UInt8) (r : UInt8) :
    optionLoop o (pre ++ opt.bytes o ++ rest) r pre.length =
      optionLoop o (pre ++ opt.bytes o ++ rest) (opt.tsresol?.getD r)
        (pre ++ opt.bytes o).length := by
  have hcode : opt.code.toNat ≠ 0 := fun h ↦ opt.code_ne (UInt16.toNat_inj.mp h)
  have hlen := opt.length_bytes o
  have hslice : pySlice (pre ++ opt.bytes o ++ rest) pre.length (pre.length + 4) =
      o.toBytes 2 opt.code.toNat ++ o.toBytes 2 opt.value.data.length :=
    pySlice_of_eq pre _ (opt.value.bytes ++ rest) (by simp [IfOption.bytes]) rfl (by simp)
  have hunpack := structUnpack_pair o 2 opt.code.toNat_lt opt.length_lt
  rw [optionLoop, dif_pos (by simp only [List.length_append]; omega), hslice, hunpack]
  let next r' := optionLoop o (pre ++ opt.bytes o ++ rest) r'
    (pre.length + 4 + (opt.value.data.length + 3) / 4 * 4)
  change (if opt.code.toNat = 0 then _ else
    if opt.code.toNat = 9 ∧ 1 ≤ opt.value.data.length then
      pyIndex (pre ++ opt.bytes o ++ rest) (pre.length + 4) >>= next
    else next r) = _
  rw [if_neg hcode, List.length_append, hlen, ← Nat.add_assoc]
  change _ = next _
  by_cases h9 : opt.code = 9
  · rw [IfOption.tsresol?, if_pos h9]
    cases hdata : opt.value.data with
    | nil =>
      rw [if_neg (by simp)]
      rfl
    | cons b bs =>
      have hindex : pyIndex (pre ++ opt.bytes o ++ rest) (pre.length + 4) = .ok b :=
        pyIndex_of_eq (pre ++ o.toBytes 2 opt.code.toNat ++ o.toBytes 2 opt.value.data.length) b
          (bs ++ opt.value.padding ++ rest) (by simp [IfOption.bytes, Padded.bytes, hdata])
          (by simp)
      rw [if_pos ⟨by rw [h9]; rfl, by simp⟩, hindex]
      rfl
  · rw [IfOption.tsresol?, if_neg h9, if_neg fun h ↦ h9 (UInt16.toNat_inj.mp h.1)]
    rfl

theorem optionLoop_options (opts : List IfOption) (pre tail : List UInt8) (r : UInt8)
    (htail : tail = [] ∨ tail = [0, 0, 0, 0]) :
    optionLoop o (pre ++ opts.flatMap (IfOption.bytes o) ++ tail) r pre.length =
      .ok ((opts.filterMap IfOption.tsresol?).getLastD r) := by
  induction opts generalizing pre r with
  | nil =>
    rw [List.flatMap_nil, List.append_nil, List.filterMap_nil, List.getLastD_nil, optionLoop]
    rcases htail with rfl | rfl
    · rw [dif_neg (by simp)]
      rfl
    · have hslice : pySlice (pre ++ [0, 0, 0, 0]) pre.length (pre.length + 4) =
          o.toBytes 2 0 ++ o.toBytes 2 0 :=
        pySlice_of_eq pre _ [] (by cases o <;> simp [ByteOrder.toBytes, leBytes]) rfl (by simp)
      rw [dif_pos (by simp), hslice, structUnpack_pair o 2 (by norm_num) (by norm_num)]
      rfl
  | cons opt opts ih =>
    have hturn := optionLoop_option o opt pre (opts.flatMap (IfOption.bytes o) ++ tail) r
    have hrest := ih (pre ++ opt.bytes o) (opt.tsresol?.getD r)
    rw [← List.append_assoc] at hturn
    rw [List.flatMap_cons, ← List.append_assoc pre, hturn, hrest, List.filterMap_cons]
    cases opt.tsresol? with
    | none => rfl
    | some b => rw [List.getLastD_cons]; rfl

/-- What the reader yields for a packet. A simple packet block does not say where its padding
begins. -/
structure Reported (c : Captured) (p : PcapPacket) : Prop where
  linktype : p.linktype = c.interface.linktype.toNat
  timestamp :
    Option.Rel (fun n ↦ IsDoubleQuotient n.toNat c.interface.resolution) c.count p.timestamp
  begins : c.packet.data <+: p.data
  data : c.count.isSome ∨ c.packet.padding = [] → p.data = c.packet.data

variable {o : ByteOrder} {seen : List InterfaceDescription} {ifaces : List Iface}

theorem readBody_interface (d : InterfaceDescription) :
    readBody o ifaces 1 (PcapBlock.body o (.interface d)) = .ok (none, ifaces ++ [d.iface]) := by
  have hlink : pySlice (PcapBlock.body o (.interface d)) 0 2 = o.toBytes 2 d.linktype.toNat :=
    pySlice_of_eq [] _ _ (by rw [PcapBlock.body, List.append_assoc, List.append_assoc]; rfl) rfl
      (by simp)
  have hopts : (PcapBlock.body o (.interface d)).drop 8 = d.optionBytes o := by
    rw [PcapBlock.body, List.drop_left']
    simp
  have hloop : optionLoop o (d.optionBytes o) 6 0 = .ok d.tsresol :=
    optionLoop_options o d.options [] _ 6 (by cases d.endofopt <;> simp)
  rw [readBody.eq_def, if_pos rfl, hlink, structUnpack_single o 2 d.linktype.toNat_lt, hopts]
  change (optionLoop o (d.optionBytes o) 6 0 >>= fun r ↦ _) = _
  rw [hloop]
  rfl

theorem count_halves (count : UInt64) :
    (count.toNat / 2 ^ 32) <<< 32 ||| (count.toNat % 2 ^ 32) = count.toNat := by
  rw [Nat.or_comm, or_shiftLeft (Nat.mod_lt _ (by norm_num)), Nat.mod_add_div']

theorem readBody_enhanced {i hi lo orig : Nat} {packet : List UInt8} {iface : Iface}
    (hfields : ∀ v ∈ [i, hi, lo, packet.length, orig], v < 256 ^ 4)
    (hiface : ifaces.getD i ⟨1, 6⟩ = iface) (rest : List UInt8) :
    readBody o ifaces 6
        ([i, hi, lo, packet.length, orig].flatMap (o.toBytes 4) ++ packet ++ rest) =
      .ok (some ⟨some (doubleDiv (hi <<< 32 ||| lo) (tsDiv iface.tsresol)), iface.linktype,
        packet⟩, ifaces) := by
  let front := [i, hi, lo, packet.length, orig].flatMap (o.toBytes 4)
  have hfront : front.length = 20 := by simp [front]
  have hslice : pySlice (front ++ packet ++ rest) 0 20 = front :=
    pySlice_of_eq [] _ (packet ++ rest) (List.append_assoc ..) rfl (by rw [hfront])
  have hdata : pySlice (front ++ packet ++ rest) 20 (20 + packet.length) = packet :=
    pySlice_of_eq _ packet rest rfl hfront rfl
  have hunpack : structUnpack o 4 5 front = .ok #v[i, hi, lo, packet.length, orig] :=
    structUnpack_toBytes o 4 #v[i, hi, lo, packet.length, orig] hfields
  rw [readBody.eq_def, if_neg (by norm_num), if_pos rfl, hslice, hunpack, ← hiface]
  exact congrArg (fun data ↦ Except.ok (some (PcapPacket.mk _ _ data), ifaces)) hdata

theorem block_enhanced {iface origlen : UInt32} {count : UInt64} {packet : Padded}
    {options : List UInt8} {d : InterfaceDescription} (hd : seen[iface.toNat]? = some d)
    (hlen : packet.data.length < 2 ^ 32) :
    readBody o (seen.map InterfaceDescription.iface) 6
        (PcapBlock.body o (.enhanced iface count origlen packet options)) =
      .ok (some ⟨some (doubleDiv count.toNat d.resolution), d.linktype.toNat, packet.data⟩,
        seen.map InterfaceDescription.iface) := by
  have hget : (seen.map InterfaceDescription.iface).getD iface.toNat ⟨1, 6⟩ = d.iface := by
    rw [List.getD_eq_getElem?_getD, List.getElem?_map, hd]
    rfl
  have hfields : ∀ v ∈ [iface.toNat, count.toNat / 2 ^ 32, count.toNat % 2 ^ 32,
      packet.data.length, origlen.toNat], v < 256 ^ 4 := by
    have hcount := count.toNat_lt
    simp only [List.forall_mem_cons]
    exact ⟨iface.toNat_lt, by omega, by omega, hlen, origlen.toNat_lt, List.forall_mem_nil _⟩
  rw [PcapBlock.body, Padded.bytes, ← List.append_assoc, List.append_assoc (_ ++ _),
    readBody_enhanced hfields hget, count_halves, InterfaceDescription.iface, tsDiv_tsresol]

theorem readBody_simple {origlen : UInt32} {packet : Padded} {d : InterfaceDescription} :
    readBody o ((d :: seen).map InterfaceDescription.iface) 3
        (PcapBlock.body o (.simple origlen packet)) =
      .ok (some ⟨none, d.linktype.toNat, packet.bytes⟩,
        (d :: seen).map InterfaceDescription.iface) := by
  have hdrop : (PcapBlock.body o (.simple origlen packet)).drop 4 = packet.bytes :=
    List.drop_left' (o.length_toBytes 4 _)
  rw [readBody.eq_def, if_neg (by norm_num), if_neg (by norm_num), if_pos rfl, hdrop]
  rfl

theorem PcapBlock.WellFormed.btype {b : PcapBlock} (h : b.WellFormed o seen) :
    b.btype < 256 ^ 4 ∧ b.btype ≠ 0x0A0D0D0A := by
  obtain ⟨-, h⟩ := h
  cases b with
  | interface d => exact ⟨by norm_num [PcapBlock.btype], by norm_num [PcapBlock.btype]⟩
  | enhanced => exact ⟨by norm_num [PcapBlock.btype], by norm_num [PcapBlock.btype]⟩
  | simple => exact ⟨by norm_num [PcapBlock.btype], by norm_num [PcapBlock.btype]⟩
  | other t body =>
    refine ⟨t.toNat_lt, fun heq ↦ h ?_⟩
    have ht : t = 0x0A0D0D0A := UInt32.toNat_inj.mp heq
    simp [ht]

theorem readBody_other {btype : Nat} {body : List UInt8} (h₁ : btype ≠ 1) (h₆ : btype ≠ 6)
    (h₃ : btype ≠ 3) : readBody o ifaces btype body = .ok (none, ifaces) := by
  rw [readBody.eq_def, if_neg h₁, if_neg h₆, if_neg h₃]
  rfl

theorem readBody_block {b : PcapBlock} (h : b.WellFormed o seen) :
    ∃ p, readBody o (seen.map InterfaceDescription.iface) b.btype (b.body o) =
        .ok (p, (b.interfaces seen).map InterfaceDescription.iface) ∧
      List.Forall₂ Reported (b.captured seen).toList p.toList := by
  obtain ⟨hlen, h⟩ := h
  cases b with
  | interface d =>
    refine ⟨none, ?_, .nil⟩
    rw [PcapBlock.interfaces, List.map_append]
    exact readBody_interface d
  | enhanced iface count origlen packet options =>
    have hd : seen[iface.toNat]? = some seen[iface.toNat] := List.getElem?_eq_getElem h
    have hpacket : packet.data.length < 2 ^ 32 := by
      simp only [PcapBlock.body, Padded.bytes, List.length_append] at hlen
      omega
    refine ⟨_, block_enhanced hd hpacket, ?_⟩
    rw [PcapBlock.captured, hd]
    exact .cons ⟨rfl, .some (isDoubleQuotient_resolution count _), List.prefix_rfl, fun _ ↦ rfl⟩
      .nil
  | simple origlen packet =>
    obtain ⟨d, rest, rfl⟩ := List.exists_cons_of_ne_nil h
    refine ⟨_, readBody_simple, .cons ⟨rfl, .none, List.prefix_append .., ?_⟩ .nil⟩
    rintro (hcount | hnone)
    · cases hcount
    · exact (congrArg _ hnone).trans (List.append_nil _)
  | other t body =>
    simp only [List.mem_cons, List.not_mem_nil, or_false, not_or] at h
    have hne : ∀ u : UInt32, t ≠ u → t.toNat ≠ u.toNat := fun u hu h ↦ hu (UInt32.toNat_inj.mp h)
    exact ⟨none, readBody_other (hne 1 h.1) (hne 6 h.2.2.1) (hne 3 h.2.1), .nil⟩

theorem read_blockHeader (o o' : ByteOrder) {t n : Nat} (ht : t < 256 ^ 4) (hn : n < 256 ^ 4)
    (rest : List UInt8) :
    let hdr := o.toBytes 4 t ++ o'.toBytes 4 n
    hdr.length = 8 ∧ pyRead (hdr ++ rest) 8 = .ok (hdr, rest) ∧
      structUnpack o 4 1 (pySlice hdr 0 4) = .ok #v[t] ∧
      structUnpack o' 4 1 (pySlice hdr 4 8) = .ok #v[n] := by
  have hlen : (o.toBytes 4 t ++ o'.toBytes 4 n).length = 8 := by simp
  have htype : pySlice (o.toBytes 4 t ++ o'.toBytes 4 n) 0 4 = o.toBytes 4 t :=
    pySlice_of_eq [] _ (o'.toBytes 4 n) rfl rfl (by simp)
  have hsize : pySlice (o.toBytes 4 t ++ o'.toBytes 4 n) 4 8 = o'.toBytes 4 n :=
    pySlice_of_eq (o.toBytes 4 t) _ [] (List.append_nil _).symm (by simp) (by simp)
  refine ⟨hlen, pyRead_append _ rest (by rw [hlen]; rfl), ?_, ?_⟩
  · rw [htype, structUnpack_single o 4 ht]
  · rw [hsize, structUnpack_single o' 4 hn]

theorem readBlock_block {b : PcapBlock} (h : b.WellFormed o seen) {p : Option PcapPacket}
    {after : List Iface} (hbody : readBody o ifaces b.btype (b.body o) = .ok (p, after))
    (rest : List UInt8) :
    readBlock ⟨o, ifaces, b.bytes o ++ rest⟩ = .ok (some (p, ⟨o, after, rest⟩)) := by
  obtain ⟨htype, hshb⟩ := h.btype
  let len := o.toBytes 4 ((b.body o).length + 12)
  obtain ⟨hhdr, hread₁, htype₁, hlen₁⟩ :=
    read_blockHeader o o htype h.1 (b.body o ++ (len ++ rest))
  have hread₂ : pyRead (b.body o ++ (len ++ rest)) (((b.body o).length + 12 : Nat) - 12 : Int) =
      .ok (b.body o, len ++ rest) := pyRead_append _ _ (by omega)
  have hread₃ : pyRead (len ++ rest) 4 = .ok (len, rest) := pyRead_append _ _ (by simp [len])
  rw [readBlock, PcapBlock.bytes, List.append_assoc, List.append_assoc]
  refine bind_eq_ok.mpr ⟨_, hread₁, (if_neg (Nat.not_lt.mpr hhdr.ge)).trans ?_⟩
  refine bind_eq_ok.mpr ⟨_, htype₁, (if_neg hshb).trans ?_⟩
  refine bind_eq_ok.mpr ⟨_, hlen₁, (if_neg (Nat.not_lt.mpr (Nat.le_add_left ..))).trans ?_⟩
  refine bind_eq_ok.mpr ⟨_, hread₂, bind_eq_ok.mpr ⟨_, hread₃, ?_⟩⟩
  exact bind_eq_ok.mpr ⟨_, hbody, rfl⟩

theorem sectionType (order : ByteOrder) : order.toBytes 4 0x0A0D0D0A = o.toBytes 4 0x0A0D0D0A := by
  cases order <;> cases o <;> rfl

theorem readBlock_header (s : PcapSection) (rest : List UInt8) :
    readBlock ⟨o, ifaces, s.headerBytes ++ rest⟩ = .ok (some (none, ⟨s.order, [], rest⟩)) := by
  let len := s.order.toBytes 4 (s.header.length + 16)
  let bom := s.order.toBytes 4 0x1A2B3C4D
  obtain ⟨hhdr, hread₁, htype₁, hlen₁⟩ := read_blockHeader o s.order (t := 0x0A0D0D0A)
    (by norm_num) s.header_lt (bom ++ (s.header ++ (len ++ rest)))
  have hread₂ : pyRead (bom ++ (s.header ++ (len ++ rest))) 4 =
      .ok (bom, s.header ++ (len ++ rest)) := pyRead_append _ _ (by simp [bom])
  have hread₃ : pyRead (s.header ++ (len ++ rest)) ((s.header.length + 16 : Nat) - 16 : Int) =
      .ok (s.header, len ++ rest) := pyRead_append _ _ (by omega)
  have hread₄ : pyRead (len ++ rest) 4 = .ok (len, rest) := pyRead_append _ _ (by simp [len])
  have hbom : (if bom = [0x4d, 0x3c, 0x2b, 0x1a] then ByteOrder.little else .big) = s.order := by
    cases horder : s.order <;> simp only [bom, horder] <;> rfl
  rw [readBlock, PcapSection.headerBytes, sectionType (o := o)]
  simp only [List.append_assoc] at hread₁ ⊢
  refine bind_eq_ok.mpr ⟨_, hread₁, (if_neg (Nat.not_lt.mpr hhdr.ge)).trans ?_⟩
  refine bind_eq_ok.mpr ⟨_, htype₁, (if_pos rfl).trans ?_⟩
  refine bind_eq_ok.mpr ⟨_, hread₂, ?_⟩
  simp only [hbom]
  exact bind_eq_ok.mpr ⟨_, hlen₁, bind_eq_ok.mpr ⟨_, hread₃, bind_eq_ok.mpr ⟨_, hread₄, rfl⟩⟩⟩

theorem length_captured {b : PcapBlock} (h : b.WellFormed o seen) :
    (b.captured seen).toList.length = if b.isPacket then 1 else 0 := by
  obtain ⟨-, h⟩ := h
  cases b with
  | interface d => rfl
  | enhanced iface =>
    rw [PcapBlock.captured, List.getElem?_eq_getElem h]
    rfl
  | simple origlen packet =>
    obtain ⟨d, rest, rfl⟩ := List.exists_cons_of_ne_nil h
    rfl
  | other t body => rfl

theorem length_capturedIn {blocks : List PcapBlock} (h : WellFormedBlocks o seen blocks) :
    (capturedIn seen blocks).length = blocks.countP PcapBlock.isPacket := by
  induction blocks generalizing seen with
  | nil => rfl
  | cons b bs ih =>
    rw [capturedIn, List.length_append, ih h.2, length_captured h.1, List.countP_cons,
      Nat.add_comm]

theorem length_packetsOf (file : List PcapSection) :
    (packetsOf file).length = (file.flatMap PcapSection.blocks).countP PcapBlock.isPacket := by
  rw [packetsOf, List.length_flatMap, List.countP_flatMap]
  exact congrArg List.sum (List.map_congr_left fun s _ ↦ length_capturedIn s.wellFormed)

def Reads (s : PcapReader) (captured : List Captured) (t : PcapReader) : Prop :=
  ∃ items, List.Forall₂ Reported captured items ∧
    readPcapngFrom s = ⟨items ++ (readPcapngFrom t).items, (readPcapngFrom t).raised⟩

namespace Reads

variable {s t u : PcapReader} {cs ds : List Captured}

theorem refl (s : PcapReader) : Reads s [] s := ⟨[], .nil, rfl⟩

theorem trans (hst : Reads s cs t) (htu : Reads t ds u) : Reads s (cs ++ ds) u := by
  obtain ⟨items, hitems, hs⟩ := hst
  obtain ⟨more, hmore, ht⟩ := htu
  refine ⟨items ++ more, List.rel_append hitems hmore, ?_⟩
  rw [hs, ht, List.append_assoc]

theorem turn {p : Option PcapPacket} (h : readBlock s = .ok (some (p, t)))
    (hp : List.Forall₂ Reported cs p.toList) : Reads s cs t :=
  ⟨p.toList, hp, readPcapngFrom_turn h⟩

end Reads

theorem reads_blocks {blocks : List PcapBlock} (h : WellFormedBlocks o seen blocks)
    (rest : List UInt8) :
    ∃ after, Reads ⟨o, seen.map InterfaceDescription.iface,
      blocks.flatMap (PcapBlock.bytes o) ++ rest⟩ (capturedIn seen blocks) ⟨o, after, rest⟩ := by
  induction blocks generalizing seen with
  | nil => exact ⟨_, .refl _⟩
  | cons b bs ih =>
    obtain ⟨p, hbody, hp⟩ := readBody_block h.1
    obtain ⟨after, hafter⟩ := ih h.2
    refine ⟨after, .trans (.turn ?_ hp) hafter⟩
    rw [List.flatMap_cons, List.append_assoc]
    exact readBlock_block h.1 hbody _

theorem reads_sections (file : List PcapSection) (s : PcapReader) (hs : s.file = fileBytes file) :
    ∃ t, t.file = [] ∧ Reads s (packetsOf file) t := by
  induction file generalizing s with
  | nil => exact ⟨s, hs, .refl s⟩
  | cons sec file ih =>
    obtain ⟨o, ifaces, bytes⟩ := s
    let blocks := sec.blocks.flatMap (PcapBlock.bytes sec.order)
    have hbytes : bytes = sec.headerBytes ++ (blocks ++ fileBytes file) := by
      rw [← List.append_assoc]
      exact hs
    obtain ⟨after, hafter⟩ := reads_blocks sec.wellFormed (fileBytes file)
    obtain ⟨t, ht, hread⟩ := ih ⟨sec.order, after, fileBytes file⟩ rfl
    have hheader : readBlock ⟨o, ifaces, bytes⟩ =
        .ok (some (none, ⟨sec.order, [], blocks ++ fileBytes file⟩)) := by
      rw [hbytes]
      exact readBlock_header sec _
    exact ⟨t, ht, .trans (Reads.trans (.turn hheader .nil) hafter) hread⟩

/-- What `read_pcapng` yields for any well-formed file. -/
theorem readPcapng_reports (file : List PcapSection) :
    ∃ items, readPcapng (fileBytes file) = ⟨items, none⟩ ∧
      List.Forall₂ Reported (packetsOf file) items ∧
      items.length = (file.flatMap PcapSection.blocks).countP PcapBlock.isPacket := by
  obtain ⟨t, ht, items, hitems, hread⟩ := reads_sections file ⟨.little, [], fileBytes file⟩ rfl
  have hend : readPcapngFrom t = .done := readPcapngFrom_end (by
    obtain ⟨o, ifaces, bytes⟩ := t
    cases ht
    rfl)
  refine ⟨items, ?_, hitems, ?_⟩
  · rw [readPcapng, hread, hend]
    exact congrArg (Generated.mk · none) (List.append_nil items)
  · exact hitems.length_eq.symm.trans (length_packetsOf file)

def oneByte : Padded := ⟨[0xFD], [0, 0, 0], rfl⟩

/-- A packet in an enhanced and one in a simple packet block, on an Ethernet interface with the
resolution of microseconds. -/
def twoPackets : PcapSection where
  order := .little
  header := [1, 0, 0, 0] ++ List.replicate 8 0xFF
  blocks := [.interface ⟨1, 0, 0, [], false⟩, .enhanced 0 1 1 oneByte [], .simple 1 oneByte]
  header_lt := by decide
  wellFormed := ⟨⟨by decide, trivial⟩, ⟨by decide, by decide⟩, ⟨by decide, by decide⟩, trivial⟩

theorem time_rounded_padding_kept :
    (readPcapng (fileBytes [twoPackets])).items.map PcapPacket.timestamp ≠
        (packetsOf [twoPackets]).map (fun c ↦
          c.count.map fun n ↦ (n.toNat : ℚ) / c.interface.resolution) ∧
      (readPcapng (fileBytes [twoPackets])).items.map PcapPacket.data ≠
        (packetsOf [twoPackets]).map fun c ↦ c.packet.data := by
  decide +kernel

end KemtlsMavlink
