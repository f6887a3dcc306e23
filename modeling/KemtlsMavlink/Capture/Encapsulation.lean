import KemtlsMavlink.Capture.Decode

namespace KemtlsMavlink

open Library

/-- `words` is the number of words of options, up to the greatest that the length field has. -/
structure Ipv4Header where
  tos : UInt8
  ttl : UInt8
  ident : Vector UInt8 2
  frag : Vector UInt8 2
  checksum : Vector UInt8 2
  src : Vector UInt8 4
  dst : Vector UInt8 4
  words : Fin 11
  options : Vector UInt8 (4 * words)

structure UdpHeader where
  sport : UInt16
  dport : UInt16
  checksum : Vector UInt8 2

structure TcpHeader where
  sport : UInt16
  dport : UInt16
  seq : Vector UInt8 4
  ack : Vector UInt8 4
  reserved : Fin 16
  flags : UInt8
  window : Vector UInt8 2
  checksum : Vector UInt8 2
  urgent : Vector UInt8 2
  words : Fin 11
  options : Vector UInt8 (4 * words)

inductive TransportHeader
  | udp (h : UdpHeader)
  | tcp (h : TcpHeader)

def be16 (v : Nat) : List UInt8 := ByteOrder.big.toBytes 2 v

namespace TransportHeader

def number : TransportHeader → UInt8
  | .udp _ => 17
  | .tcp _ => 6

def bytes (payload : List UInt8) : TransportHeader → List UInt8
  | .udp h => be16 h.sport.toNat ++ be16 h.dport.toNat ++ be16 (8 + payload.length) ++
      h.checksum.toList ++ payload
  | .tcp h => be16 h.sport.toNat ++ be16 h.dport.toNat ++ h.seq.toList ++ h.ack.toList ++
      [UInt8.ofNat (16 * (5 + h.words) + h.reserved), h.flags] ++ h.window.toList ++
      h.checksum.toList ++ h.urgent.toList ++ h.options.toList ++ payload

def datagram (src dst : String) (payload : List UInt8) : TransportHeader → Datagram
  | .udp h => ⟨.udp, src, h.sport.toNat, dst, h.dport.toNat, payload⟩
  | .tcp h => ⟨.tcp, src, h.sport.toNat, dst, h.dport.toNat, payload⟩

end TransportHeader

namespace Ipv4Header

def length (h : Ipv4Header) : Nat := 20 + 4 * h.words

/-- The header in front of `n` bytes. -/
def bytes (h : Ipv4Header) (number : UInt8) (n : Nat) : List UInt8 :=
  [UInt8.ofNat (0x45 + h.words), h.tos] ++ be16 (h.length + n) ++ h.ident.toList ++
    h.frag.toList ++ [h.ttl, number] ++ h.checksum.toList ++ h.src.toList ++ h.dst.toList ++
    h.options.toList

end Ipv4Header

/-- An IPv4 packet, no longer than its length field can say. -/
structure Ipv4Packet where
  ip : Ipv4Header
  transport : TransportHeader
  payload : List UInt8
  fits : ip.length + (transport.bytes payload).length < 65536

def Ipv4Packet.bytes (p : Ipv4Packet) : List UInt8 :=
  p.ip.bytes p.transport.number (p.transport.bytes p.payload).length ++
    p.transport.bytes p.payload

structure VlanTag where
  service : Bool
  tci : Vector UInt8 2

def VlanTag.tpid (t : VlanTag) : Nat := if t.service then 0x88A8 else 0x8100

inductive Framing
  | ethernet (dst src : Vector UInt8 6) (tags : List VlanTag)
  | cookedV1 (head : Vector UInt8 14)
  | cookedV2 (tail : Vector UInt8 18)
  | rawIp
  | loopback

namespace Framing

def linkType : Framing → Int
  | .ethernet .. => 1
  | .cookedV1 _ => 113
  | .cookedV2 _ => 276
  | .rawIp => 101
  | .loopback => 0

def tagged (tags : List VlanTag) : List UInt8 :=
  tags.flatMap (fun t ↦ be16 t.tpid ++ t.tci.toList) ++ be16 0x0800

/-- What stands in front of the packet. -/
def header : Framing → List UInt8
  | .ethernet dst src tags => dst.toList ++ src.toList ++ tagged tags
  | .cookedV1 head => head.toList ++ be16 0x0800
  | .cookedV2 tail => be16 0x0800 ++ tail.toList
  | .rawIp => []
  | .loopback => ByteOrder.little.toBytes 4 2

end Framing

variable {data rest : List UInt8}

@[simp] theorem length_be16 (v : Nat) : (be16 v).length = 2 := ByteOrder.big.length_toBytes 2 v

theorem fromBig_be16 {v : Nat} (h : v < 65536) : fromBig (be16 v) = v :=
  ByteOrder.big.ofBytes_toBytes h

theorem unpack_ports (sport dport : UInt16) :
    structUnpack .big 2 2 (be16 sport.toNat ++ be16 dport.toNat) =
      .ok #v[sport.toNat, dport.toNat] :=
  structUnpack_pair .big 2 sport.toNat_lt dport.toNat_lt

theorem unpack_udp (sport dport : UInt16) {n : Nat} (hn : n < 65536) :
    structUnpack .big 2 3 (be16 sport.toNat ++ be16 dport.toNat ++ be16 n) =
      .ok #v[sport.toNat, dport.toNat, n] := by
  have h := structUnpack_toBytes .big 2 #v[sport.toNat, dport.toNat, n] (by
    simpa using ⟨sport.toNat_lt, dport.toNat_lt, hn⟩)
  simpa [be16] using h

variable {src dst : String} {payload : List UInt8}

theorem transport_udp (h : UdpHeader) (hn : 8 + payload.length < 65536) :
    transport 17 src dst (TransportHeader.bytes payload (.udp h)) =
      .ok (some ⟨.udp, src, h.sport.toNat, dst, h.dport.toNat, payload⟩) := by
  let front := be16 h.sport.toNat ++ be16 h.dport.toNat ++ be16 (8 + payload.length)
  generalize hs : TransportHeader.bytes payload (.udp h) = seg
  have hseg : seg = front ++ h.checksum.toList ++ payload := hs.symm
  have hfront : front.length = 6 := by simp [front]
  have hlen : seg.length = 8 + payload.length := by
    rw [hseg, List.length_append, List.length_append, hfront, Vector.length_toList]
  have hhead : pySlice seg 0 6 = front :=
    pySlice_of_eq [] front (h.checksum.toList ++ payload)
      (by rw [hseg, List.nil_append, List.append_assoc]) rfl (by rw [hfront])
  have hbody : pySlice seg 8 (8 + payload.length) = payload :=
    pySlice_of_eq (front ++ h.checksum.toList) payload []
      (by rw [hseg, List.append_nil])
      (by rw [List.length_append, hfront, Vector.length_toList]) rfl
  rw [transport, if_pos ⟨rfl, by omega⟩, hhead, unpack_udp _ _ hn]
  change Except.ok (some (Datagram.mk _ _ _ _ _ (if 8 ≤ 8 + payload.length then _ else _))) = _
  rw [if_pos (Nat.le_add_right ..)]
  exact congrArg (fun p ↦ Except.ok (some (Datagram.mk .udp src _ dst _ p))) hbody

theorem dataOffset (w : Fin 11) (r : Fin 16) :
    (UInt8.ofNat (16 * (5 + w) + r) >>> 4).toNat * 4 = 20 + 4 * w := by
  revert w r
  decide

theorem transport_tcp (h : TcpHeader) :
    transport 6 src dst (TransportHeader.bytes payload (.tcp h)) =
      .ok (some ⟨.tcp, src, h.sport.toNat, dst, h.dport.toNat, payload⟩) := by
  let ports := be16 h.sport.toNat ++ be16 h.dport.toNat
  let offset := UInt8.ofNat (16 * (5 + h.words) + h.reserved)
  let tail := h.window.toList ++ h.checksum.toList ++ h.urgent.toList ++ h.options.toList
  generalize hs : TransportHeader.bytes payload (.tcp h) = seg
  have hseg : seg = ports ++ h.seq.toList ++ h.ack.toList ++ [offset, h.flags] ++ tail ++
      payload := by
    rw [← hs]
    simp [TransportHeader.bytes, ports, offset, tail]
  have hports : ports.length = 4 := by simp [ports]
  have htail : tail.length = 6 + 4 * h.words := by
    simp [tail]
    omega
  have hlen : seg.length = 20 + 4 * h.words + payload.length := by
    simp [hseg, hports, htail]
    omega
  have hhead : pySlice seg 0 4 = ports :=
    pySlice_of_eq [] ports (h.seq.toList ++ h.ack.toList ++ [offset, h.flags] ++ tail ++ payload)
      (by simp [hseg]) rfl (by rw [hports])
  have hoffset : pyIndex seg 12 = .ok offset :=
    pyIndex_of_eq (ports ++ h.seq.toList ++ h.ack.toList) offset (h.flags :: (tail ++ payload))
      (by simp [hseg]) (by simp [hports])
  have hbody : seg.drop (20 + 4 * h.words) = payload := by
    rw [hseg, List.drop_left']
    simp [hports, htail]
    omega
  rw [transport, if_neg (by simp), if_pos ⟨rfl, by omega⟩, hhead, unpack_ports, hoffset]
  change Except.ok (some (Datagram.mk _ _ _ _ _ (seg.drop ((offset >>> 4).toNat * 4)))) = _
  rw [dataOffset, hbody]
  rfl

theorem headerLength (w : Fin 11) : (UInt8.ofNat (0x45 + w) &&& 0x0F).toNat * 4 = 20 + 4 * w := by
  revert w
  decide

theorem ipVersion (w : Fin 11) : UInt8.ofNat (0x45 + w) >>> 4 = 4 := by
  revert w
  decide

theorem Ipv4Header.length_bytes (h : Ipv4Header) (number : UInt8) (n : Nat) :
    (h.bytes number n).length = h.length := by
  simp [Ipv4Header.bytes, Ipv4Header.length]
  omega

theorem Ipv4Header.fields (h : Ipv4Header) (number : UInt8) (n : Nat) (rest : List UInt8) :
    pyIndex (h.bytes number n ++ rest) 0 = .ok (UInt8.ofNat (0x45 + h.words)) ∧
      pyIndex (h.bytes number n ++ rest) 9 = .ok number ∧
      pySlice (h.bytes number n ++ rest) 2 4 = be16 (h.length + n) ∧
      pySlice (h.bytes number n ++ rest) 12 16 = h.src.toList ∧
      pySlice (h.bytes number n ++ rest) 16 20 = h.dst.toList := by
  let front := [UInt8.ofNat (0x45 + h.words), h.tos]
  let tot := be16 (h.length + n)
  let middle := h.ident.toList ++ h.frag.toList ++ [h.ttl]
  let addresses := h.src.toList ++ h.dst.toList
  have hip : h.bytes number n ++ rest = front ++ tot ++ middle ++ number :: h.checksum.toList ++
      addresses ++ (h.options.toList ++ rest) := by
    simp [Ipv4Header.bytes, front, tot, middle, addresses]
  have htot : tot.length = 2 := length_be16 _
  have hmiddle : middle.length = 5 := by simp [middle]
  generalize h.bytes number n ++ rest = ip at hip ⊢
  refine ⟨?_, ?_, ?_, ?_, ?_⟩
  · rw [hip]
    rfl
  · exact pyIndex_of_eq (front ++ tot ++ middle) number
      (h.checksum.toList ++ addresses ++ (h.options.toList ++ rest)) (by simp [hip])
      (by simp [front, htot, hmiddle])
  · exact pySlice_of_eq front tot (middle ++ number :: h.checksum.toList ++ addresses ++
      (h.options.toList ++ rest)) (by simp [hip]) rfl (by rw [htot])
  · exact pySlice_of_eq (front ++ tot ++ middle ++ number :: h.checksum.toList) _
      (h.dst.toList ++ (h.options.toList ++ rest)) (by simp [hip, addresses])
      (by simp [front, htot, hmiddle]) (by simp)
  · exact pySlice_of_eq (front ++ tot ++ middle ++ number :: h.checksum.toList ++ h.src.toList) _
      (h.options.toList ++ rest) (by simp [hip, addresses]) (by simp [front, htot, hmiddle])
      (by simp)

theorem network_eq (h : Ipv4Header) (number : UInt8) (seg rest : List UInt8)
    (hn : h.length + seg.length < 65536) :
    network (h.bytes number seg.length ++ seg ++ rest) =
      transport number (dotted h.src.toList) (dotted h.dst.toList) seg := by
  obtain ⟨hfirst, hnumber, hcut, hsrc, hdst⟩ := h.fields number seg.length (seg ++ rest)
  rw [← List.append_assoc] at hfirst hnumber hcut hsrc hdst
  have hheader := h.length_bytes number seg.length
  have hseg : pySlice (h.bytes number seg.length ++ seg ++ rest) h.length
      (h.length + seg.length) = seg :=
    pySlice_of_eq _ seg rest rfl hheader rfl
  have hlen : (h.bytes number seg.length ++ seg ++ rest).length =
      h.length + seg.length + rest.length := by
    rw [List.length_append, List.length_append, hheader]
  generalize h.bytes number seg.length ++ seg ++ rest = ip at *
  have htotal : fromBig (pySlice ip 2 4) = h.length + seg.length := by rw [hcut, fromBig_be16 hn]
  have hpos : 0 < h.length + seg.length := by
    rw [Ipv4Header.length]
    omega
  rw [network, hfirst, hnumber]
  change transport number (dotted (pySlice ip 12 16)) (dotted (pySlice ip 16 20))
    (if 0 < fromBig (pySlice ip 2 4) ∧ fromBig (pySlice ip 2 4) ≤ ip.length then
      pySlice ip ((UInt8.ofNat (0x45 + h.words) &&& 0x0F).toNat * 4) (fromBig (pySlice ip 2 4))
    else _) = _
  rw [hsrc, hdst, htotal, if_pos ⟨hpos, by omega⟩, headerLength]
  exact congrArg _ hseg

theorem transport_eq (t : TransportHeader) (hn : (t.bytes payload).length < 65536) :
    transport t.number src dst (t.bytes payload) = .ok (some (t.datagram src dst payload)) := by
  cases t with
  | udp h =>
    refine transport_udp h ?_
    simp [TransportHeader.bytes] at hn
    omega
  | tcp h => exact transport_tcp h

theorem pySlice_eq_take (data : List UInt8) (i n : Nat) :
    pySlice data i (i + n) = (data.drop i).take n := by
  rw [pySlice, List.drop_take, Nat.add_sub_cancel_left]

theorem vlanLoop_tagged (tags : List VlanTag) {i : Nat}
    (h : data.drop i = Framing.tagged tags ++ rest) :
    vlanLoop data (fromBig (pySlice data i (i + 2))) (i + 2) =
      (0x0800, i + 2 + 4 * tags.length) := by
  induction tags generalizing i with
  | nil =>
    have hcut : pySlice data i (i + 2) = be16 0x0800 := by
      rw [pySlice_eq_take, h]
      exact List.take_left' (length_be16 _)
    rw [hcut, fromBig_be16 (by decide), vlanLoop, dif_neg (by decide)]
    rfl
  | cons t tags ih =>
    have htagged : Framing.tagged (t :: tags) ++ rest =
        be16 t.tpid ++ (t.tci.toList ++ (Framing.tagged tags ++ rest)) := by
      simp [Framing.tagged]
    rw [htagged] at h
    have hcut : pySlice data i (i + 2) = be16 t.tpid := by
      rw [pySlice_eq_take, h]
      exact List.take_left' (length_be16 _)
    have hvlan : t.tpid < 65536 ∧ IsVlan t.tpid := by
      rw [VlanTag.tpid]
      split_ifs <;> decide
    have hrest : data.drop (i + 4) = Framing.tagged tags ++ rest := by
      have hskip : data.drop (i + 2) = t.tci.toList ++ (Framing.tagged tags ++ rest) := by
        rw [← List.drop_drop, h, List.drop_left' (length_be16 _)]
      rw [show i + 4 = i + 2 + 2 from rfl, ← List.drop_drop, hskip, List.drop_left' (by simp)]
    rw [hcut, fromBig_be16 hvlan.1, vlanLoop, dif_pos hvlan.2]
    refine (ih hrest).trans ?_
    rw [List.length_cons]
    congr 1
    omega

theorem linkLayer_eq (f : Framing) {b : UInt8} (hb : b >>> 4 = 4) (rest : List UInt8) :
    linkLayer f.linkType (f.header ++ b :: rest) = .ok (some (0x0800, f.header.length)) := by
  cases f with
  | ethernet dst src tags =>
    have hdrop : (Framing.header (.ethernet dst src tags) ++ b :: rest).drop 12 =
        Framing.tagged tags ++ b :: rest := by
      rw [Framing.header, List.append_assoc, List.drop_left' (by simp)]
    have hloop := vlanLoop_tagged tags hdrop
    have hlen : (Framing.header (.ethernet dst src tags)).length = 12 + 2 + 4 * tags.length := by
      simp [Framing.header, Framing.tagged, List.length_flatMap]
      omega
    rw [hlen, ← hloop]
    rfl
  | cookedV1 head =>
    have hcut : pySlice (head.toList ++ be16 0x0800 ++ b :: rest) 14 16 = be16 0x0800 :=
      pySlice_of_eq head.toList _ (b :: rest) rfl (by simp) (by simp)
    have hlen : (Framing.header (.cookedV1 head)).length = 16 := by simp [Framing.header]
    rw [hlen]
    change Except.ok (some (fromBig (pySlice (head.toList ++ be16 0x0800 ++ b :: rest) 14 16),
      16)) = _
    rw [hcut, fromBig_be16 (by decide)]
  | cookedV2 tail =>
    have hcut : pySlice (be16 0x0800 ++ tail.toList ++ b :: rest) 0 2 = be16 0x0800 :=
      pySlice_of_eq [] _ (tail.toList ++ b :: rest) (by simp) rfl (by simp)
    have hlen : (Framing.header (.cookedV2 tail)).length = 20 := by simp [Framing.header]
    rw [hlen]
    change Except.ok (some (fromBig (pySlice (be16 0x0800 ++ tail.toList ++ b :: rest) 0 2), 20)) =
      _
    rw [hcut, fromBig_be16 (by decide)]
  | rawIp =>
    change Except.ok (some (if b >>> 4 = 4 then 0x0800 else 0x86DD, 0)) = _
    rw [if_pos hb]
    rfl
  | loopback => rfl

theorem decodeTry_eq (f : Framing) (p : Ipv4Packet) (rest : List UInt8) :
    decodeTry f.linkType (f.header ++ p.bytes ++ rest) =
      .ok (some (p.transport.datagram (dotted p.ip.src.toList) (dotted p.ip.dst.toList)
        p.payload)) := by
  have hfits := p.fits
  have hlink := linkLayer_eq f (ipVersion p.ip.words) (p.bytes ++ rest).tail
  have hhead : UInt8.ofNat (0x45 + p.ip.words) :: (p.bytes ++ rest).tail = p.bytes ++ rest := rfl
  rw [hhead, ← List.append_assoc] at hlink
  rw [decodeTry, hlink]
  change network ((f.header ++ p.bytes ++ rest).drop f.header.length) = _
  rw [List.append_assoc, List.drop_left, Ipv4Packet.bytes,
    network_eq p.ip _ _ rest hfits]
  exact transport_eq p.transport (Nat.lt_of_le_of_lt (Nat.le_add_left ..) hfits)

/-- Nothing but what `decode` catches is raised. -/
def Caught {α : Type} (r : Except PyError α) : Prop := r ≠ .error .valueError

theorem Caught.bind {α β : Type} {r : Except PyError α} {f : α → Except PyError β}
    (hr : Caught r) (hf : ∀ a, Caught (f a)) : Caught (r >>= f) := by
  cases r with
  | error err => exact fun h ↦ hr (congrArg _ (Except.error.inj h))
  | ok a => exact hf a

theorem caught_ok {α : Type} (a : α) : Caught (.ok a) := nofun

theorem caught_pyIndex (data : List UInt8) (i : Nat) : Caught (pyIndex data i) := by
  rw [pyIndex]
  split
  · exact caught_ok _
  · intro h
    cases h

theorem caught_structUnpack (o : ByteOrder) (size count : Nat) (data : List UInt8) :
    Caught (structUnpack o size count data) := by
  rw [structUnpack]
  split
  · exact caught_ok _
  · intro h
    cases h

theorem caught_transport (number : UInt8) (src dst : String) (seg : List UInt8) :
    Caught (transport number src dst seg) := by
  rw [transport]
  split_ifs
  · exact .bind (caught_structUnpack _ _ _ _) fun v ↦ caught_ok _
  · exact .bind (caught_structUnpack _ _ _ _) fun v ↦ .bind (caught_pyIndex _ _) fun b ↦ caught_ok _
  · exact caught_ok _

theorem caught_decodeTry (lt : Int) (data : List UInt8) : Caught (decodeTry lt data) := by
  have hlink : Caught (linkLayer lt data) := by
    rw [linkLayer]
    split_ifs
    · exact caught_ok _
    · exact caught_ok _
    · exact caught_ok _
    · exact .bind (caught_pyIndex _ _) fun b ↦ caught_ok _
    · exact caught_ok _
    · exact caught_ok _
  refine hlink.bind fun r ↦ ?_
  cases r with
  | none => exact caught_ok _
  | some r =>
    dsimp only
    split_ifs
    · exact caught_ok _
    · exact .bind (caught_pyIndex _ _) fun b ↦ .bind (caught_pyIndex _ _) fun number ↦
        caught_transport _ _ _ _

/-- `decode` takes every encapsulation apart again, and comes to an end without an exception
whatever it is given. -/
theorem decode_inverts :
    (∀ (f : Framing) (p : Ipv4Packet) (rest : List UInt8),
      decode f.linkType (f.header ++ p.bytes ++ rest) =
        .ok (some (p.transport.datagram (dotted p.ip.src.toList) (dotted p.ip.dst.toList)
          p.payload))) ∧
      ∀ lt data, ∃ r, decode lt data = .ok r := by
  constructor
  · intro f p rest
    rw [decode, decodeTry_eq]
  · intro lt data
    have hc := caught_decodeTry lt data
    rw [decode]
    generalize decodeTry lt data = r at hc
    cases r with
    | ok r => exact ⟨r, rfl⟩
    | error err =>
      cases err with
      | indexError => exact ⟨none, rfl⟩
      | structError => exact ⟨none, rfl⟩
      | valueError => exact absurd rfl hc

end KemtlsMavlink
