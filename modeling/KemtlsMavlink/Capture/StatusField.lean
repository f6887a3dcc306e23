import KemtlsMavlink.Capture.ConPayload
import KemtlsMavlink.Capture.MavStream

namespace KemtlsMavlink

open Library

structure StatusFields where
  sessionId : Nat
  value : Nat
  status : Nat
  detail : Nat
  deriving DecidableEq, Repr

def statusDe (pl : List UInt8) : Except PyError StatusFields := do
  let pl14 := pl ++ List.replicate (14 - pl.length) 0
  let sessionId := ByteOrder.little.ofBytes (pySlice pl14 0 8)
  let value := ByteOrder.little.ofBytes (pySlice pl14 8 12)
  let status ← pyIndex pl14 12
  let detail ← pyIndex pl14 13
  return ⟨sessionId, value, status.toNat, detail.toNat⟩

/-- The arguments of `mavlink_msg_hqc_status_send`. -/
structure HqcStatus where
  sessionId : UInt64
  value : UInt32
  status : UInt8
  detail : UInt8

namespace HqcStatus

variable (m : HqcStatus)

/-- The payload before its zeros are cut off: the larger fields come first. -/
def payload : List UInt8 :=
  leBytes 8 m.sessionId.toNat ++ leBytes 4 m.value.toNat ++ [m.status, m.detail]

def fields : StatusFields :=
  ⟨m.sessionId.toNat, m.value.toNat, m.status.toNat, m.detail.toNat⟩

@[simp] theorem length_payload : m.payload.length = 14 := by simp [payload]

end HqcStatus

theorem statusDe_append_zeros {pl : List UInt8} {n : Nat} (h : pl.length + n ≤ 14) :
    statusDe (pl ++ List.replicate n 0) = statusDe pl := by
  have hzeros : n + (14 - (pl.length + n)) = 14 - pl.length := by omega
  rw [statusDe, statusDe, List.length_append, List.length_replicate, List.append_assoc,
    List.replicate_append_replicate, hzeros]

theorem statusDe_payload (m : HqcStatus) : statusDe m.payload = .ok m.fields := by
  have hpad : m.payload ++ List.replicate (14 - m.payload.length) 0 = m.payload := by
    rw [m.length_payload]
    exact List.append_nil _
  have hsession : pySlice m.payload 0 8 = leBytes 8 m.sessionId.toNat :=
    pySlice_of_eq [] _ (leBytes 4 m.value.toNat ++ [m.status, m.detail])
      (List.append_assoc ..) rfl (by simp)
  have hvalue : pySlice m.payload 8 12 = leBytes 4 m.value.toNat :=
    pySlice_of_eq (leBytes 8 m.sessionId.toNat) _ [m.status, m.detail] rfl (by simp) (by simp)
  have hstatus : pyIndex m.payload 12 = .ok m.status :=
    pyIndex_of_eq (leBytes 8 m.sessionId.toNat ++ leBytes 4 m.value.toNat) _ [m.detail] rfl
      (by simp)
  have hdetail : pyIndex m.payload 13 = .ok m.detail :=
    pyIndex_of_eq (leBytes 8 m.sessionId.toNat ++ leBytes 4 m.value.toNat ++ [m.status]) _ []
      (by simp [HqcStatus.payload]) (by simp)
  rw [statusDe, hpad, hsession, hvalue, hstatus, hdetail, ByteOrder.ofBytes,
    leNat_leBytes m.sessionId.toNat_lt, ByteOrder.ofBytes, leNat_leBytes m.value.toNat_lt]
  rfl

variable {buf rest : List UInt8} {i : Nat}

theorem payload₂_of_drop {f : MavFrame2} (h : buf.drop i = f.bytes ++ rest) :
    payload₂ buf i = f.payload := by
  let header := [0xFD, UInt8.ofNat f.payload.length, f.incompatFlags, f.compatFlags, f.seq,
    f.sysid, f.compid] ++ leBytes 3 f.msgid
  let tail := f.checksum.toList ++
    if f.incompatFlags &&& 0x01 ≠ 0 then f.signature.toList else []
  have hl := length_of_drop h (by simp [MavFrame2.bytes])
  have hbuf : buf = buf.take i ++ header ++ f.payload ++ (tail ++ rest) := by
    conv_lhs => rw [← List.take_append_drop i buf, h]
    simp [MavFrame2.bytes, header, tail]
  have hheader : (buf.take i ++ header).length = i + 10 := by
    rw [List.length_append, List.length_take, hl, Nat.min_eq_left (Nat.le_add_right ..)]
    rfl
  have hat : f.At buf i := MavFrame2.at_of_drop h
  rw [payload₂, hat.length]
  exact pySlice_of_eq _ f.payload (tail ++ rest) hbuf hheader rfl

theorem conPayloadFrom_frame {f : MavFrame2} (h : buf.drop i = f.bytes ++ rest) :
    mavFramesConPayloadFrom buf i =
      (mavFramesConPayloadFrom buf (i + f.bytes.length)).yielding
        ((f.msgid : Nat), f.payload) := by
  have hat : f.At buf i := MavFrame2.at_of_drop h
  rw [conPayloadFrom_v2 hat.first hat.fits, hat.total, hat.msgid, payload₂_of_drop h]

/-- A status in a frame that leaves out any number of the zeros at the end of its payload is
scanned and decoded as it was sent. -/
theorem status_trimming_undone (m : HqcStatus) (f : MavFrame2) (n : Nat)
    (h : f.payload ++ List.replicate n 0 = m.payload) :
    mavFramesConPayload f.bytes = ⟨[(f.msgid, f.payload)], none⟩ ∧
      statusDe f.payload = .ok m.fields := by
  constructor
  · have hdrop : f.bytes.drop 0 = f.bytes ++ [] := (List.append_nil _).symm
    rw [mavFramesConPayload, conPayloadFrom_frame hdrop, conPayloadFrom_end (Nat.le_add_left ..)]
    rfl
  · have hlen := congrArg List.length h
    rw [List.length_append, List.length_replicate, m.length_payload] at hlen
    rw [← statusDe_append_zeros (Nat.le_of_eq hlen), h, statusDe_payload]

/-- A frame that ends inside the field `value`. -/
def trimmedFrame : MavFrame2 where
  incompatFlags := 0
  compatFlags := 0
  seq := 9
  sysid := 1
  compid := 1
  msgid := 61006
  payload := [8, 7, 6, 5, 4, 3, 2, 1, 5]
  payload_lt := by decide
  checksum := #v[0xFD, 0xFE]
  signature := Vector.replicate 13 0

theorem status_trimming_undone_inside_value :
    mavFramesConPayload trimmedFrame.bytes = ⟨[(61006, [8, 7, 6, 5, 4, 3, 2, 1, 5])], none⟩ ∧
      statusDe [8, 7, 6, 5, 4, 3, 2, 1, 5] = .ok ⟨0x0102030405060708, 5, 0, 0⟩ :=
  status_trimming_undone ⟨0x0102030405060708, 5, 0, 0⟩ trimmedFrame 5 rfl

end KemtlsMavlink
