import KemtlsMavlink.Capture.MavFrames

namespace KemtlsMavlink

open Library

structure MavFrame2 where
  incompatFlags : UInt8
  compatFlags : UInt8
  seq : UInt8
  sysid : UInt8
  compid : UInt8
  msgid : Fin (2 ^ 24)
  payload : List UInt8
  payload_lt : payload.length < 256
  checksum : Vector UInt8 2
  signature : Vector UInt8 13

structure MavFrame1 where
  seq : UInt8
  sysid : UInt8
  compid : UInt8
  msgid : UInt8
  payload : List UInt8
  payload_lt : payload.length < 256
  checksum : Vector UInt8 2

/-- The signature is there when the flag says so. -/
def MavFrame2.bytes (f : MavFrame2) : List UInt8 :=
  [0xFD, UInt8.ofNat f.payload.length, f.incompatFlags, f.compatFlags, f.seq, f.sysid, f.compid] ++
    leBytes 3 f.msgid ++ f.payload ++ f.checksum.toList ++
    if f.incompatFlags &&& 0x01 ≠ 0 then f.signature.toList else []

def MavFrame1.bytes (f : MavFrame1) : List UInt8 :=
  [0xFE, UInt8.ofNat f.payload.length, f.seq, f.sysid, f.compid, f.msgid] ++ f.payload ++
    f.checksum.toList

inductive WireFrame
  | v1 (f : MavFrame1)
  | v2 (f : MavFrame2)

def WireFrame.bytes : WireFrame → List UInt8
  | .v1 f => f.bytes
  | .v2 f => f.bytes

def WireFrame.info : WireFrame → MavFrame
  | .v1 f => ⟨1, f.seq.toNat, f.msgid.toNat, f.payload.length⟩
  | .v2 f => ⟨2, f.seq.toNat, f.msgid, f.payload.length⟩

/-- A frame after bytes with which no frame begins. -/
structure Segment where
  junk : List UInt8
  quiet : ∀ b ∈ junk, b ≠ 0xFD ∧ b ≠ 0xFE
  frame : WireFrame

def Segment.bytes (s : Segment) : List UInt8 := s.junk ++ s.frame.bytes

variable {buf rest s : List UInt8} {i k n : Nat}

theorem getD_of_take (h : (buf.drop i).take n = s.take n) (hk : k < n) :
    buf.getD (i + k) 0 = s.getD k 0 := by
  have hget := congrArg (fun l ↦ l[k]?) h
  simp only [List.getElem?_take, hk, if_true, List.getElem?_drop] at hget
  rw [List.getD_eq_getElem?_getD, hget, List.getD_eq_getElem?_getD]

theorem take_of_drop (h : buf.drop i = s ++ rest) :
    (buf.drop i).take s.length = s.take s.length := by
  rw [h, List.take_left, List.take_length]

theorem length_of_drop (h : buf.drop i = s) (hs : s ≠ []) : buf.length = i + s.length := by
  have hl := congrArg List.length h
  have hpos := List.length_pos_of_ne_nil hs
  rw [List.length_drop] at hl
  omega

theorem toNat_ofNat_length {payload : List UInt8} (h : payload.length < 256) :
    (UInt8.ofNat payload.length).toNat = payload.length := by
  rw [UInt8.toNat_ofNat', Nat.mod_eq_of_lt h]

theorem MavFrame2.length_ge (f : MavFrame2) : 12 ≤ f.bytes.length := by
  rw [bytes]
  simp
  omega

theorem MavFrame1.length_ge (f : MavFrame1) : 8 ≤ f.bytes.length := by
  rw [bytes]
  simp

theorem MavFrame2.total_eq {f : MavFrame2} (h : (buf.drop i).take n = f.bytes.take n)
    (hn : 3 ≤ n) : total₂ buf i = f.bytes.length := by
  have hlen : (f.bytes.getD 1 0).toNat = f.payload.length := toNat_ofNat_length f.payload_lt
  have hflags : f.bytes.getD 2 0 = f.incompatFlags := rfl
  rw [total₂, getD_of_take h (by omega), getD_of_take h (by omega), hlen, hflags, bytes]
  split_ifs <;> simp <;> omega

theorem MavFrame1.total_eq {f : MavFrame1} (h : (buf.drop i).take n = f.bytes.take n)
    (hn : 2 ≤ n) : total₁ buf i = f.bytes.length := by
  have hlen : (f.bytes.getD 1 0).toNat = f.payload.length := toNat_ofNat_length f.payload_lt
  rw [total₁, getD_of_take h (by omega), hlen, bytes]
  simp
  omega

theorem MavFrame2.msgid_eq (f : MavFrame2) :
    (f.bytes.getD 7 0).toNat ||| (f.bytes.getD 8 0).toNat <<< 8 |||
      (f.bytes.getD 9 0).toNat <<< 16 = f.msgid := by
  have hid := f.msgid.isLt
  change (UInt8.ofNat f.msgid).toNat ||| (UInt8.ofNat (f.msgid / 256)).toNat <<< 8 |||
    (UInt8.ofNat (f.msgid / 256 / 256)).toNat <<< 16 = f.msgid
  simp only [UInt8.toNat_ofNat']
  rw [or_shiftLeft (n := 8) (by omega), or_shiftLeft (n := 16) (by omega)]
  omega

/-- A whole frame of version 2 as the scanners find it at an index. -/
structure MavFrame2.At (f : MavFrame2) (buf : List UInt8) (i : Nat) : Prop where
  first : buf.getD i 0 = 0xFD
  total : total₂ buf i = f.bytes.length
  fits : i + total₂ buf i ≤ buf.length
  length : (buf.getD (i + 1) 0).toNat = f.payload.length
  seq : buf.getD (i + 4) 0 = f.seq
  msgid : msgid₂ buf i = f.msgid

theorem MavFrame2.at_of_drop {f : MavFrame2} (h : buf.drop i = f.bytes ++ rest) :
    f.At buf i := by
  have ht := take_of_drop h
  have hge := f.length_ge
  have hl := length_of_drop h (by simp [MavFrame2.bytes])
  have htotal : total₂ buf i = f.bytes.length := MavFrame2.total_eq ht (by omega)
  have hget : ∀ k < 12, buf.getD (i + k) 0 = f.bytes.getD k 0 := fun k hk ↦
    getD_of_take ht (Nat.lt_of_lt_of_le hk hge)
  refine ⟨hget 0 (by decide), htotal, ?_, ?_, hget 4 (by decide), ?_⟩
  · rw [htotal, hl, List.length_append]
    exact Nat.add_le_add_left (Nat.le_add_right ..) _
  · rw [hget 1 (by decide)]
    exact toNat_ofNat_length f.payload_lt
  · rw [msgid₂, hget 7 (by decide), hget 8 (by decide), hget 9 (by decide), f.msgid_eq]

theorem mavFramesFrom_frame (f : WireFrame) (h : buf.drop i = f.bytes ++ rest) :
    mavFramesFrom buf i = (mavFramesFrom buf (i + f.bytes.length)).yielding f.info := by
  cases f with
  | v2 f =>
    have hat : f.At buf i := MavFrame2.at_of_drop h
    have hinfo : frame₂ buf i = WireFrame.info (.v2 f) := by
      rw [frame₂, hat.seq, hat.msgid, hat.length]
      rfl
    rw [mavFramesFrom_v2 hat.first hat.fits, hat.total, hinfo]
    rfl
  | v1 f =>
    have ht := take_of_drop h
    have hge := f.length_ge
    have hl := length_of_drop h (by simp [WireFrame.bytes, MavFrame1.bytes])
    have htotal : total₁ buf i = f.bytes.length := MavFrame1.total_eq ht (by
      change 2 ≤ f.bytes.length
      omega)
    have hget : ∀ k < 8, buf.getD (i + k) 0 = f.bytes.getD k 0 := fun k hk ↦
      getD_of_take ht (Nat.lt_of_lt_of_le hk hge)
    have hinfo : frame₁ buf i = WireFrame.info (.v1 f) := by
      rw [frame₁, hget 2 (by decide), hget 5 (by decide), hget 1 (by decide)]
      exact congrArg _ (toNat_ofNat_length f.payload_lt)
    have hfirst : buf.getD i 0 = 0xFE := hget 0 (by decide)
    rw [mavFramesFrom_v1 hfirst, htotal, hinfo]
    · rfl
    · rw [htotal, hl, List.length_append]
      exact Nat.add_le_add_left (Nat.le_add_right ..) _

theorem mavFramesFrom_cut (f : WireFrame) (hn : n < f.bytes.length)
    (h : buf.drop i = f.bytes.take n) : mavFramesFrom buf i = .done := by
  cases n with
  | zero =>
    apply mavFramesFrom_end
    simpa using h
  | succ n =>
    have ht : (buf.drop i).take (n + 1) = f.bytes.take (n + 1) := by
      rw [h, List.take_take, Nat.min_self]
    have hne : f.bytes.take (n + 1) ≠ [] := List.ne_nil_of_length_pos (by
      rw [List.length_take]
      omega)
    have hl := length_of_drop h hne
    rw [List.length_take, Nat.min_eq_left (Nat.le_of_lt hn)] at hl
    have hfirst : buf.getD i 0 = f.bytes.getD 0 0 := getD_of_take ht n.succ_pos
    cases f with
    | v2 f =>
      apply mavFramesFrom_cut₂ (by omega) hfirst
      by_cases h3 : 3 ≤ n + 1
      · rw [MavFrame2.total_eq ht h3, hl]
        exact Nat.add_lt_add_left hn i
      · rw [total₂]
        omega
    | v1 f =>
      apply mavFramesFrom_cut₁ (by omega) hfirst
      by_cases h2 : 2 ≤ n + 1
      · rw [MavFrame1.total_eq ht h2, hl]
        exact Nat.add_lt_add_left hn i
      · rw [total₁]
        omega

theorem mavFramesFrom_junk {junk : List UInt8} (hq : ∀ b ∈ junk, b ≠ 0xFD ∧ b ≠ 0xFE)
    (h : buf.drop i = junk ++ rest) :
    mavFramesFrom buf i = mavFramesFrom buf (i + junk.length) := by
  induction junk generalizing i with
  | nil => rfl
  | cons b junk ih =>
    have hl := length_of_drop h (by simp)
    have hb : buf.getD i 0 = b := getD_of_take (k := 0) (take_of_drop h) (by simp)
    have hnext : buf.drop (i + 1) = junk ++ rest := by
      rw [← List.drop_drop, h]
      rfl
    obtain ⟨h₂, h₁⟩ := hq b List.mem_cons_self
    rw [mavFramesFrom_other (by simp at hl; omega) (hb ▸ h₂) (hb ▸ h₁),
      ih (fun b hb ↦ hq b (List.mem_cons_of_mem _ hb)) hnext, List.length_cons, Nat.add_assoc,
      Nat.add_comm 1]

theorem mavFramesFrom_segments (segs : List Segment) (last : Segment)
    (n : Fin last.frame.bytes.length)
    (h : buf.drop i = segs.flatMap Segment.bytes ++ (last.junk ++ last.frame.bytes.take n)) :
    mavFramesFrom buf i = ⟨segs.map fun s ↦ s.frame.info, none⟩ := by
  induction segs generalizing i with
  | nil =>
    rw [mavFramesFrom_junk last.quiet h]
    refine mavFramesFrom_cut last.frame n.isLt ?_
    rw [← List.drop_drop, h]
    exact List.drop_left
  | cons s segs ih =>
    rw [List.flatMap_cons, Segment.bytes, List.append_assoc, List.append_assoc] at h
    have hframe : buf.drop (i + s.junk.length) = s.frame.bytes ++
        (segs.flatMap Segment.bytes ++ (last.junk ++ last.frame.bytes.take n)) := by
      rw [← List.drop_drop, h, List.drop_left]
    have hrest : buf.drop (i + s.junk.length + s.frame.bytes.length) =
        segs.flatMap Segment.bytes ++ (last.junk ++ last.frame.bytes.take n) := by
      rw [← List.drop_drop, hframe, List.drop_left]
    rw [mavFramesFrom_junk s.quiet h, mavFramesFrom_frame s.frame hframe, ih hrest]
    rfl

/-- The scanner finds the frames of a stream, whatever stands between them and in them, and the
last of them only when it is whole; and it comes to an end with every buffer. -/
theorem mavFrames_recovers :
    (∀ (segs : List Segment) (last : Segment) (n : Fin last.frame.bytes.length),
      mavFrames (segs.flatMap Segment.bytes ++ (last.junk ++ last.frame.bytes.take n)) =
        ⟨segs.map fun s ↦ s.frame.info, none⟩) ∧
      ∀ buf, (mavFrames buf).raised = none :=
  ⟨fun segs last n ↦ mavFramesFrom_segments segs last n rfl, fun buf ↦ mavFramesFrom_raised buf 0⟩

end KemtlsMavlink
