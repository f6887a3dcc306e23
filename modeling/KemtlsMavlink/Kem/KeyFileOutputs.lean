import KemtlsMavlink.Kem.KeyFileCorruption

namespace KemtlsMavlink

open Library

variable {ρ : Type} {P : Platform ρ} {file : Except String (List UInt8)}

def vectorResize (v : List UInt8) (n : Nat) : List UInt8 :=
  v.take n ++ List.replicate (n - v.length) 0

/-- The five outputs of `load_kemtls_pk`. -/
structure LoadOut where
  outPk : List UInt8
  outSuiteId : UInt8
  outAlg : UInt8
  outCreatedUnix : UInt64
  outFingerprint32 : Bytes 32
  deriving DecidableEq

/-- `load_kemtls_pk` on the variables of its caller: the text of the error, if there is one, and
their values then. `spare` says that an empty `out_pk` has storage. -/
def loadKemtlsPkInto (P : Platform ρ) (spare : Bool) (file : Except String (List UInt8))
    (out : LoadOut) : Option String × LoadOut :=
  match file with
  | .error err => (some err, out)
  | .ok bytes =>
    let hdr := KemtlsPkFileHdr.ofBytes (bytes.take kemtlsPkFileHdrSize)
    if bytes.length < kemtlsPkFileHdrSize then (some "read hdr failed", out)
    else if hdr.magic ≠ kemtMagic then (some "bad magic", out)
    else if hdr.version ≠ 1 then (some "unsupported version", out)
    else if hdr.pkLen > maxPkLen then (some "pk_len too large", out)
    else
      let storage := !out.outPk.isEmpty || spare
      let resized := vectorResize out.outPk hdr.pkLen.toNat
      let got := (bytes.drop kemtlsPkFileHdrSize).take hdr.pkLen.toNat
      let out := { out with
        outPk := if hdr.pkLen ≠ 0 then got ++ resized.drop got.length else resized }
      if hdr.pkLen ≠ 0 ∧ got.length ≠ hdr.pkLen.toNat then (some "read pk failed", out)
      else if crc32Buf out.outPk ≠ hdr.crc32 then (some "crc mismatch", out)
      else
        let out := ⟨out.outPk, hdr.suiteId, hdr.alg, hdr.createdUnix, hdr.pkFingerprint⟩
        let data := if out.outPk.isEmpty && !storage then none else some out.outPk
        let localFp := (computeSha256 P data).getD (Bytes.zeros 32)
        let fileFpZero := hdr.pkFingerprint.toList.all (· = 0)
        if !fileFpZero ∧ localFp ≠ hdr.pkFingerprint then (some "fingerprint mismatch", out)
        else (none, out)

structure HeaderPasses (bytes : List UInt8) (hdr : KemtlsPkFileHdr) : Prop where
  size : kemtlsPkFileHdrSize ≤ bytes.length
  magic : hdr.magic = kemtMagic
  version : hdr.version = 1
  pkLen : hdr.pkLen ≤ maxPkLen

/-- The file fails the checks of its header, or it passes all of them, or the variables hold
already what is stored until a later check fails. -/
def KeepsOutputs (P : Platform ρ) (spare : Bool) (bytes : List UInt8) (out : LoadOut) : Prop :=
  let hdr := KemtlsPkFileHdr.ofBytes (bytes.take kemtlsPkFileHdrSize)
  let got := (bytes.drop kemtlsPkFileHdrSize).take hdr.pkLen.toNat
  HeaderPasses bytes hdr →
    (got.length ≠ hdr.pkLen.toNat →
      out.outPk.length = hdr.pkLen.toNat ∧ out.outPk.take got.length = got) ∧
    (got.length = hdr.pkLen.toNat → crc32Buf got ≠ hdr.crc32 → out.outPk = got) ∧
    (got.length = hdr.pkLen.toNat → crc32Buf got = hdr.crc32 →
      ¬ FingerprintOk P (!out.outPk.isEmpty || spare) got hdr.pkFingerprint →
      out = ⟨got, hdr.suiteId, hdr.alg, hdr.createdUnix, hdr.pkFingerprint⟩)

@[simp] theorem length_vectorResize (v : List UInt8) (n : Nat) : (vectorResize v n).length = n := by
  simp only [vectorResize, List.length_append, List.length_take, List.length_replicate]
  omega

theorem stored_of_full {v got : List UInt8} {n : UInt32} (h : got.length = n.toNat) :
    (if n ≠ 0 then got ++ (vectorResize v n.toNat).drop got.length
      else vectorResize v n.toNat) = got := by
  split_ifs with hn
  · rw [h, List.drop_of_length_le (by simp), List.append_nil]
  · obtain rfl := not_not.mp hn
    rw [List.length_eq_zero_iff.mp h]
    simp [vectorResize]

theorem ne_zero_of_short {got : List UInt8} {n : UInt32} (hle : got.length ≤ n.toNat)
    (hl : got.length ≠ n.toNat) : n ≠ 0 := by
  rintro rfl
  exact hl (Nat.le_antisymm hle (Nat.zero_le _))

theorem stored_of_short {v got : List UInt8} {n : Nat} (h : got.length < n) :
    got ++ (vectorResize v n).drop got.length = v ↔ v.length = n ∧ v.take got.length = got := by
  constructor
  · intro hv
    have hl := congrArg List.length hv
    simp only [List.length_append, List.length_drop, length_vectorResize] at hl
    refine ⟨by omega, ?_⟩
    rw [← hv, List.take_left]
  · rintro ⟨hl, ht⟩
    have hr : vectorResize v n = v := by
      rw [vectorResize, ← hl, List.take_length, Nat.sub_self, List.replicate_zero, List.append_nil]
    rw [hr]
    calc got ++ v.drop got.length = v.take got.length ++ v.drop got.length := by rw [ht]
      _ = v := List.take_append_drop ..

variable {spare : Bool} {bytes : List UInt8} {out : LoadOut}

theorem loadInto_of_headerPasses {hdr : KemtlsPkFileHdr}
    (hh : hdr = KemtlsPkFileHdr.ofBytes (bytes.take kemtlsPkFileHdrSize))
    (h : HeaderPasses bytes hdr) :
    let got := (bytes.drop kemtlsPkFileHdrSize).take hdr.pkLen.toNat
    loadKemtlsPkInto P spare (.ok bytes) out =
      if got.length ≠ hdr.pkLen.toNat then
        (some "read pk failed", { out with
          outPk := got ++ (vectorResize out.outPk hdr.pkLen.toNat).drop got.length })
      else if crc32Buf got ≠ hdr.crc32 then (some "crc mismatch", { out with outPk := got })
      else
        let storage := !out.outPk.isEmpty || spare
        let data := if got.isEmpty && !storage then none else some got
        let localFp := (computeSha256 P data).getD (Bytes.zeros 32)
        let out : LoadOut := ⟨got, hdr.suiteId, hdr.alg, hdr.createdUnix, hdr.pkFingerprint⟩
        if !hdr.pkFingerprint.toList.all (· = 0) ∧ localFp ≠ hdr.pkFingerprint then
          (some "fingerprint mismatch", out)
        else (none, out) := by
  unfold loadKemtlsPkInto
  dsimp only
  rw [← hh, if_neg (Nat.not_lt.mpr h.size), if_neg (not_not.mpr h.magic),
    if_neg (not_not.mpr h.version), if_neg (UInt32.not_lt.mpr h.pkLen)]
  have hle := List.length_take_le hdr.pkLen.toNat (bytes.drop kemtlsPkFileHdrSize)
  generalize (bytes.drop kemtlsPkFileHdrSize).take hdr.pkLen.toNat = got at hle ⊢
  by_cases hl : got.length = hdr.pkLen.toNat
  · rw [stored_of_full hl, if_neg fun hn ↦ hn.2 hl, if_neg (not_not.mpr hl)]
  · have hn := ne_zero_of_short hle hl
    rw [if_pos hn, if_pos ⟨hn, hl⟩, if_pos hl]

theorem loadInto_of_not_headerPasses
    (h : ¬ HeaderPasses bytes (KemtlsPkFileHdr.ofBytes (bytes.take kemtlsPkFileHdrSize))) :
    (loadKemtlsPkInto P spare (.ok bytes) out).2 = out := by
  unfold loadKemtlsPkInto
  dsimp only
  generalize KemtlsPkFileHdr.ofBytes (bytes.take kemtlsPkFileHdrSize) = hdr at h ⊢
  by_cases hsize : bytes.length < kemtlsPkFileHdrSize
  · rw [if_pos hsize]
  · by_cases hmagic : hdr.magic = kemtMagic
    · by_cases hversion : hdr.version = 1
      · have hlen : hdr.pkLen > maxPkLen := UInt32.not_le.mp fun hle ↦
          h ⟨Nat.not_lt.mp hsize, hmagic, hversion, hle⟩
        rw [if_neg hsize, if_neg (not_not.mpr hmagic), if_neg (not_not.mpr hversion), if_pos hlen]
      · rw [if_neg hsize, if_neg (not_not.mpr hmagic), if_pos hversion]
    · rw [if_neg hsize, if_pos hmagic]

theorem loadKemtlsPk_eq_into (P : Platform ρ) (spare : Bool) (file : Except String (List UInt8))
    (out : LoadOut) : loadKemtlsPk P (!out.outPk.isEmpty || spare) file =
      match loadKemtlsPkInto P spare file out with
      | (some err, _) => .error err
      | (none, r) =>
        .ok ⟨r.outPk, r.outSuiteId, r.outAlg, r.outCreatedUnix, r.outFingerprint32⟩ := by
  cases file with
  | error err => rfl
  | ok bytes =>
    unfold loadKemtlsPk loadKemtlsPkInto
    dsimp only
    generalize KemtlsPkFileHdr.ofBytes (bytes.take kemtlsPkFileHdrSize) = hdr
    have hle := List.length_take_le hdr.pkLen.toNat (bytes.drop kemtlsPkFileHdrSize)
    generalize (bytes.drop kemtlsPkFileHdrSize).take hdr.pkLen.toNat = got at hle ⊢
    by_cases hl : got.length = hdr.pkLen.toNat
    · rw [stored_of_full hl]
      generalize (!out.outPk.isEmpty || spare) = storage
      split_ifs <;> rfl
    · have hshort : hdr.pkLen ≠ 0 ∧ got.length ≠ hdr.pkLen.toNat := ⟨ne_zero_of_short hle hl, hl⟩
      rw [if_pos hshort, if_pos hshort]
      split_ifs <;> rfl

theorem rejected_iff {err : String} {out' : LoadOut} :
    ((some err, out').1 ≠ none → (some err, out').2 = out) ↔ out' = out :=
  imp_iff_right (Option.some_ne_none err)

theorem keeps_of_headerPasses {hdr : KemtlsPkFileHdr}
    (hh : hdr = KemtlsPkFileHdr.ofBytes (bytes.take kemtlsPkFileHdrSize))
    (h : HeaderPasses bytes hdr) :
    ((loadKemtlsPkInto P spare (.ok bytes) out).1 ≠ none →
        (loadKemtlsPkInto P spare (.ok bytes) out).2 = out) ↔ KeepsOutputs P spare bytes out := by
  rw [loadInto_of_headerPasses hh h, KeepsOutputs]
  dsimp only
  rw [← hh, imp_iff_right h]
  have hle := List.length_take_le hdr.pkLen.toNat (bytes.drop kemtlsPkFileHdrSize)
  generalize (bytes.drop kemtlsPkFileHdrSize).take hdr.pkLen.toNat = got at hle ⊢
  by_cases hl : got.length = hdr.pkLen.toNat
  · rw [if_neg (not_not.mpr hl), and_iff_right fun hn ↦ absurd hl hn, imp_iff_right hl,
      imp_iff_right hl]
    by_cases hc : crc32Buf got = hdr.crc32
    · rw [if_neg (not_not.mpr hc), and_iff_right fun hn ↦ absurd hc hn, imp_iff_right hc]
      by_cases hf : FingerprintOk P (!out.outPk.isEmpty || spare) got hdr.pkFingerprint
      · rw [if_neg (fingerprint_test.mpr hf)]
        exact iff_of_true (fun hn ↦ absurd rfl hn) fun hn ↦ absurd hf hn
      · rw [if_pos (not_not.mp (mt fingerprint_test.mp hf)), rejected_iff, imp_iff_right hf]
        exact eq_comm
    · rw [if_pos hc, rejected_iff, imp_iff_right hc, and_iff_left fun he ↦ absurd he hc]
      exact ⟨fun he ↦ congrArg LoadOut.outPk he.symm, fun he ↦ by rw [← he]⟩
  · rw [if_pos hl, rejected_iff, imp_iff_right hl, and_iff_left ⟨fun he ↦ absurd he hl,
      fun he ↦ absurd he hl⟩, ← stored_of_short (Nat.lt_of_le_of_ne hle hl)]
    exact ⟨fun he ↦ congrArg LoadOut.outPk he, fun he ↦ by rw [he]⟩

/-- The loads that change nothing when they fail. -/
theorem failed_load_keeps_outputs_iff (P : Platform ρ) (spare : Bool)
    (file : Except String (List UInt8)) (out : LoadOut) :
    ((loadKemtlsPkInto P spare file out).1 ≠ none →
        (loadKemtlsPkInto P spare file out).2 = out) ↔
      ∀ bytes, file = .ok bytes → KeepsOutputs P spare bytes out := by
  cases file with
  | error err => exact ⟨fun _ _ h ↦ (nomatch h), fun _ _ ↦ rfl⟩
  | ok bytes =>
    have hall : (∀ bytes', (.ok bytes : Except String (List UInt8)) = .ok bytes' →
        KeepsOutputs P spare bytes' out) ↔ KeepsOutputs P spare bytes out :=
      ⟨fun h ↦ h bytes rfl, fun h _ he ↦ Except.ok.inj he ▸ h⟩
    rw [hall]
    by_cases h : HeaderPasses bytes (KemtlsPkFileHdr.ofBytes (bytes.take kemtlsPkFileHdrSize))
    · exact keeps_of_headerPasses rfl h
    · exact iff_of_true (fun _ ↦ loadInto_of_not_headerPasses h) fun hp ↦ absurd hp h

/-- A file with a wrong fingerprint is turned away, but what it holds is in all the outputs. -/
theorem rejected_file_in_outputs :
    let fp : Bytes 32 := Vector.replicate 32 3
    let file := (savedHdr samplePlatform (some [5]) 1 7 9 (some fp)).bytes ++ [5]
    let out : LoadOut := ⟨[1, 2], 4, 4, 4, Bytes.zeros 32⟩
    let r := loadKemtlsPkInto samplePlatform false (.ok file) out
    r.1 = some "fingerprint mismatch" ∧ r.2 = ⟨[5], 1, 7, 9, fp⟩ ∧ r.2 ≠ out := by
  decide +kernel

end KemtlsMavlink
