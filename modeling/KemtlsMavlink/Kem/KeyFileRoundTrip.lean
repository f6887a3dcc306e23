import KemtlsMavlink.Kem.KeyFile
import KemtlsMavlink.Session.Sample

namespace KemtlsMavlink

open Library

variable {ρ : Type} {P : Platform ρ} {storage : Bool} {h : KemtlsPkFileHdr} {data : List UInt8}

def FingerprintOk (P : Platform ρ) (storage : Bool) (outPk : List UInt8) (fp : Bytes 32) : Prop :=
  fp = Bytes.zeros 32 ∨ (outPk ≠ [] ∨ storage = true) ∧ P.sha256 outPk = fp

theorem all_zero_iff (fp : Bytes 32) : fp.toList.all (· = 0) = true ↔ fp = Bytes.zeros 32 := by
  rw [List.all_eq_true]
  constructor
  · intro h
    apply Vector.ext
    intro i hi
    have hz := h fp[i] (Vector.mem_toList_iff.mpr (Vector.getElem_mem hi))
    simpa [Bytes.zeros] using hz
  · rintro rfl
    simp [Bytes.zeros]

theorem fingerprint_test {outPk : List UInt8} {fp : Bytes 32} :
    ¬ ((!fp.toList.all (· = 0)) = true ∧
      (computeSha256 P (if (outPk.isEmpty && !storage) = true then none else some outPk)).getD
        (Bytes.zeros 32) ≠ fp) ↔ FingerprintOk P storage outPk fp := by
  rw [Bool.not_eq_true', ← Bool.not_eq_true, all_zero_iff, FingerprintOk]
  by_cases hz : fp = Bytes.zeros 32
  · simp [hz]
  · by_cases he : (outPk.isEmpty && !storage) = true
    · have hn : ¬ (outPk ≠ [] ∨ storage = true) := by simpa using he
      simp [he, hn, hz, computeSha256, Ne.symm hz]
    · have hy : outPk ≠ [] ∨ storage = true := by
        by_contra hn
        exact he (by simpa using hn)
      simp [he, hy, hz, computeSha256]

theorem load_eq_ok_iff {r : KemtlsPk} :
    loadKemtlsPk P storage (.ok (h.bytes ++ data)) = .ok r ↔
      h.magic = kemtMagic ∧ h.version = 1 ∧ h.pkLen ≤ maxPkLen ∧
        (data.take h.pkLen.toNat).length = h.pkLen.toNat ∧
        crc32Buf (data.take h.pkLen.toNat) = h.crc32 ∧
        FingerprintOk P storage (data.take h.pkLen.toNat) h.pkFingerprint ∧
        ⟨data.take h.pkLen.toNat, h.suiteId, h.alg, h.createdUnix, h.pkFingerprint⟩ = r := by
  have hread : (h.bytes ++ data).take kemtlsPkFileHdrSize = h.bytes :=
    List.take_left' h.length_bytes
  have hrest : (h.bytes ++ data).drop kemtlsPkFileHdrSize = data :=
    List.drop_left' h.length_bytes
  have hsize : ¬ (h.bytes ++ data).length < kemtlsPkFileHdrSize := by simp
  unfold loadKemtlsPk
  simp only [hread, hrest, h.ofBytes_bytes, if_neg hsize]
  by_cases hm : h.magic = kemtMagic
  · by_cases hv : h.version = 1
    · by_cases hl : h.pkLen ≤ maxPkLen
      · have hnl : ¬ h.pkLen > maxPkLen := UInt32.not_lt.mpr hl
        by_cases hd : (data.take h.pkLen.toNat).length = h.pkLen.toNat
        · have hnd : ¬ (h.pkLen ≠ 0 ∧ (data.take h.pkLen.toNat).length ≠ h.pkLen.toNat) :=
            fun hn ↦ hn.2 hd
          by_cases hc : crc32Buf (data.take h.pkLen.toNat) = h.crc32
          · rw [if_neg (not_not.mpr hm), if_neg (not_not.mpr hv), if_neg hnl, if_neg hnd,
              if_neg (not_not.mpr hc)]
            by_cases hf : FingerprintOk P storage (data.take h.pkLen.toNat) h.pkFingerprint
            · rw [if_neg (fingerprint_test.mpr hf)]
              simp only [hm, hv, hl, hd, hc, hf, true_and, Except.ok.injEq]
            · rw [if_pos (not_not.mp (mt fingerprint_test.mp hf))]
              simp [hf]
          · rw [if_neg (not_not.mpr hm), if_neg (not_not.mpr hv), if_neg hnl, if_neg hnd, if_pos hc]
            simp [hc]
        · have hz : h.pkLen ≠ 0 := fun hz ↦ hd (by simp [hz])
          rw [if_neg (not_not.mpr hm), if_neg (not_not.mpr hv), if_neg hnl, if_pos ⟨hz, hd⟩]
          simp only [hd, reduceCtorEq, false_and, and_false]
      · rw [if_neg (not_not.mpr hm), if_neg (not_not.mpr hv), if_pos (UInt32.not_le.mp hl)]
        simp [hl]
    · simp [hm, hv]
  · simp [hm]

variable {io : SaveIo} {pk : Option (List UInt8)} {suiteId alg : UInt8} {createdUnix : UInt64}
  {fingerprint32 : Option (Bytes 32)} {file : List UInt8}

theorem crc32Buf_nil : crc32Buf [] = 0 := by decide

theorem savedHdr_crc32 (P : Platform ρ) (pk : Option (List UInt8)) (suiteId alg : UInt8)
    (createdUnix : UInt64) (fingerprint32 : Option (Bytes 32)) :
    (savedHdr P pk suiteId alg createdUnix fingerprint32).crc32 = crc32Buf (pk.getD []) := by
  simp only [savedHdr]
  split_ifs with hl
  · rfl
  · rw [List.length_eq_zero_iff.mp (not_not.mp hl), crc32Buf_nil]

theorem save_eq_ok (hs : saveKemtlsPkAtomic P io pk suiteId alg createdUnix fingerprint32 =
    .ok file) :
    file = (savedHdr P pk suiteId alg createdUnix fingerprint32).bytes ++ pk.getD [] := by
  unfold saveKemtlsPkAtomic at hs
  cases ho : io.openErr with
  | some err => simp [ho] at hs
  | none =>
    simp only [ho] at hs
    split_ifs at hs
    cases hr : io.renameErr with
    | some err => simp [hr] at hs
    | none => simpa [hr] using hs.symm

theorem savedHdr_fingerprint (suiteId alg : UInt8) (createdUnix : UInt64)
    (hfp : fingerprint32 = none ∨ fingerprint32 = some (P.sha256 (pk.getD []))) :
    (savedHdr P pk suiteId alg createdUnix fingerprint32).pkFingerprint =
      if pk.getD [] = [] ∧ fingerprint32 = none then Bytes.zeros 32
      else P.sha256 (pk.getD []) := by
  rcases hfp with rfl | rfl
  · cases pk with
    | none => simp [savedHdr]
    | some data => simp [savedHdr, computeSha256]
  · simp [savedHdr]

/-- `load_kemtls_pk` gives back the key, the suite, the algorithm, the creation time and
the fingerprint, which is 32 zero bytes for an empty key that has none. -/
def LoadsBack (P : Platform ρ) (storage : Bool) (file data : List UInt8) (suiteId alg : UInt8)
    (createdUnix : UInt64) : Prop :=
  ∃ fp, loadKemtlsPk P storage (.ok file) = .ok ⟨data, suiteId, alg, createdUnix, fp⟩ ∧
    (fp = P.sha256 data ∨ data = [] ∧ fp = Bytes.zeros 32)

/-- The key is no longer than the reader takes; and it is not an empty key whose
fingerprint is explicit, and read into a vector without storage. -/
def Loadable (P : Platform ρ) (storage : Bool) (data : List UInt8)
    (fingerprint32 : Option (Bytes 32)) : Prop :=
  data.length ≤ maxPkLen.toNat ∧
    ¬ (data = [] ∧ fingerprint32.isSome ∧ storage = false ∧ P.sha256 [] ≠ Bytes.zeros 32)

theorem fingerprintOk_saved_iff {data : List UInt8} {fp : Bytes 32}
    (h : fp = if data = [] ∧ fingerprint32 = none then Bytes.zeros 32 else P.sha256 data) :
    FingerprintOk P storage data fp ↔
      ¬ (data = [] ∧ fingerprint32.isSome ∧ storage = false ∧ P.sha256 [] ≠ Bytes.zeros 32) := by
  unfold FingerprintOk
  by_cases he : data = []
  · subst he
    cases fingerprint32 with
    | none => simp [h]
    | some fp' =>
      rw [if_neg (by simp)] at h
      by_cases hz : P.sha256 [] = Bytes.zeros 32
      · simp [h, hz]
      · simp [h, hz]
  · rw [if_neg fun hn ↦ he hn.1] at h
    simp [h, he]

/-- The files that `save_kemtls_pk_atomic` writes and `load_kemtls_pk` gives back. -/
theorem saved_key_loads_back_iff (P : Platform ρ) (storage : Bool) (io : SaveIo)
    (pk : Option (List UInt8)) (suiteId alg : UInt8) (createdUnix : UInt64)
    (fingerprint32 : Option (Bytes 32)) (file : List UInt8)
    (hfp : fingerprint32 = none ∨ fingerprint32 = some (P.sha256 (pk.getD [])))
    (hs : saveKemtlsPkAtomic P io pk suiteId alg createdUnix fingerprint32 = .ok file) :
    LoadsBack P storage file (pk.getD []) suiteId alg createdUnix ↔
      Loadable P storage (pk.getD []) fingerprint32 := by
  have hfile := save_eq_ok hs
  have hcrc := savedHdr_crc32 P pk suiteId alg createdUnix fingerprint32
  have hprint := savedHdr_fingerprint suiteId alg createdUnix hfp
  generalize hh : savedHdr P pk suiteId alg createdUnix fingerprint32 = h at hfile hcrc hprint
  have hmax : maxPkLen.toNat < 2 ^ 32 := maxPkLen.toNat_lt
  have hlen : h.pkLen = UInt32.ofNat (pk.getD []).length := hh ▸ rfl
  have hrest : h.magic = kemtMagic ∧ h.version = 1 ∧ h.suiteId = suiteId ∧ h.alg = alg ∧
      h.createdUnix = createdUnix := hh ▸ ⟨rfl, rfl, rfl, rfl, rfl⟩
  obtain ⟨hm, hv, hsuite, halg, hcreated⟩ := hrest
  generalize pk.getD [] = data at *
  have hok : FingerprintOk P storage data h.pkFingerprint ↔ _ := fingerprintOk_saved_iff hprint
  rw [LoadsBack, hfile]
  simp only [load_eq_ok_iff]
  constructor
  · rintro ⟨fp, ⟨-, -, hle, -, -, hf, hr⟩, -⟩
    have hdata : data.take h.pkLen.toNat = data := congrArg KemtlsPk.pk hr
    refine ⟨?_, hok.mp (hdata ▸ hf)⟩
    calc data.length ≤ h.pkLen.toNat := by rw [← hdata]; exact List.length_take_le ..
      _ ≤ maxPkLen.toNat := hle
  · intro ⟨hle, hne⟩
    have hto : h.pkLen.toNat = data.length := by
      rw [hlen, UInt32.toNat_ofNat']
      exact Nat.mod_eq_of_lt (Nat.lt_of_le_of_lt hle hmax)
    have hdata : data.take h.pkLen.toNat = data := by rw [hto, List.take_length]
    have hlmax : h.pkLen ≤ maxPkLen := UInt32.le_iff_toNat_le.mpr (hto ▸ hle)
    rw [hdata]
    refine ⟨h.pkFingerprint, ⟨hm, hv, hlmax, hto.symm, hcrc.symm, hok.mpr hne, ?_⟩, ?_⟩
    · rw [hsuite, halg, hcreated]
    · rw [hprint]
      split_ifs with hn
      · exact .inr ⟨hn.1, rfl⟩
      · exact .inl rfl

def savedIo (n : Nat) : SaveIo := ⟨none, 56, n, 0, none⟩

theorem save_savedIo (P : Platform ρ) (data : List UInt8) (suiteId alg : UInt8)
    (createdUnix : UInt64) (fingerprint32 : Option (Bytes 32)) :
    saveKemtlsPkAtomic P (savedIo data.length) (some data) suiteId alg createdUnix fingerprint32 =
      .ok ((savedHdr P (some data) suiteId alg createdUnix fingerprint32).bytes ++ data) := by
  simp [saveKemtlsPkAtomic, savedIo, kemtlsPkFileHdrSize]

def sampleRamp : List UInt8 := (List.range 2249).map UInt8.ofNat

theorem saved_key_loads_back_full_length :
    LoadsBack samplePlatform false
      ((savedHdr samplePlatform (some sampleRamp) 1 0 9 none).bytes ++ sampleRamp) sampleRamp 1 0
        9 := by
  have hlen : sampleRamp.length = 2249 := by rw [sampleRamp, List.length_map, List.length_range]
  generalize sampleRamp = data at hlen ⊢
  refine (saved_key_loads_back_iff samplePlatform false (savedIo data.length) (some data) 1 0 9 none
    _ (.inl rfl) (save_savedIo samplePlatform data 1 0 9 none)).mpr ⟨?_, fun h ↦ nomatch h.2.1⟩
  rw [Option.getD_some, hlen]
  decide

/-- A key of 32769 bytes is saved, and an empty one with its SHA-256, but neither
is given back. -/
theorem saved_keys_not_loaded_back :
    (∃ file, saveKemtlsPkAtomic samplePlatform (savedIo 32769) (some (List.replicate 32769 0)) 1 0 0
        none = .ok file ∧
      ¬ LoadsBack samplePlatform false file (List.replicate 32769 0) 1 0 0) ∧
    ∃ file, saveKemtlsPkAtomic samplePlatform (savedIo 0) (some []) 1 0 0
        (some (samplePlatform.sha256 [])) = .ok file ∧
      ¬ LoadsBack samplePlatform false file [] 1 0 0 := by
  constructor
  · have hs := save_savedIo samplePlatform (List.replicate 32769 0) 1 0 0 none
    rw [List.length_replicate] at hs
    refine ⟨_, hs, ?_⟩
    rintro ⟨fp, hload, -⟩
    obtain ⟨-, -, hle, -⟩ := load_eq_ok_iff.mp hload
    simp only [savedHdr, Option.getD_some, List.length_replicate] at hle
    exact absurd hle (by decide)
  · refine ⟨_, save_savedIo samplePlatform [] 1 0 0 _, ?_⟩
    rintro ⟨fp, hload, -⟩
    obtain ⟨-, -, -, -, -, hf, -⟩ := load_eq_ok_iff.mp hload
    have hz : samplePlatform.sha256 [] ≠ Bytes.zeros 32 := by decide +kernel
    simp [FingerprintOk, savedHdr, hz] at hf

end KemtlsMavlink
