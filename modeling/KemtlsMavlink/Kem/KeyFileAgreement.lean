import KemtlsMavlink.Kem.KeyFileRoundTrip
import KemtlsMavlink.Session.WholeKeys

namespace KemtlsMavlink

open Library

variable {ρ : Type} {P : Platform ρ} {fs : PdkFs} {file : List UInt8}

/-- A served file whose bytes are those of a good header and its key. -/
theorem loadPks_serves (sid : UInt64) {e : Env ρ} {h : KemtlsPkFileHdr} {data : List UInt8}
    {init : Nat → UInt8} (hs : e.fs.Serves (h.bytes ++ data)) (hw : 56 ≤ e.fs.count 0 56)
    (hi : e.callocPks = some init) (hm : h.magic = kemtMagic) (hv : h.version = 1)
    (hu : h.suiteId = 1) (hl : h.pkLen.toNat = data.length) (hd : 0 < data.length)
    (hle : data.length ≤ 65536) (hf : h.pkFingerprint = P.sha256 data) :
    ∃ k fx, loadPks P e sid = .ok (k, fx) ∧ k.pks.read 0 data.length = data ∧
      k.hdr = ⟨h.magic, h.version, h.suiteId, h.alg, data.length, h.pkFingerprint.toList⟩ ∧
      k.fpCalc = P.sha256 data := by
  have hread : e.fs.read 0 56 = h.bytes := by
    rw [PdkFs.read, hs.content, List.drop_zero, Nat.min_eq_left hw]
    exact List.take_left' h.length_bytes
  have hhdr : pdkHeader (e.fs.read 0 56) =
      ⟨h.magic, h.version, h.suiteId, h.alg, data.length, h.pkFingerprint.toList⟩ := by
    rw [hread, pdkHeader_eq h.length_bytes, h.ofBytes_bytes, ← hl]
  have hsize : (h.bytes ++ data).length = 56 + data.length := by
    rw [List.length_append, h.length_bytes, kemtlsPkFileHdrSize]
  have hlen : (e.fs.read 0 56).length = 56 := by rw [hread, h.length_bytes, kemtlsPkFileHdrSize]
  have herr : pdkError e.fs = none := by
    rw [pdkError_eq_none, hhdr]
    exact ⟨⟨_, hs.statSize, hsize ▸ Nat.le_add_right 56 _⟩, hs.openOk, hlen, hm, hv, hu,
      ⟨_, hs.statSize2, Nat.le_of_eq hsize.symm⟩, hd, hle⟩
  obtain ⟨hgot, hget⟩ := readPks_serves data.length data.length 0
    (Block.calloc apKemPublicKeyBytes init) hs (Nat.le_of_eq hsize.symm) (by omega)
    (by omega) (fun j hj ↦ absurd hj (Nat.not_lt_zero j))
  have hkey : (readPks e.fs data.length data.length 0
      (Block.calloc apKemPublicKeyBytes init)).1.read 0 data.length = data := by
    refine Block.read_eq fun j hj ↦ ?_
    have hoff : h.bytes.length ≤ 56 + j := h.length_bytes ▸ Nat.le_add_right 56 j
    rw [Nat.zero_add, hget j hj, List.getD_append_right _ _ _ _ hoff, h.length_bytes,
      kemtlsPkFileHdrSize, Nat.add_sub_cancel_left]
  have hok : ∃ fx, loadPks P e sid =
      .ok (⟨(readPks e.fs data.length data.length 0 (Block.calloc apKemPublicKeyBytes init)).1,
        pdkHeader (e.fs.read 0 56), P.sha256 data⟩, fx) := by
    simp only [loadPks_eq_ok, readPdk_eq_ok, hhdr]
    exact ⟨_, herr, init, hi, Nat.le_of_eq hgot.symm, by rw [hkey, hf], by rw [hkey], rfl⟩
  obtain ⟨fx, hok⟩ := hok
  exact ⟨_, fx, hok, hkey, hhdr, rfl⟩

/-- The three writers write `file` for the key and the creation time, and the two
readers get the key out of it, the `HELLO` path when the header comes in one read. -/
structure KeyFileAgrees (P : Platform ρ) (pk : Bytes apKemPublicKeyBytes) (created : UInt64)
    (file : List UInt8) : Prop where
  pack : ∀ io f, KemtlsPackHqc128.main P (some pk) created io = .ok f ↔
    io = ⟨true, 56, 2249⟩ ∧ f = file
  script : makePdkFromSo P (some pk.toList) created.toNat = some file
  save : ∀ io f, saveKemtlsPkAtomic P io (some pk.toList) 1 0 created none = .ok f ↔
    io = savedIo 2249 ∧ f = file
  load : ∀ storage, loadKemtlsPk P storage (.ok file) =
    .ok ⟨pk.toList, 1, 0, created, P.sha256 pk.toList⟩
  hello : ∀ (e : Env ρ) (sid : UInt64), e.fs.Serves file → 56 ≤ e.fs.count 0 56 →
    e.callocPks.isSome → ∃ k fx, loadPks P e sid = .ok (k, fx) ∧
      k.pks.read 0 apKemPublicKeyBytes = pk.toList ∧
      k.hdr = ⟨kemtMagic, 1, 1, 0, apKemPublicKeyBytes, (P.sha256 pk.toList).toList⟩ ∧
      k.fpCalc = P.sha256 pk.toList

section Agreement

variable (P) (pk : Bytes 2249) (created : UInt64)

def defaultHdr : KemtlsPkFileHdr where
  magic := kemtMagic
  version := 1
  suiteId := 1
  alg := 0
  createdUnix := created
  pkLen := 2249
  pkFingerprint := P.sha256 pk.toList
  crc32 := crc32Buf pk.toList

theorem length_key : pk.toList.length = 2249 := pk.length_toList

theorem savedHdr_default :
    savedHdr P (some pk.toList) 1 0 created none = defaultHdr P pk created := by
  have hne : pk.toList.length ≠ 0 := by
    rw [length_key]
    decide
  simp only [savedHdr, Option.getD_some, if_pos hne, computeSha256, Option.map_some]
  rw [length_key]
  rfl

theorem main_eq_ok_iff (io : KemtlsPackHqc128.FileIo) (f : List UInt8) :
    KemtlsPackHqc128.main P (some pk) created io = .ok f ↔
      io = ⟨true, 56, 2249⟩ ∧ f = (defaultHdr P pk created).bytes ++ pk.toList := by
  have hbytes : (KemtlsPackHqc128.header P pk created).bytes = (defaultHdr P pk created).bytes := by
    simp only [KemtlsPackHqc128.KemtlsPkFileHdr.bytes, KemtlsPackHqc128.header, length_key]
    rfl
  have hsize : (defaultHdr P pk created).bytes.length = 56 := KemtlsPkFileHdr.length_bytes _
  obtain ⟨fopen, writeHdr, writePk⟩ := io
  simp only [KemtlsPackHqc128.main, hbytes, hsize, length_key, KemtlsPackHqc128.FileIo.mk.injEq]
  cases fopen with
  | false => simp
  | true =>
    by_cases hh : writeHdr = 56
    · by_cases hp : writePk = 2249
      · simp [hh, hp, eq_comm]
      · simp [hh, hp]
    · simp [hh]

theorem script_eq : makePdkFromSo P (some pk.toList) created.toNat =
    some ((defaultHdr P pk created).bytes ++ pk.toList) := by
  have hcrc : zlibCrc32 pk.toList &&& 0xFFFFFFFF = (crc32Buf pk.toList).toNat := by
    rw [zlibCrc32_eq]
    exact (Nat.and_two_pow_sub_one_eq_mod _ 32).trans
      (Nat.mod_eq_of_lt (crc32Buf pk.toList).toNat_lt)
  have hfp : structPackItem (.s 32) (.bytes (P.sha256 pk.toList).toList) =
      some (P.sha256 pk.toList).toList := by
    simp [structPackItem]
  have hcreated : structPackItem .Q (.int created.toNat) = some (leBytes 8 created.toNat) :=
    if_pos created.toNat_lt
  have hsum : structPackItem .I (.int (crc32Buf pk.toList).toNat) =
      some (leBytes 4 (crc32Buf pk.toList).toNat) := if_pos (crc32Buf pk.toList).toNat_lt
  have hI : ∀ v < 2 ^ 32, structPackItem .I (.int v) = some (leBytes 4 v) := fun v hv ↦ if_pos hv
  have hH : structPackItem .H (.int 1) = some (leBytes 2 1) := rfl
  have hB : ∀ v < 2 ^ 8, structPackItem .B (.int v) = some (leBytes 1 v) := fun v hv ↦ if_pos hv
  simp only [makePdkFromSo, hcrc, structPack, hfp, hcreated, hsum, length_key, Option.bind_eq_bind,
    Option.bind_some, hI 0x544D454B (by decide), hI 2249 (by decide), hH, hB 0 (by decide),
    hB 1 (by decide)]
  rfl

theorem save_eq_ok_iff (io : SaveIo) (f : List UInt8) :
    saveKemtlsPkAtomic P io (some pk.toList) 1 0 created none = .ok f ↔
      io = savedIo 2249 ∧ f = (defaultHdr P pk created).bytes ++ pk.toList := by
  constructor
  · intro hs
    have hf := save_eq_ok hs
    rw [savedHdr_default] at hf
    refine ⟨?_, hf⟩
    obtain ⟨openErr, writeHdr, writePk, fsync, renameErr⟩ := io
    unfold saveKemtlsPkAtomic at hs
    cases openErr with
    | some err => simp at hs
    | none =>
      simp only [Option.getD_some, length_key] at hs
      split_ifs at hs with h₁ h₂ h₃
      cases renameErr with
      | some err => simp at hs
      | none =>
        simp only [savedIo, SaveIo.mk.injEq, true_and, and_true]
        exact ⟨not_not.mp h₁, not_not.mp fun h ↦ h₂ ⟨by decide, h⟩, not_not.mp h₃⟩
  · rintro ⟨rfl, rfl⟩
    have hs := save_savedIo P pk.toList 1 0 created none
    rwa [length_key, savedHdr_default] at hs

end Agreement

/-- All that write or read the pre-distributed key file agree on it. -/
theorem key_file_agreement (P : Platform ρ) (pk : Bytes apKemPublicKeyBytes) (created : UInt64) :
    ∃ file, KeyFileAgrees P pk created file := by
  have hlen : (defaultHdr P pk created).pkLen.toNat = pk.toList.length := (length_key pk).symm
  have hkey : pk.toList.length = apKemPublicKeyBytes := length_key pk
  refine ⟨(defaultHdr P pk created).bytes ++ pk.toList, main_eq_ok_iff P pk created,
    script_eq P pk created, save_eq_ok_iff P pk created, fun storage ↦ ?_,
    fun e sid hs hw hc ↦ ?_⟩
  · have hpk : pk.toList ≠ [] := List.ne_nil_of_length_pos (by rw [hkey]; decide)
    rw [load_eq_ok_iff, hlen, List.take_length]
    have hmax : (2249 : UInt32) ≤ maxPkLen := by decide
    exact ⟨rfl, rfl, hmax, rfl, rfl, .inr ⟨.inl hpk, rfl⟩, rfl⟩
  · obtain ⟨init, hi⟩ := Option.isSome_iff_exists.mp hc
    obtain ⟨k, fx, hok, hread, hhdr, hfp⟩ := loadPks_serves sid hs hw hi rfl rfl rfl hlen
      (by rw [hkey]; decide) (by rw [hkey]; decide) rfl
    rw [hkey] at hread hhdr
    exact ⟨k, fx, hok, hread, hhdr, hfp⟩

def byteReads (file : List UInt8) : PdkFs :=
  ⟨some file.length, true, file, some file.length, fun _ _ ↦ 1⟩

theorem byteReads_serves (file : List UInt8) : (byteReads file).Serves file :=
  ⟨rfl, rfl, rfl, rfl, fun _ _ _ ↦ Nat.one_pos⟩

/-- Unless one read delivers the whole header, the `HELLO` path refuses the file. -/
theorem short_header_read_refused :
    ∃ file, saveKemtlsPkAtomic samplePlatform (savedIo 2249)
        (some (Bytes.zeros apKemPublicKeyBytes).toList) 1 0 0 none = .ok file ∧
      ¬ ∀ (e : Env UInt8) (sid : UInt64), e.fs.Serves file → e.callocPks.isSome →
        ∃ k fx, loadPks samplePlatform e sid = .ok (k, fx) := by
  refine ⟨_, (save_eq_ok_iff samplePlatform _ 0 _ _).mpr ⟨rfl, rfl⟩, fun hall ↦ ?_⟩
  generalize (defaultHdr samplePlatform (Bytes.zeros apKemPublicKeyBytes) 0).bytes ++ _ = file
    at hall
  obtain ⟨k, fx, hk⟩ := hall { sampleEnv 0 1 with fs := byteReads file } 7 (byteReads_serves file)
    rfl
  have hlen : ((byteReads file).read 0 56).length = 56 :=
    (pdkError_eq_none.mp (loadPks_spec hk).1).length
  have hle : ((byteReads file).read 0 56).length ≤ 1 := List.length_take_le ..
  omega

end KemtlsMavlink
