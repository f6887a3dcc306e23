import KemtlsMavlink.Kem.KeyFileRoundTrip
import KemtlsMavlink.Library.Files

namespace KemtlsMavlink

open Library

variable {ρ : Type} {P : Platform ρ} {fs : Files String UInt8}

/-- What the calls of `vfs_copy_file` answer: whether the two files open, how many bytes come
at most, besides a first one, from the read at an offset of the source, or `none` for an error,
what the write at an offset of the target returns, and whether the target can be removed and
renamed. -/
structure VfsIo where
  openIn : Bool
  openOut : Bool
  read : Nat → Option Nat
  write : Nat → Int
  unlink : Bool
  rename : Bool

def copyBufferSize : Nat := 4096

/-- `AP::FS().read(in, buf, sizeof(buf))`, which brings nothing only at the end of the file. -/
def VfsIo.readAt (io : VfsIo) (content : List UInt8) (pos : Nat) : Option (List UInt8) :=
  (io.read pos).map fun n ↦ (content.drop pos).take (min (n + 1) copyBufferSize)

/-- `while (off < r)`: the loop writes what is left of a chunk. `pos` is the offset of the
target. -/
def writeChunk (io : VfsIo) (tmp : String) (fs : Files String UInt8) (pos : Nat)
    (chunk : List UInt8) : Bool × Files String UInt8 :=
  if _h : chunk = [] then (true, fs)
  else if _hw : io.write pos ≤ 0 then (false, fs)
  else
    let w := (io.write pos).toNat
    writeChunk io tmp (fs.append tmp (chunk.take w)) (pos + (chunk.take w).length) (chunk.drop w)
termination_by chunk.length
decreasing_by
  have hpos := List.length_pos_of_ne_nil _h
  rw [List.length_drop]
  omega

/-- The `while (true)` of `vfs_copy_file`: false for an error of `read` or `write`. -/
def copyLoop (io : VfsIo) (tmp : String) (content : List UInt8) (fs : Files String UInt8)
    (pos : Nat) : Bool × Files String UInt8 :=
  match _hr : io.readAt content pos with
  | none => (false, fs)
  | some [] => (true, fs)
  | some (b :: chunk) =>
    match writeChunk io tmp fs pos (b :: chunk) with
    | (false, fs) => (false, fs)
    | (true, fs) => copyLoop io tmp content fs (pos + (b :: chunk).length)
termination_by content.length - pos
decreasing_by
  obtain ⟨n, -, hn⟩ := Option.map_eq_some_iff.mp _hr
  have hl := congrArg List.length hn
  rw [List.length_take, List.length_drop, List.length_cons] at hl
  rw [List.length_cons]
  omega

def VfsIo.unlinkFile (io : VfsIo) (fs : Files String UInt8) (tmp : String) : Files String UInt8 :=
  if io.unlink then fs.unlink tmp else fs

def vfsCopyFile (io : VfsIo) (fs : Files String UInt8) (src dst : String) :
    Bool × Files String UInt8 :=
  match fs src with
  | none => (false, fs)
  | some content =>
    let tmp := dst ++ ".new"
    if !io.openIn || !io.openOut then (false, fs)
    else
      match copyLoop io tmp content (fs.create tmp) 0 with
      | (false, fs) => (false, io.unlinkFile fs tmp)
      | (true, fs) =>
        if io.rename then (true, fs.rename tmp dst) else (false, io.unlinkFile fs tmp)

def pdkPath : String := "APM/CFG/kemtls_pk.bin"
def defaultPdkPath : String := "@ROMFS/kemtls/kemtls_pk_default.bin"

/-- What `kemtls_pdk_bootstrap_copy_if_missing` leaves behind. `copied` is the result of
`vfs_copy_file`, if it was called. The directories hold no bytes. -/
structure Bootstrap where
  files : Files String UInt8
  copied : Option Bool
  effects : List Effect

def kemtlsPdkBootstrapCopyIfMissing (io : VfsIo) (fs : Files String UInt8) : Bootstrap :=
  if (fs pdkPath).isSome then ⟨fs, none, []⟩
  else if (fs defaultPdkPath).isNone then
    ⟨fs, none, [.sendText .info "KEMTLS: default PDK not found in ROMFS" []]⟩
  else
    match vfsCopyFile io fs defaultPdkPath pdkPath with
    | (true, fs) => ⟨fs, some true, [.sendText .info "KEMTLS: PDK default copied to APM/CFG" []]⟩
    | (false, fs) =>
      ⟨fs, some false, [.sendText .warning "KEMTLS: failed to copy default PDK" []]⟩

/-- `save_kemtls_pk_atomic` on the files: the text of the error, if there is one, and what the
files are then. A short `write` has stored as many bytes as it returns. -/
def saveKemtlsPkAtomicAt (P : Platform ρ) (io : SaveIo) (path : String)
    (fs : Files String UInt8) (pk : Option (List UInt8)) (suiteId alg : UInt8)
    (createdUnix : UInt64) (fingerprint32 : Option (Bytes 32)) :
    Option String × Files String UInt8 :=
  let tmp := path ++ ".new"
  match io.openErr with
  | some err => (some err, fs)
  | none =>
    let data := pk.getD []
    let hdr := savedHdr P pk suiteId alg createdUnix fingerprint32
    let fs := (fs.create tmp).append tmp (hdr.bytes.take io.writeHdr.toNat)
    if io.writeHdr ≠ kemtlsPkFileHdrSize then (some "write hdr failed", fs)
    else
      let fs := if data.length ≠ 0 then fs.append tmp (data.take io.writePk.toNat) else fs
      if data.length ≠ 0 ∧ io.writePk ≠ data.length then (some "write pk failed", fs)
      else if io.fsync ≠ 0 then (some "fsync file failed", fs)
      else
        match io.renameErr with
        | some err => (some err, fs)
        | none => (none, fs.rename tmp path)

variable {io : VfsIo} {tmp : String}

theorem writeChunk_spec (io : VfsIo) (pos : Nat) (out chunk : List UInt8) (h : fs tmp = some out) :
    Files.OnlyAt fs tmp (writeChunk io tmp fs pos chunk).2 ∧
      ((writeChunk io tmp fs pos chunk).1 = true →
        (writeChunk io tmp fs pos chunk).2 tmp = some (out ++ chunk)) := by
  induction fs, pos, chunk using writeChunk.induct io tmp generalizing out with
  | case1 fs pos =>
    rw [writeChunk, dif_pos rfl]
    rw [List.append_nil]
    exact ⟨.refl, fun _ ↦ h⟩
  | case2 fs pos chunk hne hw =>
    rw [writeChunk, dif_neg hne, dif_pos hw]
    exact ⟨.refl, Bool.noConfusion⟩
  | case3 fs pos chunk hne hw w ih =>
    obtain ⟨honly, hout⟩ := ih (out ++ chunk.take w) (Files.append_self h _)
    rw [writeChunk, dif_neg hne, dif_neg hw]
    refine ⟨Files.onlyAt_append.trans honly, fun ht ↦ ?_⟩
    rw [hout ht, List.append_assoc, List.take_append_drop]

theorem readAt_eq_some {content chunk : List UInt8} {pos : Nat}
    (h : io.readAt content pos = some chunk) :
    content.take pos ++ chunk = content.take (pos + chunk.length) ∧
      (chunk = [] → content.length ≤ pos) := by
  obtain ⟨n, -, rfl⟩ := Option.map_eq_some_iff.mp h
  constructor
  · rw [List.take_add, List.length_take, List.take_eq_take_min (i := min (n + 1) copyBufferSize)]
  · intro hnil
    have hl := congrArg List.length hnil
    simp only [List.length_take, List.length_drop, List.length_nil, copyBufferSize] at hl
    omega

theorem copyLoop_eq (io : VfsIo) (tmp : String) (content : List UInt8) (fs : Files String UInt8)
    (pos : Nat) : copyLoop io tmp content fs pos =
      match io.readAt content pos with
      | none => (false, fs)
      | some [] => (true, fs)
      | some (b :: chunk) =>
        match writeChunk io tmp fs pos (b :: chunk) with
        | (false, fs) => (false, fs)
        | (true, fs) => copyLoop io tmp content fs (pos + (b :: chunk).length) := by
  rw [copyLoop]
  split <;> rename_i hr <;> rw [hr]

theorem copyLoop_spec (io : VfsIo) (content : List UInt8) (pos : Nat)
    (h : fs tmp = some (content.take pos)) :
    Files.OnlyAt fs tmp (copyLoop io tmp content fs pos).2 ∧
      ((copyLoop io tmp content fs pos).1 = true →
        (copyLoop io tmp content fs pos).2 tmp = some content) := by
  induction fs, pos using copyLoop.induct io tmp content with
  | case1 fs pos hr =>
    rw [copyLoop_eq, hr]
    exact ⟨.refl, Bool.noConfusion⟩
  | case2 fs pos hr =>
    rw [copyLoop_eq, hr]
    have hle := (readAt_eq_some hr).2 rfl
    exact ⟨.refl, fun _ ↦ by rwa [List.take_of_length_le hle] at h⟩
  | case3 fs pos b chunk hr fs' hw =>
    obtain ⟨honly, -⟩ := writeChunk_spec io pos _ (b :: chunk) h
    rw [copyLoop_eq, hr]
    simp only [hw] at honly ⊢
    exact ⟨honly, Bool.noConfusion⟩
  | case4 fs pos b chunk hr fs' hw ih =>
    obtain ⟨honly, hout⟩ := writeChunk_spec io pos _ (b :: chunk) h
    rw [(readAt_eq_some hr).1] at hout
    rw [copyLoop_eq, hr]
    simp only [hw] at honly hout ⊢
    obtain ⟨honly', hout'⟩ := ih (hout trivial)
    exact ⟨honly.trans honly', hout'⟩

theorem new_ne (path : String) : path ≠ path ++ ".new" := by
  intro h
  have hl := congrArg String.length h
  rw [String.length_append] at hl
  exact absurd hl (Nat.ne_of_lt (Nat.lt_add_of_pos_right (by decide)))

theorem onlyAt_unlinkFile : Files.OnlyAt fs tmp (io.unlinkFile fs tmp) := by
  unfold VfsIo.unlinkFile
  split
  · exact Files.onlyAt_unlink
  · exact .refl

/-- The target is replaced as a whole, or not at all. -/
theorem vfsCopyFile_spec (io : VfsIo) (fs : Files String UInt8) (src dst : String) :
    ((vfsCopyFile io fs src dst).1 = false ∧ (vfsCopyFile io fs src dst).2 dst = fs dst) ∨
      ((vfsCopyFile io fs src dst).1 = true ∧ (fs src).isSome ∧
        (vfsCopyFile io fs src dst).2 dst = fs src) := by
  unfold vfsCopyFile
  cases hs : fs src with
  | none => exact .inl ⟨rfl, rfl⟩
  | some content =>
    dsimp only
    by_cases ho : (!io.openIn || !io.openOut) = true
    · rw [if_pos ho]
      exact .inl ⟨rfl, rfl⟩
    · rw [if_neg ho]
      have hne := new_ne dst
      generalize dst ++ ".new" = tmp at hne ⊢
      obtain ⟨honly, hout⟩ := copyLoop_spec io content 0 (Files.create_self fs tmp)
      have honly := Files.onlyAt_create.trans honly
      generalize copyLoop io tmp content (fs.create tmp) 0 = r at honly hout ⊢
      obtain ⟨ok, fs'⟩ := r
      cases ok with
      | false => exact .inl ⟨rfl, honly.trans onlyAt_unlinkFile dst hne⟩
      | true =>
        dsimp only
        cases io.rename with
        | false => exact .inl ⟨rfl, honly.trans onlyAt_unlinkFile dst hne⟩
        | true =>
          refine .inr ⟨rfl, rfl, ?_⟩
          rw [if_pos rfl]
          exact Files.rename_target.trans (hout rfl)

theorem writePk_spec {fs' : Files String UInt8} {hdr : List UInt8} (w : Int) (data : List UInt8)
    (honly : Files.OnlyAt fs tmp fs') (hout : fs' tmp = some hdr) :
    Files.OnlyAt fs tmp (if data.length ≠ 0 then fs'.append tmp (data.take w.toNat) else fs') ∧
      (¬ (data.length ≠ 0 ∧ w ≠ data.length) →
        (if data.length ≠ 0 then fs'.append tmp (data.take w.toNat) else fs') tmp =
          some (hdr ++ data)) := by
  by_cases hd : data.length = 0
  · rw [if_neg (not_not.mpr hd)]
    refine ⟨honly, fun _ ↦ ?_⟩
    rw [List.length_eq_zero_iff.mp hd, List.append_nil, hout]
  · rw [if_pos hd]
    refine ⟨honly.trans Files.onlyAt_append, fun hw ↦ ?_⟩
    have hw : w = data.length := not_not.mp fun hne ↦ hw ⟨hd, hne⟩
    rw [hw, Int.toNat_natCast, List.take_length, Files.append_self hout _]

/-- The file at the path is the old one, or the header with the whole key. -/
theorem saveKemtlsPkAtomicAt_spec (P : Platform ρ) (io : SaveIo) (path : String)
    (fs : Files String UInt8) (pk : Option (List UInt8)) (suiteId alg : UInt8)
    (createdUnix : UInt64) (fingerprint32 : Option (Bytes 32)) :
    let r := saveKemtlsPkAtomicAt P io path fs pk suiteId alg createdUnix fingerprint32
    let hdr := savedHdr P pk suiteId alg createdUnix fingerprint32
    (r.1 ≠ none ∧ r.2 path = fs path) ∨
      (r.1 = none ∧ r.2 path = some (hdr.bytes ++ pk.getD [])) := by
  dsimp only
  unfold saveKemtlsPkAtomicAt
  have hne := new_ne path
  generalize path ++ ".new" = tmp at hne ⊢
  generalize hh : savedHdr P pk suiteId alg createdUnix fingerprint32 = hdr
  generalize pk.getD [] = data
  cases io.openErr with
  | some err => exact .inl ⟨Option.some_ne_none err, rfl⟩
  | none =>
    dsimp only
    have honly : Files.OnlyAt fs tmp
        ((fs.create tmp).append tmp (hdr.bytes.take io.writeHdr.toNat)) :=
      Files.onlyAt_create.trans Files.onlyAt_append
    have hout := Files.append_self (Files.create_self fs tmp) (hdr.bytes.take io.writeHdr.toNat)
    generalize (fs.create tmp).append tmp (hdr.bytes.take io.writeHdr.toNat) = fs₁ at honly hout ⊢
    by_cases hw : io.writeHdr = kemtlsPkFileHdrSize
    · rw [if_neg (not_not.mpr hw)]
      have hsize : io.writeHdr.toNat = hdr.bytes.length := by
        rw [hw, hdr.length_bytes]
        rfl
      rw [hsize, List.take_length, List.nil_append] at hout
      obtain ⟨honly, hout⟩ := writePk_spec io.writePk data honly hout
      generalize (if data.length ≠ 0 then fs₁.append tmp (data.take io.writePk.toNat) else fs₁) =
        fs₂ at honly hout ⊢
      split_ifs with hpk hf
      · exact .inl ⟨Option.some_ne_none _, honly path hne⟩
      · exact .inl ⟨Option.some_ne_none _, honly path hne⟩
      · cases io.renameErr with
        | some err => exact .inl ⟨Option.some_ne_none err, honly path hne⟩
        | none => exact .inr ⟨rfl, Files.rename_target.trans (hout hpk)⟩
    · rw [if_pos hw]
      exact .inl ⟨Option.some_ne_none _, honly path hne⟩

theorem saveKemtlsPkAtomic_eq (P : Platform ρ) (io : SaveIo) (path : String)
    (fs : Files String UInt8) (pk : Option (List UInt8)) (suiteId alg : UInt8)
    (createdUnix : UInt64) (fingerprint32 : Option (Bytes 32)) :
    saveKemtlsPkAtomic P io pk suiteId alg createdUnix fingerprint32 =
      match (saveKemtlsPkAtomicAt P io path fs pk suiteId alg createdUnix fingerprint32).1 with
      | some err => .error err
      | none =>
        .ok ((savedHdr P pk suiteId alg createdUnix fingerprint32).bytes ++ pk.getD []) := by
  unfold saveKemtlsPkAtomic saveKemtlsPkAtomicAt
  cases io.openErr with
  | some err => rfl
  | none =>
    dsimp only
    split_ifs
    any_goals rfl
    all_goals cases io.renameErr <;> rfl

/-- The persisted key is as it was, or the whole default key where there was none; and a key
that is saved is there as a whole, or has left the old file as it was. -/
theorem key_files_replaced_atomically (P : Platform ρ) (io : VfsIo) (saveIo : SaveIo)
    (path : String) (fs : Files String UInt8) (pk : Option (List UInt8)) (suiteId alg : UInt8)
    (createdUnix : UInt64) (fingerprint32 : Option (Bytes 32)) :
    let b := kemtlsPdkBootstrapCopyIfMissing io fs
    let r := saveKemtlsPkAtomicAt P saveIo path fs pk suiteId alg createdUnix fingerprint32
    ((b.copied ≠ some true ∧ b.files pdkPath = fs pdkPath) ∨
        (b.copied = some true ∧ fs pdkPath = none ∧ (fs defaultPdkPath).isSome ∧
          b.files pdkPath = fs defaultPdkPath)) ∧
      ((r.1 ≠ none ∧ r.2 path = fs path) ∨
        (r.1 = none ∧ r.2 path =
          some ((savedHdr P pk suiteId alg createdUnix fingerprint32).bytes ++ pk.getD []))) := by
  refine ⟨?_, saveKemtlsPkAtomicAt_spec P saveIo path fs pk suiteId alg createdUnix fingerprint32⟩
  unfold kemtlsPdkBootstrapCopyIfMissing
  by_cases hd : (fs pdkPath).isSome
  · rw [if_pos hd]
    exact .inl ⟨nofun, rfl⟩
  · by_cases hs : (fs defaultPdkPath).isNone
    · rw [if_neg hd, if_pos hs]
      exact .inl ⟨nofun, rfl⟩
    · rw [if_neg hd, if_neg hs]
      rcases vfsCopyFile_spec io fs defaultPdkPath pdkPath with ⟨hr, hf⟩ | ⟨hr, hsome, hf⟩
      · generalize vfsCopyFile io fs defaultPdkPath pdkPath = r at hr hf
        obtain ⟨_, fs'⟩ := r
        obtain rfl : _ = false := hr
        exact .inl ⟨fun h ↦ absurd (Option.some.inj h) Bool.false_ne_true, hf⟩
      · generalize vfsCopyFile io fs defaultPdkPath pdkPath = r at hr hf
        obtain ⟨_, fs'⟩ := r
        obtain rfl : _ = true := hr
        exact .inr ⟨rfl, Option.not_isSome_iff_eq_none.mp hd, hsome, hf⟩

end KemtlsMavlink
