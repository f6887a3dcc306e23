import KemtlsMavlink.Session.FreshStart

namespace KemtlsMavlink

open Library

variable {ρ : Type} {P : Platform ρ} {e : Env ρ} {fs : PdkFs} {sid : UInt64}

/-- The same file with other results of the reads behind its header. -/
def PdkFs.withReads (fs : PdkFs) (count : Nat → Nat → Nat) : PdkFs :=
  { fs with count := fun pos req ↦ if pos < 56 then fs.count pos req else count pos req }

def Env.withReads (e : Env ρ) (count : Nat → Nat → Nat) : Env ρ :=
  { e with fs := e.fs.withReads count }

def PdkFs.pksz (fs : PdkFs) : Nat := (pdkHeader (fs.read 0 56)).pksz

def keyLoop (fs : PdkFs) (init : Nat → UInt8) : Block × List Effect × Nat :=
  readPks fs fs.pksz fs.pksz 0 (.calloc apKemPublicKeyBytes init)

/-- The loop stores inside the buffer, and so does the fingerprint read it, for which the
loop has to come to its end. -/
structure LoadInside (P : Platform ρ) (e : Env ρ) (sid : UInt64) : Prop where
  stores : ∀ off n, .pksStore off n ∈ loadEffects (loadPks P e sid) →
    off + n ≤ apKemPublicKeyBytes
  hash : ∀ init, e.callocPks = some init → e.fs.pksz ≤ (keyLoop e.fs init).2.2 →
    e.fs.pksz ≤ apKemPublicKeyBytes

theorem mem_pkszWarning {off n pksz : Nat} : .pksStore off n ∉ pkszWarning pksz := by
  unfold pkszWarning
  split <;> simp

theorem loadPks_stores {init : Nat → UInt8} (h : pdkError e.fs = none)
    (hc : e.callocPks = some init) {off n : Nat} :
    .pksStore off n ∈ loadEffects (loadPks P e sid) ↔
      .pksStore off n ∈ (keyLoop e.fs init).2.1 := by
  unfold loadPks keyLoop PdkFs.pksz
  simp only [h, readPdk, hc]
  split_ifs <;> simp [loadEffects, mem_pkszWarning]

theorem readPks_le {pksz fuel got bound : Nat} {pks : Block}
    (h : ∀ got < pksz, fs.read (56 + got) (pksz - got) ≠ [] →
      got + (fs.read (56 + got) (pksz - got)).length ≤ bound) (hgot : got ≤ bound) :
    (∀ off n, .pksStore off n ∈ (readPks fs pksz fuel got pks).2.1 → off + n ≤ bound) ∧
      (readPks fs pksz fuel got pks).2.2 ≤ bound := by
  induction fuel generalizing got pks with
  | zero => exact ⟨fun _ _ h ↦ absurd h List.not_mem_nil, hgot⟩
  | succ fuel ih =>
    unfold readPks
    split_ifs with hlt
    · dsimp only
      split_ifs with hr
      · exact ⟨fun _ _ h ↦ absurd h List.not_mem_nil, hgot⟩
      · have hle := h got hlt fun he ↦ hr (List.isEmpty_iff.mpr he)
        obtain ⟨hs, hend⟩ := @ih _ (pks.write got (fs.read (56 + got) (pksz - got))) hle
        refine ⟨fun off n hmem ↦ ?_, hend⟩
        rcases List.mem_cons.mp hmem with he | hmem
        · cases he
          exact hle
        · exact hs off n hmem
    · exact ⟨fun _ _ h ↦ absurd h List.not_mem_nil, hgot⟩

theorem PdkFs.length_read_le (fs : PdkFs) (pos req : Nat) :
    (fs.read pos req).length ≤ req ∧ (fs.read pos req ≠ [] →
      pos + (fs.read pos req).length ≤ fs.content.length) := by
  have hl : (fs.read pos req).length =
      min (min req (fs.count pos req)) (fs.content.length - pos) := by
    rw [PdkFs.read, List.length_take, List.length_drop]
  refine ⟨by omega, fun hne ↦ ?_⟩
  have hpos := List.length_pos_of_ne_nil hne
  omega

theorem keyLoop_le (fs : PdkFs) (init : Nat → UInt8) {bound : Nat}
    (h : fs.pksz ≤ bound ∨ fs.content.length ≤ 56 + bound) :
    (∀ off n, .pksStore off n ∈ (keyLoop fs init).2.1 → off + n ≤ bound) ∧
      (keyLoop fs init).2.2 ≤ bound := by
  refine readPks_le (fun got hgot hne ↦ ?_) (Nat.zero_le bound)
  obtain ⟨hreq, hlen⟩ := fs.length_read_le (56 + got) (fs.pksz - got)
  have := hlen hne
  omega

theorem readPks_first {pksz : Nat} (fuel : Nat) (pks : Block) (hne : fs.read 56 pksz ≠ []) :
    .pksStore 0 (fs.read 56 pksz).length ∈ (readPks fs pksz (fuel + 1) 0 pks).2.1 := by
  have hpos : 0 < pksz :=
    Nat.lt_of_lt_of_le (List.length_pos_of_ne_nil hne) (fs.length_read_le 56 pksz).1
  have hr : (fs.read 56 pksz).isEmpty = false := by
    rwa [← Bool.not_eq_true, List.isEmpty_iff]
  unfold readPks
  simp only [Nat.add_zero, Nat.sub_zero, hpos, if_true, hr, Bool.false_eq_true, if_false]
  exact List.mem_cons_self

theorem keyLoop_first (fs : PdkFs) (init : Nat → UInt8) (hpos : 0 < fs.pksz)
    (hlen : 56 < fs.content.length) (hreads : ∀ req, fs.count 56 req = req) :
    .pksStore 0 (min fs.pksz (fs.content.length - 56)) ∈ (keyLoop fs init).2.1 := by
  have hl : (fs.read 56 fs.pksz).length = min fs.pksz (fs.content.length - 56) := by
    rw [PdkFs.read, hreads, Nat.min_self, List.length_take, List.length_drop]
  have hne : fs.read 56 fs.pksz ≠ [] := List.ne_nil_of_length_pos (by omega)
  obtain ⟨fuel, hf⟩ := Nat.exists_eq_succ_of_ne_zero (Nat.ne_of_gt hpos)
  have hfirst := readPks_first fuel (.calloc apKemPublicKeyBytes init) hne
  rw [← Nat.succ_eq_add_one, ← hf, hl] at hfirst
  exact hfirst

theorem pksz_pos (h : pdkError fs = none) : 0 < fs.pksz := by
  unfold pdkError at h
  dsimp only at h
  split_ifs at h with h₁ h₂ h₃ h₄
  exact Nat.pos_of_ne_zero fun hz ↦ h₄ (by simp [show (pdkHeader (fs.read 0 56)).pksz = 0 from hz])

/-- The file's key fits the buffer, or there are no more bytes in the file than fit. -/
theorem key_load_inside_iff (P : Platform ρ) (e : Env ρ) (sid : UInt64)
    (h : pdkError e.fs = none) (hc : e.callocPks.isSome) :
    (∀ count, LoadInside P (e.withReads count) sid) ↔
      e.fs.pksz ≤ apKemPublicKeyBytes ∨ e.fs.content.length ≤ 56 + apKemPublicKeyBytes := by
  obtain ⟨init, hc⟩ := Option.isSome_iff_exists.mp hc
  constructor
  · intro hin
    by_contra hn
    obtain ⟨hpk, hlen⟩ := not_or.mp hn
    have hfirst := keyLoop_first (e.fs.withReads fun _ req ↦ req) init (pksz_pos h)
      (by change 56 < e.fs.content.length; omega) fun _ ↦ rfl
    have hle := (hin fun _ req ↦ req).stores _ _
      ((loadPks_stores (e := e.withReads fun _ req ↦ req) h hc).mpr hfirst)
    change 0 + min e.fs.pksz (e.fs.content.length - 56) ≤ _ at hle
    omega
  · intro hfit count
    refine ⟨fun off n hmem ↦ ?_, fun init' _ hend ↦ ?_⟩
    · rw [loadPks_stores (e := e.withReads count) h hc] at hmem
      exact (keyLoop_le (e.fs.withReads count) init hfit).1 off n hmem
    · exact hend.trans (keyLoop_le (e.fs.withReads count) init' hfit).2

theorem sample_load_inside :
    LoadInside samplePlatform ((sampleEnv 0 1).withReads fun _ _ ↦ 1) 7 :=
  (key_load_inside_iff samplePlatform (sampleEnv 0 1) 7
    (Option.isNone_iff_eq_none.mp (by decide +kernel)) rfl).mpr (.inl (by decide +kernel)) _

def longPdk : List UInt8 :=
  [0x4B, 0x45, 0x4D, 0x54, 1, 0, 1, 0, 0, 0, 0, 0, 0, 0, 0, 0, 0xCA, 0x08, 0, 0] ++
    List.replicate 2286 0

def longEnv : Env UInt8 :=
  { sampleEnv 0 1 with fs := ⟨some 2306, true, longPdk, some 2306, fun _ req ↦ req⟩ }

/-- The first read of the key goes a byte past the end of the buffer. -/
theorem long_key_stored_past_the_end :
    pdkError longEnv.fs = none ∧
      .pksStore 0 2250 ∈ loadEffects (loadPks samplePlatform longEnv 7) ∧
      ¬ LoadInside samplePlatform longEnv 7 := by
  have herr : pdkError longEnv.fs = none := Option.isNone_iff_eq_none.mp (by decide +kernel)
  have hsize : longEnv.fs.pksz = 2250 := by decide +kernel
  have hmem : .pksStore 0 2250 ∈ loadEffects (loadPks samplePlatform longEnv 7) := by
    have hfirst := keyLoop_first longEnv.fs (fun _ ↦ 0) (by rw [hsize]; decide)
      (by decide +kernel) fun _ ↦ rfl
    have hlen : longEnv.fs.content.length = 2306 := by decide +kernel
    have hmin : min 2250 (2306 - 56) = 2250 := rfl
    rw [hsize, hlen, hmin] at hfirst
    exact (loadPks_stores herr rfl).mpr hfirst
  exact ⟨herr, hmem, fun h ↦ absurd (h.stores _ _ hmem) (by decide)⟩

end KemtlsMavlink
