import KemtlsMavlink.Kem.KeyFileRoundTrip
import KemtlsMavlink.Library.CrcBurst

namespace KemtlsMavlink

open Library

variable {ρ : Type} {P : Platform ρ} {storage : Bool} {file : List UInt8}

/-- No change inside four bytes gets past the checksum. -/
theorem crc32Buf_ne_of_burst {a m m' b : List UInt8} (hl : m.length = m'.length)
    (hm : m.length ≤ 4) (hne : m ≠ m') : crc32Buf (a ++ m ++ b) ≠ crc32Buf (a ++ m' ++ b) := by
  intro h
  have hbits := congrArg UInt32.toBitVec h
  rw [toBitVec_crc32Buf, toBitVec_crc32Buf, Crc.crc32, Crc.crc32, BitVec.not_inj] at hbits
  simp only [List.map_append] at hbits
  have hinj : Function.Injective UInt8.toBitVec := fun _ _ ↦ UInt8.toBitVec_inj.mp
  refine Crc.register_ne_of_burst (by decide) _ ?_ ?_ (hinj.list_map.ne hne) hbits
  · rw [List.length_map, List.length_map, hl]
  · rw [List.length_map]
    omega

theorem take_eq_of_agree {xs ys : List UInt8} {n : Nat} (h : ∀ i < n, xs[i]? = ys[i]?) :
    xs.take n = ys.take n := by
  apply List.ext_getElem?
  intro i
  rw [List.getElem?_take, List.getElem?_take]
  split_ifs with hi
  · exact h i hi
  · rfl

theorem drop_eq_of_agree {xs ys : List UInt8} {n : Nat} (h : ∀ i, n ≤ i → xs[i]? = ys[i]?) :
    xs.drop n = ys.drop n := by
  apply List.ext_getElem?
  intro i
  rw [List.getElem?_drop, List.getElem?_drop]
  exact h (n + i) (Nat.le_add_right n i)

theorem getElem?_cut (xs : List UInt8) (k n i : Nat) :
    ((xs.drop k).take n)[i]? = if i < n then xs[k + i]? else none := by
  rw [List.getElem?_take, List.getElem?_drop]

theorem cut_ne {xs ys : List UInt8} {k n : Nat} (hne : xs ≠ ys)
    (h : ∀ i, xs[i]? ≠ ys[i]? → k ≤ i ∧ i < k + n) :
    (xs.drop k).take n ≠ (ys.drop k).take n := by
  intro he
  apply hne
  apply List.ext_getElem?
  intro i
  by_contra hd
  obtain ⟨hge, hlt⟩ := h i hd
  have hi := congrArg (fun l ↦ l[i - k]?) he
  rw [getElem?_cut, getElem?_cut, if_pos (by omega), if_pos (by omega),
    Nat.add_sub_cancel' hge] at hi
  exact hd hi

theorem differs_of_cut {xs ys : List UInt8} {k n i : Nat}
    (h : ((xs.drop k).take n)[i]? ≠ ((ys.drop k).take n)[i]?) : xs[k + i]? ≠ ys[k + i]? := by
  rw [getElem?_cut, getElem?_cut] at h
  split_ifs at h with hi
  · exact h
  · exact absurd rfl h

theorem crc32Buf_ne {xs ys : List UInt8} (hl : xs.length = ys.length) (hne : xs ≠ ys) (o : Nat)
    (h : ∀ i, xs[i]? ≠ ys[i]? → o ≤ i ∧ i < o + 4) : crc32Buf xs ≠ crc32Buf ys := by
  have hcut : ∀ zs : List UInt8, zs = zs.take o ++ (zs.drop o).take 4 ++ zs.drop (o + 4) := by
    intro zs
    rw [← List.drop_drop, List.append_assoc, List.take_append_drop, List.take_append_drop]
  have htake : xs.take o = ys.take o := take_eq_of_agree fun i hi ↦ by
    by_contra hd
    exact absurd (h i hd).1 (Nat.not_le.mpr hi)
  have hdrop : xs.drop (o + 4) = ys.drop (o + 4) := drop_eq_of_agree fun i hi ↦ by
    by_contra hd
    exact absurd (h i hd).2 (Nat.not_lt.mpr hi)
  rw [hcut xs, hcut ys, htake, hdrop]
  apply crc32Buf_ne_of_burst
  · rw [List.length_take, List.length_take, List.length_drop, List.length_drop, hl]
  · exact List.length_take_le _ _
  · intro hm
    apply hne
    rw [hcut xs, hcut ys, htake, hdrop, hm]

structure Readable (file : List UInt8) (hdr : KemtlsPkFileHdr) : Prop where
  size : kemtlsPkFileHdrSize ≤ file.length
  magic : hdr.magic = kemtMagic
  version : hdr.version = 1
  pkLen : hdr.pkLen ≤ maxPkLen
  pk : ((file.drop kemtlsPkFileHdrSize).take hdr.pkLen.toNat).length = hdr.pkLen.toNat

theorem readable_of_load {r : KemtlsPk} (h : loadKemtlsPk P storage (.ok file) = .ok r) :
    let hdr := KemtlsPkFileHdr.ofBytes (file.take kemtlsPkFileHdrSize)
    Readable file hdr ∧ r.pk = (file.drop kemtlsPkFileHdrSize).take hdr.pkLen.toNat ∧
      crc32Buf r.pk = hdr.crc32 := by
  unfold loadKemtlsPk at h
  dsimp only at h ⊢
  generalize KemtlsPkFileHdr.ofBytes (file.take kemtlsPkFileHdrSize) = hdr at h ⊢
  split_ifs at h with hsize hmagic hversion hlen hpk hcrc
  -- with storage or without it, the fingerprint has passed
  all_goals
    obtain rfl := Except.ok.inj h
    refine ⟨⟨Nat.not_lt.mp hsize, not_not.mp hmagic, not_not.mp hversion, UInt32.not_lt.mp hlen,
      ?_⟩, rfl, not_not.mp hcrc⟩
    by_cases hz : hdr.pkLen = 0
    · simp [hz]
    · exact not_not.mp fun hne ↦ hpk ⟨hz, hne⟩

theorem load_of_crc_ne {hdr : KemtlsPkFileHdr}
    (hh : hdr = KemtlsPkFileHdr.ofBytes (file.take kemtlsPkFileHdrSize)) (h : Readable file hdr)
    (hcrc : crc32Buf ((file.drop kemtlsPkFileHdrSize).take hdr.pkLen.toNat) ≠ hdr.crc32) :
    loadKemtlsPk P storage (.ok file) = .error "crc mismatch" := by
  have hpk : ¬ (hdr.pkLen ≠ 0 ∧
      ((file.drop kemtlsPkFileHdrSize).take hdr.pkLen.toNat).length ≠ hdr.pkLen.toNat) :=
    fun hn ↦ hn.2 h.pk
  unfold loadKemtlsPk
  dsimp only
  rw [← hh, if_neg (Nat.not_lt.mpr h.size), if_neg (not_not.mpr h.magic),
    if_neg (not_not.mpr h.version), if_neg (UInt32.not_lt.mpr h.pkLen), if_neg hpk, if_pos hcrc]

/-- A file that differs from an accepted one inside four consecutive bytes of its key is
turned away, whichever function stands for the SHA-256. -/
theorem corrupted_key_rejected {file' : List UInt8} {r : KemtlsPk} (off : Nat)
    (h : loadKemtlsPk P storage (.ok file) = .ok r) (hl : file'.length = file.length)
    (hne : file' ≠ file)
    (hin : ∀ i, file'[i]? ≠ file[i]? → off ≤ i ∧ i < off + 4 ∧ kemtlsPkFileHdrSize ≤ i ∧
      i < kemtlsPkFileHdrSize + r.pk.length) (P' : Platform ρ) (storage' : Bool) :
    loadKemtlsPk P' storage' (.ok file') = .error "crc mismatch" := by
  obtain ⟨hread, hpk, hcrc⟩ := readable_of_load h
  have hhdr : file'.take kemtlsPkFileHdrSize = file.take kemtlsPkFileHdrSize :=
    take_eq_of_agree fun i hi ↦ by
      by_contra hd
      exact absurd (hin i hd).2.2.1 (Nat.not_le.mpr hi)
  generalize hh : KemtlsPkFileHdr.ofBytes (file.take kemtlsPkFileHdrSize) = hdr
    at hread hpk hcrc
  have hlen : r.pk.length = hdr.pkLen.toNat := hpk ▸ hread.pk
  have hlen' : ((file'.drop kemtlsPkFileHdrSize).take hdr.pkLen.toNat).length =
      hdr.pkLen.toNat := by
    have := hread.pk
    rw [List.length_take, List.length_drop] at this ⊢
    rw [hl, this]
  have hread' : Readable file' hdr :=
    ⟨hl ▸ hread.size, hread.magic, hread.version, hread.pkLen, hlen'⟩
  apply load_of_crc_ne (hhdr ▸ hh.symm) hread'
  rw [← hcrc, hpk]
  have hcut : (file'.drop kemtlsPkFileHdrSize).take hdr.pkLen.toNat ≠
      (file.drop kemtlsPkFileHdrSize).take hdr.pkLen.toNat :=
    cut_ne hne fun i hi ↦ hlen ▸ (hin i hi).2.2
  refine crc32Buf_ne (hlen'.trans hread.pk.symm) hcut (off - kemtlsPkFileHdrSize) fun i hi ↦ ?_
  obtain ⟨hge, hle, -⟩ := hin _ (differs_of_cut hi)
  omega

def sampleKeyFile (pk : List UInt8) : List UInt8 :=
  (savedHdr samplePlatform (some [5, 6, 7, 8, 9, 10]) 1 0 9 (some (Bytes.zeros 32))).bytes ++ pk

theorem load_sampleKeyFile :
    loadKemtlsPk samplePlatform false (.ok (sampleKeyFile [5, 6, 7, 8, 9, 10])) =
      .ok ⟨[5, 6, 7, 8, 9, 10], 1, 0, 9, Bytes.zeros 32⟩ :=
  load_eq_ok_iff.mpr ⟨rfl, rfl, by decide, by decide, by decide, .inl rfl, rfl⟩

/-- Three of four consecutive bytes have changed. -/
theorem corrupted_key_rejected_three_bytes :
    loadKemtlsPk samplePlatform true (.ok (sampleKeyFile [5, 255, 7, 0, 0, 10])) =
      .error "crc mismatch" := by
  have hl : (sampleKeyFile [5, 255, 7, 0, 0, 10]).length =
      (sampleKeyFile [5, 6, 7, 8, 9, 10]).length := rfl
  have hdiffers : ∀ j, ([5, 255, 7, 0, 0, 10] : List UInt8)[j]? ≠
      ([5, 6, 7, 8, 9, 10] : List UInt8)[j]? → 1 ≤ j ∧ j < 5 := by
    intro j hj
    rcases j with _ | _ | _ | _ | _ | _ | j
    all_goals simp at hj ⊢
  refine corrupted_key_rejected 57 load_sampleKeyFile hl ?_ (fun i hi ↦ ?_) samplePlatform true
  · exact fun he ↦ absurd (List.append_cancel_left he) (by decide)
  · have hge : kemtlsPkFileHdrSize ≤ i := by
      by_contra hlt
      apply hi
      rw [sampleKeyFile, sampleKeyFile, List.getElem?_append_left (by simpa using hlt),
        List.getElem?_append_left (by simpa using hlt)]
    rw [sampleKeyFile, sampleKeyFile, List.getElem?_append_right (by simpa using hge),
      List.getElem?_append_right (by simpa using hge), KemtlsPkFileHdr.length_bytes] at hi
    have hsize : kemtlsPkFileHdrSize = 56 := rfl
    obtain ⟨hfirst, hlast⟩ := hdiffers _ hi
    have hend : i < kemtlsPkFileHdrSize + 6 := by omega
    exact ⟨by omega, by omega, hge, hend⟩

end KemtlsMavlink
