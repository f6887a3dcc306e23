import KemtlsMavlink.Library.Modular
import KemtlsMavlink.Session.Sample

namespace KemtlsMavlink

open Library

variable {s : HqcSession} {isTx : Bool}

structure StreamBlock where
  key : List UInt8
  nonce : List UInt8
  counter : UInt32
  deriving DecidableEq

def blockSize (alg : UInt8) : Nat := if alg = mavCryptAlgChacha20 then 64 else 16

def blockCount (alg : UInt8) (len : Nat) : Nat := (len + blockSize alg - 1) / blockSize alg

def CryptAnswer.streamBlocks (a : CryptAnswer) (len : Nat) : List StreamBlock :=
  match a.alg, a.counter0 with
  | some alg, some counter =>
    (List.range (blockCount alg len)).map fun j ↦ ⟨a.key, a.nonce, counter + UInt32.ofNat j⟩
  | _, _ => []

def seqAt (start : UInt8) (i : Nat) : UInt8 := start + UInt8.ofNat i

/-- No block of keystream serves two messages. The messages have lengths `lens`. -/
def NoReuse (s : HqcSession) (isTx : Bool) (start : UInt8) (lens : List Nat) : Prop :=
  ∀ i k, (hi : i < lens.length) → (hk : k < lens.length) → i ≠ k →
    List.Disjoint ((mavlinkGetCryptConfig s isTx (seqAt start i)).streamBlocks lens[i])
      ((mavlinkGetCryptConfig s isTx (seqAt start k)).streamBlocks lens[k])

def counterGap (a b : UInt8) : Nat := (b.toUInt32 - a.toUInt32).toNat

/-- No two messages with content share their `seq`, and under ChaCha20 each of
them ends before the counter of every other one. -/
def Spaced (alg : UInt8) (start : UInt8) (lens : List Nat) : Prop :=
  ∀ i k, (hi : i < lens.length) → (hk : k < lens.length) → i ≠ k → 0 < lens[i] → 0 < lens[k] →
    seqAt start i ≠ seqAt start k ∧
      (alg = mavCryptAlgChacha20 → lens[i] ≤ 64 * counterGap (seqAt start i) (seqAt start k))

theorem blockCount_pos {alg : UInt8} {len : Nat} : 0 < blockCount alg len ↔ 0 < len := by
  have hb : 0 < blockSize alg := by
    unfold blockSize
    split <;> decide
  rw [blockCount, Nat.div_pos_iff]
  omega

theorem blockCount_chacha20_le {len d : Nat} :
    blockCount mavCryptAlgChacha20 len ≤ d ↔ len ≤ 64 * d := by
  have hb : blockCount mavCryptAlgChacha20 len = (len + 63) / 64 := rfl
  omega

theorem mem_streamBlocks {alg : UInt8} {key nonce : List UInt8} {c : UInt32} {len : Nat}
    {b : StreamBlock} : b ∈ (⟨true, some alg, key, nonce, some c⟩ : CryptAnswer).streamBlocks len ↔
      ∃ j, j < blockCount alg len ∧ b = ⟨key, nonce, c + UInt32.ofNat j⟩ := by
  simp only [CryptAnswer.streamBlocks, List.mem_map, List.mem_range, eq_comm]

theorem counter_eq_iff (c d : UInt32) (i j : Nat) : c + UInt32.ofNat i = d + UInt32.ofNat j ↔
    (c.toNat + i) % 2 ^ 32 = (d.toNat + j) % 2 ^ 32 := by
  rw [← UInt32.toNat_inj, UInt32.toNat_add, UInt32.toNat_add, UInt32.toNat_ofNat',
    UInt32.toNat_ofNat', Nat.add_mod_mod, Nat.add_mod_mod]

/-- Under one key two messages share a block when they have one nonce and their
counters meet. -/
theorem streamBlocks_disjoint_iff (alg : UInt8) (key nonce nonce' : List UInt8) (c d : UInt32)
    (m n : Nat) :
    List.Disjoint ((⟨true, some alg, key, nonce, some c⟩ : CryptAnswer).streamBlocks m)
        ((⟨true, some alg, key, nonce', some d⟩ : CryptAnswer).streamBlocks n) ↔
      (nonce = nonce' → ∀ i < blockCount alg m, ∀ j < blockCount alg n,
        (c.toNat + i) % 2 ^ 32 ≠ (d.toNat + j) % 2 ^ 32) := by
  constructor
  · intro h hn i hi j hj he
    refine h (mem_streamBlocks.mpr ⟨i, hi, rfl⟩) (mem_streamBlocks.mpr ⟨j, hj, ?_⟩)
    rw [hn, (counter_eq_iff c d i j).mpr he]
  · intro h x hx hy
    obtain ⟨i, hi, rfl⟩ := mem_streamBlocks.mp hx
    obtain ⟨j, hj, he⟩ := mem_streamBlocks.mp hy
    obtain ⟨-, hn, hcd⟩ := StreamBlock.mk.inj he
    exact h hn i hi j hj ((counter_eq_iff c d i j).mp hcd)

theorem chacha20_disjoint_iff (hs : s.state = .active) (ha : s.aeadAlg = mavCryptAlgChacha20)
    (isTx : Bool) (a b : UInt8) (m n : Nat) :
    List.Disjoint ((mavlinkGetCryptConfig s isTx a).streamBlocks m)
        ((mavlinkGetCryptConfig s isTx b).streamBlocks n) ↔
      (0 < m → 0 < n → m ≤ 64 * counterGap a b ∧ n ≤ 64 * counterGap b a) := by
  have hgap : ∀ a b : UInt8, (2 ^ 32 - a.toUInt32.toNat + b.toUInt32.toNat) % 2 ^ 32 =
      counterGap a b := fun a b ↦ (UInt32.toNat_sub ..).symm
  rw [mavlinkGetCryptConfig_chacha20 hs ha isTx a, mavlinkGetCryptConfig_chacha20 hs ha isTx b,
    streamBlocks_disjoint_iff, ← blockCount_chacha20_le, ← blockCount_chacha20_le]
  constructor
  · intro h hm hn
    have hd := (stretches_disjoint_iff (UInt32.toNat_lt _) (UInt32.toNat_lt _)
      (blockCount_pos.mpr hm) (blockCount_pos.mpr hn)).mp (h rfl)
    rwa [hgap, hgap] at hd
  · intro h _ i hi j hj
    have hm := blockCount_pos.mp (Nat.zero_lt_of_lt hi)
    have hn := blockCount_pos.mp (Nat.zero_lt_of_lt hj)
    refine (stretches_disjoint_iff (UInt32.toNat_lt _) (UInt32.toNat_lt _)
      (blockCount_pos.mpr hm) (blockCount_pos.mpr hn)).mpr ?_ i hi j hj
    rw [hgap, hgap]
    exact h hm hn

theorem seqCounterBe_injective {a b : UInt8} (h : seqCounterBe a = seqCounterBe b) : a = b := by
  have hlow : ∀ c : UInt8, (c.toUInt32 &&& 0xFF).toUInt8 = c := by
    intro c
    have hc := c.toNat_lt
    rw [← UInt8.toNat_inj, UInt32.toNat_toUInt8, UInt32.toNat_and, UInt8.toNat_toUInt32,
      show (0xFF : UInt32).toNat = 2 ^ 8 - 1 from rfl, Nat.and_two_pow_sub_one_eq_mod]
    omega
  have hlast := congrArg List.getLast? h
  rw [← hlow a, ← hlow b]
  exact Option.some.inj hlast

theorem aesctr128_disjoint_iff (hs : s.state = .active) (ha : s.aeadAlg = mavCryptAlgAesctr128)
    (isTx : Bool) (a b : UInt8) (m n : Nat) :
    List.Disjoint ((mavlinkGetCryptConfig s isTx a).streamBlocks m)
        ((mavlinkGetCryptConfig s isTx b).streamBlocks n) ↔ (0 < m → 0 < n → a ≠ b) := by
  rw [mavlinkGetCryptConfig_aesctr128 hs ha isTx a, mavlinkGetCryptConfig_aesctr128 hs ha isTx b,
    streamBlocks_disjoint_iff]
  constructor
  · intro h hm hn hab
    exact h (by rw [hab]) 0 (blockCount_pos.mpr hm) 0 (blockCount_pos.mpr hn) rfl
  · intro h hn i hi j hj
    have hab := seqCounterBe_injective (List.append_cancel_left hn)
    exact absurd hab (h (blockCount_pos.mp (Nat.zero_lt_of_lt hi))
      (blockCount_pos.mp (Nat.zero_lt_of_lt hj)))

theorem counterGap_self (a : UInt8) : counterGap a a = 0 := by
  rw [counterGap, UInt32.sub_self]
  rfl

/-- No block of keystream serves two messages exactly when they are spaced. -/
theorem noReuse_iff (hs : s.state = .active)
    (ha : s.aeadAlg = mavCryptAlgChacha20 ∨ s.aeadAlg = mavCryptAlgAesctr128) (isTx : Bool)
    (start : UInt8) (lens : List Nat) :
    NoReuse s isTx start lens ↔ Spaced s.aeadAlg start lens := by
  rcases ha with ha | ha
  · have hpair := fun i k : Nat ↦
      chacha20_disjoint_iff hs ha isTx (seqAt start i) (seqAt start k)
    constructor
    · intro h i k hi hk hik hm hn
      have hg := (hpair i k _ _).mp (h i k hi hk hik) hm hn
      refine ⟨fun he ↦ ?_, fun _ ↦ hg.1⟩
      rw [he, counterGap_self] at hg
      omega
    · intro h i k hi hk hik
      refine (hpair i k _ _).mpr fun hm hn ↦ ⟨?_, ?_⟩
      · exact (h i k hi hk hik hm hn).2 ha
      · exact (h k i hk hi hik.symm hn hm).2 ha
  · have hne : s.aeadAlg ≠ mavCryptAlgChacha20 := by
      rw [ha]
      decide
    have hpair := fun i k : Nat ↦
      aesctr128_disjoint_iff hs ha isTx (seqAt start i) (seqAt start k)
    constructor
    · intro h i k hi hk hik hm hn
      exact ⟨(hpair i k _ _).mp (h i k hi hk hik) hm hn, fun hc ↦ absurd hc hne⟩
    · intro h i k hi hk hik
      exact (hpair i k _ _).mpr fun hm hn ↦ (h i k hi hk hik hm hn).1

theorem noReuse_two_blocks : NoReuse (sampleActive 1) true 0 (List.replicate 2 64) := by
  apply (noReuse_iff (sampleActive_state 1) (.inl sampleActive_aeadAlg) true 0 _).mpr
  have hpair : ∀ i < 2, ∀ k < 2, i ≠ k → seqAt 0 i ≠ seqAt 0 k ∧
      64 ≤ 64 * counterGap (seqAt 0 i) (seqAt 0 k) := by decide
  intro i k hi hk hik _ _
  obtain ⟨hne, hgap⟩ := hpair i (by simpa using hi) k (by simpa using hk) hik
  refine ⟨hne, fun _ ↦ ?_⟩
  rw [List.getElem_replicate]
  exact hgap

/-- A message of 65 bytes runs into the block of the next one. -/
theorem long_message_reuses_keystream : ¬ NoReuse (sampleActive 1) true 0 [65, 1] := by
  intro h
  have hd := h 0 1 (by decide) (by decide) (by decide)
  rw [mavlinkGetCryptConfig_chacha20 (sampleActive_state 1) sampleActive_aeadAlg,
    mavlinkGetCryptConfig_chacha20 (sampleActive_state 1) sampleActive_aeadAlg,
    streamBlocks_disjoint_iff] at hd
  exact hd rfl 1 (by decide) 0 (by decide) (by decide)

end KemtlsMavlink
