import KemtlsMavlink.Kem.Randombytes

namespace KemtlsMavlink

/-- A function of the vendored KEM: it ends with a result, or calls `randombytes`
on a buffer and goes on with what the buffer holds then. -/
inductive KemProgram (α : Type)
  | done (a : α)
  | randombytes (x : List UInt8) (next : List UInt8 → KemProgram α)

/-- The result of a function, the flag after it, and for each of its calls of
`randombytes` whether the call failed. -/
structure KemRun (α : Type) where
  result : α
  failed : Bool
  draws : List Bool

def KemProgram.run {α : Type} : KemProgram α → (Nat → EntropyIo) → Bool → KemRun α
  | .done a, _, failed => ⟨a, failed, []⟩
  | .randombytes x next, ios, failed =>
    let r := KemtlsMavlink.randombytes (ios 0) failed x
    let t := (next r.1).run (fun i ↦ ios (i + 1)) r.2
    { t with draws := randombytesFails (ios 0) x :: t.draws }

theorem KemProgram.run_failed {α : Type} (p : KemProgram α) (ios : Nat → EntropyIo)
    (failed : Bool) : (p.run ios failed).failed = (failed || (p.run ios failed).draws.any id) := by
  induction p generalizing ios failed with
  | done a => exact (Bool.or_false failed).symm
  | randombytes x next ih =>
    simp only [run, List.any_cons, id_eq]
    rw [ih, randombytes_flag, Bool.or_assoc]

/-- `PQCLEAN_HQC128_CLEAN_crypto_kem_enc` on a public key. Its result takes what
the ciphertext buffer held before; `ok` is a return of 0. -/
abbrev KemEncaps := List UInt8 → KemProgram (List UInt8 → KemOut)

def Bytes.ofList (n : Nat) (bs : List UInt8) : Bytes n := Vector.ofFn fun i ↦ bs.getD i 0

/-- What a call of `ap_kem_enc` does to the flag, and its calls of `randombytes`. -/
structure EntropyUse where
  failed : Bool
  draws : List Bool

variable (encaps : KemEncaps) (failed : Bool) (ios : Nat → EntropyIo) (pk ct : List UInt8)

/-- A call that returns at its first check leaves the caller's zeroed secret alone. -/
def apKemEnc : KemOut :=
  if failed then ⟨false, .ofList _ ct, Bytes.zeros _⟩
  else
    let r := (encaps pk).run ios failed
    let out := r.result ct
    if !out.ok then out else { out with ok := !r.failed }

def apKemEncEntropy : EntropyUse :=
  if failed then ⟨failed, []⟩
  else
    let r := (encaps pk).run ios failed
    ⟨r.failed, r.draws⟩

variable {encaps failed ios pk ct}

theorem apKemEncEntropy_failed : (apKemEncEntropy encaps failed ios pk).failed =
    (failed || (apKemEncEntropy encaps failed ios pk).draws.any id) := by
  unfold apKemEncEntropy
  split_ifs with h
  · simp
  · exact KemProgram.run_failed _ ios failed

/-- A call succeeds only if the flag is clear when it ends. -/
theorem apKemEnc_ok (h : (apKemEnc encaps failed ios pk ct).ok = true) :
    (apKemEncEntropy encaps failed ios pk).failed = false := by
  unfold apKemEnc at h
  unfold apKemEncEntropy
  by_cases hf : failed = true
  · rw [if_pos hf] at h
    exact nomatch h
  · rw [if_neg hf] at h ⊢
    dsimp only at h ⊢
    split at h
    · rename_i hout
      rw [h] at hout
      exact nomatch hout
    · simpa using h

end KemtlsMavlink
