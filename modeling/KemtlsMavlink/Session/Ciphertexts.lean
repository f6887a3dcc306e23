import KemtlsMavlink.Session.Progress
import KemtlsMavlink.Session.Secrets

namespace KemtlsMavlink

open Library

variable {ρ : Type} {P : Platform ρ} {s s' : HqcSession} {i : Input ρ} {kind : UInt8}

/-- The session holds the ciphertext of a kind in a buffer. -/
def HqcRxBuf.Offers (rx : HqcRxBuf) (kind : UInt8) (ct : Block) : Prop :=
  (rx.stream kind).len ≠ 0 ∧ (rx.stream kind).buf = some ct

/-- The buffer of a ciphertext and its secret are what a call of `ap_kem_enc` for the key `pk`, with
the randomness `rand`, has returned. -/
structure Encapsulation (P : Platform ρ) (ct : Block) (ss : Bytes apKemBytes) (pk : Block)
    (rand : ρ) (out : KemOut) : Prop where
  call : ∃ before, out = P.apKemEnc (pk.read 0 apKemPublicKeyBytes) before rand
  ok : out.ok = true
  ct : ct.read 0 apKemCiphertextBytes = out.ct.toList
  ss : ss = out.ss

/-- A ciphertext that is there after a step was there before it, with its secret, or both have been
returned in it. -/
def CiphertextStep (P : Platform ρ) (s : HqcSession) (rand : ρ) (kind : UInt8)
    (r : HqcSession × List Effect) : Prop :=
  ∀ ct, r.1.rx.Offers kind ct →
    (s.rx.Offers kind ct ∧ r.1.rx.secret kind = s.rx.secret kind) ∨
      ∃ pk out, .apKemEnc kind pk true ∈ r.2 ∧
        Encapsulation P ct (r.1.rx.secret kind) pk rand out

theorem HqcRxBuf.Offers.congr {rx rx' : HqcRxBuf} {ct : Block} (h : rx'.Offers kind ct)
    (hl : (rx'.stream kind).len = (rx.stream kind).len)
    (hb : (rx'.stream kind).buf = (rx.stream kind).buf) : rx.Offers kind ct :=
  ⟨hl ▸ h.1, hb ▸ h.2⟩

theorem CiphertextStep.kept {rand : ρ} {r : HqcSession × List Effect}
    (hst : r.1.rx.stream kind = s.rx.stream kind) (hs : r.1.rx.secret kind = s.rx.secret kind) :
    CiphertextStep P s rand kind r := fun _ hn ↦
  .inl ⟨hn.congr (congrArg CtStream.len hst) (congrArg CtStream.buf hst), hs⟩

end KemtlsMavlink
