import KemtlsMavlink.Session.Fragments
import KemtlsMavlink.Session.Step
import KemtlsMavlink.Session.Transmit

namespace KemtlsMavlink

open Library

variable {ρ : Type} {P : Platform ρ} {s : HqcSession} {i : Input ρ}

/-- What a tick or a message other than `HELLO` can do. The names are those of
the outcome: the session only transmits; both ciphertexts turn out acknowledged;
the session is wiped; a chunk is stored; the key is complete and `start_encap`
runs; a `FINISH` activates the session. -/
inductive Move (P : Platform ρ) (s : HqcSession) (i : Input ρ) : HqcSession × List Effect → Prop
  | quiet (s' : HqcSession) (fx : List Effect) (ht : Transmits s s') (hs : s'.state = s.state)
      (hfx : Sends s fx) : Move P s i (s', fx)
  | acked (s' : HqcSession) (fx : List Effect) (ht : Transmits s s') (hs : s'.state = .waitCf)
      (hd : s'.BothDone) (hw : s.state = .ctTx ∨ ∃ m, i.event = .ctAck m ∧ m.Held s.rx)
      (hfx : Sends s fx) : Move P s i (s', fx)
  | wiped (s₀ s' : HqcSession) (fx : List Effect) (ht : Transmits s₀.wipe s')
      (hs : s'.state = .fail) (hr : ¬ (s.state = .idle ∨ s.state = .fail ∨ s.state = .active))
      (hfx : Sends s fx) : Move P s i (s', fx)
  | chunk (m : PkChunk) (sid : UInt64) (base : Nat) (mask : UInt32) (hi : i.event = .pkChunk m)
      (ha : ChunkAccepted s.rx m) (hk : ¬ (s.rx.afterChunk m).KeyComplete) :
      Move P s i ((s.noteRx (i.env.millis 0)).setRx (s.rx.afterChunk m),
        (s.rx.storeFragment m).2 ++ [.pkAck sid base mask])
  | encap (m : PkChunk) (sid : UInt64) (base : Nat) (mask : UInt32) (pke : Block)
      (r : HqcSession × List Effect) (hi : i.event = .pkChunk m) (ha : ChunkAccepted s.rx m)
      (hk : (s.rx.afterChunk m).KeyComplete) (hp : (s.rx.afterChunk m).pke = some pke)
      (hr : KeyCompletion P i.env
        ((s.noteRx (i.env.millis 0)).setRx (s.rx.afterChunk m)) pke r) :
      Move P s i (r.1, (s.rx.storeFragment m).2 ++ [.pkAck sid base mask] ++ r.2)
  | finished (m : Finish) (hi : i.event = .finish m) (ha : FinishAccepted P s m) :
      Move P s i ((s.noteRx (i.env.millis 0)).activated P m,
        [.enableSigningWithKey (signKey P s.rx.ssE s.rx.ssS s.rx.salt s.rx.sessionId),
          .hqcStatus s.rx.sessionId 0 .ok 0])

theorem pkChunk_move (m : PkChunk) (hi : i.event = .pkChunk m) :
    Move P s i (handleHqcPkChunk P i.env s m) := by
  have h := handleHqcPkChunk_spec P i.env s m
  generalize handleHqcPkChunk P i.env s m = r at h ⊢
  cases h with
  | refused value status detail he =>
    exact .quiet _ _ (.of_core rfl rfl rfl) rfl (.notice trivial)
  | stored sid base mask he hk => exact .chunk m sid base mask hi (pkChunkError_eq_none.mp he) hk
  | complete sid base mask pke r he hk hp hr =>
    exact .encap m sid base mask pke r hi (pkChunkError_eq_none.mp he) hk hp hr

theorem ctAck_move (m : CtAck) (hi : i.event = .ctAck m) :
    Move P s i (handleHqcCtAck i.env s m) := by
  have hfx := handleHqcCtAck_sends i.env s m
  obtain ⟨ht, hs⟩ := handleHqcCtAck_spec i.env s m
  rcases hs with hs | ⟨hs, hd⟩
  · exact .quiet _ _ ht hs hfx
  · by_cases hm : m.Held s.rx
    · exact .acked _ _ ht hs hd (.inr ⟨m, hi, hm⟩) hfx
    · have hq : (handleHqcCtAck i.env s m).1.state = s.state := by
        rw [handleHqcCtAck_ignored i.env hm]
        rfl
      exact .quiet _ _ ht hq hfx

theorem finish_move (m : Finish) (hi : i.event = .finish m) :
    Move P s i (handleHqcFinish P i.env s m) := by
  have h := handleHqcFinish_spec P i.env s m
  generalize handleHqcFinish P i.env s m = r at h ⊢
  cases h with
  | refused value status detail => exact .quiet _ _ (.of_core rfl rfl rfl) rfl (.notice trivial)
  | rejected s₀ hs =>
    exact .wiped s₀ _ _ (.refl _) rfl (by rw [hs]; decide) (.notice trivial)
  | accepted ha => exact .finished m hi ha

theorem tick_move (hz : s.rx.Sized) : Move P s i (tick P i.env s) := by
  have hfx := tick_sends P i.env s
  rcases tick_spec P i.env hz with ⟨ht, hs | ⟨hc, hs, hd⟩⟩ | ⟨hr, s₀, ht, hs⟩
  · exact .quiet _ _ ht hs hfx
  · exact .acked _ _ ht hs hd (.inl hc) hfx
  · exact .wiped s₀ _ _ ht hs hr hfx

theorem handle_move (hz : s.rx.Sized) (hn : ¬ i.event.IsHello) : Move P s i (handle P s i) := by
  unfold handle
  cases hi : i.event with
  | hello m => exact absurd (by rw [hi]; trivial) hn
  | pkChunk m => exact pkChunk_move m hi
  | ctAck m => exact ctAck_move m hi
  | finish m => exact finish_move m hi
  | tick => exact tick_move hz

end KemtlsMavlink
