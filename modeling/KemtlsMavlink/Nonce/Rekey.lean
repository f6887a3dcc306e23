import KemtlsMavlink.Nonce.ReplayWindow

namespace KemtlsMavlink

open Library

/-- A window with its history: the epochs it had before the current one, and the
counters delivered since the last `replay_window_init`. -/
structure Receiver where
  window : ReplayWindow
  past : List UInt32
  delivered : List Nat
  deriving DecidableEq

inductive WindowEvent
  | rekey (dir : Direction) (epoch : UInt32)
  | deliver (epoch : UInt32) (counter : UInt64)

structure Verdict where
  stale : Bool
  accepted : Bool
  deriving DecidableEq

namespace Receiver

def start (dir : Direction) (epoch : UInt32) : Receiver := ⟨replayWindowInit dir epoch, [], []⟩

/-- The delivery was sent under an epoch of the window that a rekey has ended. -/
def Stale (r : Receiver) (epoch : UInt32) : Prop := epoch ∈ r.past ∧ epoch ≠ r.window.keyEpoch

instance (r : Receiver) (epoch : UInt32) : Decidable (r.Stale epoch) :=
  inferInstanceAs (Decidable (_ ∧ _))

/-- The window is told the counter of a delivery, and not its epoch. -/
def step (r : Receiver) : WindowEvent → Receiver × List Verdict
  | .rekey dir epoch => (⟨replayWindowInit dir epoch, r.window.keyEpoch :: r.past, []⟩, [])
  | .deliver epoch counter =>
    let v := replayWindowCheckAndUpdate r.window counter
    ({ r with window := v.2, delivered := r.delivered ++ [counter.toNat] },
      [⟨decide (r.Stale epoch), v.1⟩])

end Receiver

def receiver : Machine Receiver WindowEvent Verdict := ⟨Receiver.step⟩

/-- No delivery of an ended epoch has been accepted. -/
def OldEpochsDead (_ : Receiver) (vs : List Verdict) : Prop :=
  ∀ v ∈ vs, v.stale = true → v.accepted = false

/-- The counter of a stale delivery has come since the rekey, or is too far below
one that has. -/
def CounterStopsStale (r : Receiver) : WindowEvent → Prop
  | .rekey .. => True
  | .deliver epoch counter => r.Stale epoch → ¬ Admits 64 r.delivered counter.toNat

def Receiver.Tracked (r : Receiver) : Prop :=
  ∃ seen, r.window.Accepted seen ∧ AdmittedOf 64 r.delivered seen

theorem tracked_init (dir : Direction) (epoch : UInt32) (past : List UInt32) :
    (Receiver.mk (replayWindowInit dir epoch) past []).Tracked :=
  ⟨[], replayWindowInit_accepted dir epoch, admittedOf_nil 64⟩

variable {r : Receiver}

theorem Receiver.Tracked.accepts_iff (h : r.Tracked) (counter : UInt64) :
    (replayWindowCheckAndUpdate r.window counter).1 = true ↔
      Admits 64 r.delivered counter.toNat := by
  obtain ⟨seen, hw, hs⟩ := h
  have hv := (replayWindow_step hw counter).2
  rw [hs.admits_iff]
  by_cases ha : Admits 64 seen counter.toNat
  · rw [seenWindow_step_of_admits ha] at hv
    exact iff_of_true (List.cons.inj hv).1 ha
  · rw [seenWindow_step_of_not_admits ha] at hv
    exact iff_of_false (ne_true_of_eq_false (List.cons.inj hv).1) ha

theorem Receiver.Tracked.step (h : r.Tracked) (e : WindowEvent) : (r.step e).1.Tracked := by
  cases e with
  | rekey dir epoch => exact tracked_init dir epoch _
  | deliver epoch counter =>
    obtain ⟨seen, hw, hs⟩ := h
    have hstep := (replayWindow_step hw counter).1
    by_cases ha : Admits 64 seen counter.toNat
    · rw [seenWindow_step_of_admits ha] at hstep
      exact ⟨_, hstep, hs.snoc_of_admits⟩
    · rw [seenWindow_step_of_not_admits ha] at hstep
      have hne : seen ≠ [] := fun hnil ↦ ha (hnil ▸ admits_nil 64 _)
      exact ⟨_, hstep, hs.snoc_of_not_admits (hw.highest hne) ha⟩

theorem Receiver.Tracked.dead_step_iff (h : r.Tracked) (e : WindowEvent) :
    OldEpochsDead (r.step e).1 (r.step e).2 ↔ CounterStopsStale r e := by
  cases e with
  | rekey dir epoch => exact iff_of_true (List.forall_mem_nil _) trivial
  | deliver epoch counter =>
    have hv : (replayWindowCheckAndUpdate r.window counter).1 = false ↔
        ¬ Admits 64 r.delivered counter.toNat := by
      rw [← h.accepts_iff counter, Bool.not_eq_true]
    exact List.forall_mem_singleton.trans (imp_congr decide_eq_true_iff hv)

/-- The window keeps the packets of ended epochs out exactly as long as their
counters do. -/
theorem oldEpochsDead_iff (dir : Direction) (epoch : UInt32) (es : List WindowEvent) :
    receiver.Always OldEpochsDead (.start dir epoch) es ↔
      receiver.Guarded CounterStopsStale (.start dir epoch) es := by
  apply Machine.always_iff_guarded (J := fun r vs ↦ r.Tracked ∧ OldEpochsDead r vs)
    (Q := fun _ ↦ True)
  · exact fun _ _ h ↦ h.2
  · intro r vs e ⟨ht, hd⟩ _ hc
    refine ⟨ht.step e, List.forall_mem_append.mpr ⟨hd, ?_⟩⟩
    exact (ht.dead_step_iff e).mpr hc
  · intro r vs e ⟨ht, _⟩ _ hd
    exact (ht.dead_step_iff e).mp (List.forall_mem_append.mp hd).2
  · exact ⟨tracked_init dir epoch [], List.forall_mem_nil _⟩
  · exact fun _ _ ↦ trivial

/-- A packet of epoch 1 is accepted, and once more after the rekey to epoch 2. -/
def sampleRekey : List WindowEvent := [.deliver 1 5, .rekey .rx 2, .deliver 1 5]

theorem replay_across_rekey_accepted :
    receiver.outputs (.start .rx 1) sampleRekey = [⟨false, true⟩, ⟨true, true⟩] ∧
      ¬ receiver.Always OldEpochsDead (.start .rx 1) sampleRekey := by
  have hout : receiver.outputs (.start .rx 1) sampleRekey = [⟨false, true⟩, ⟨true, true⟩] := by
    decide
  refine ⟨hout, fun h ↦ ?_⟩
  have hdead := h sampleRekey [] rfl
  rw [hout] at hdead
  exact nomatch hdead ⟨true, true⟩ (by simp) rfl

end KemtlsMavlink
