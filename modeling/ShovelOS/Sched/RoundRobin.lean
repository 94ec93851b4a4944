import ShovelOS.Sched.Kernel

namespace ShovelOS
namespace Sched

open CyclicScan

/-!
# No ready thread starves

`run_queue_next` scans the slots in a ring from the one after the running
index, and takes the first runnable thread.  A thread without flags stops
the scan, so the running index approaches its slot with every call until it
gets there.  Between two calls everything may change but the running index
and the readiness of this one slot: threads sleep, wake, are created and
removed.

The idle task is not taken by the scan.  It would be returned at the end of
a scan that finds nothing, and that scan would have passed the ready slot.
-/

variable {arch : Arch}

def Ready (k : Kernel arch) (slot : Fin 32) : Prop :=
  ∃ thread, k.kthreads slot = some thread ∧ (k.memory thread).flags = 0

/-- The slot whose thread `run_queue_next` returns. -/
def slotReturned (k : Kernel arch) : Option (Fin 32) :=
  (runQueueNext k).map fun (_next, k') => k'.running

/-- The scan stops at a ready slot at the latest. -/
theorem runQueueNextFrom_approaches {k : Kernel arch} {current target : Fin 32}
    (notIdle : target ≠ 0) (ready : Ready k target) (remaining : Nat) (running : Fin 32)
    (enough : gap running target < remaining) (behind : gap running target ≤ gap current target) :
    ∃ next k', runQueueNextFrom k current remaining running = some (next, k') ∧ k'.running ≠ 0 ∧
      Approaches target running k'.running := by
  induction remaining generalizing running with
  | zero => exact absurd enough (Nat.not_lt_zero _)
  | succ remaining inductionHypothesis =>
      unfold runQueueNextFrom
      by_cases there : running + 1 = target
      · rcases ready with ⟨thread, isThread, noFlags⟩
        rw [there, tryNext_ready notIdle isThread noFlags]
        exact ⟨thread, _, rfl, notIdle, Or.inl rfl⟩
      · have closer := gap_succ there
        cases chosen : tryNext k (running + 1) with
        | some result =>
            rcases result with ⟨next, k'⟩
            rcases tryNext_eq_some chosen with ⟨notZero, sameSlot, _, _⟩
            refine ⟨next, k', rfl, ?_, Or.inr ?_⟩
            · rw [sameSlot]
              exact notZero
            · rw [sameSlot]
              omega
        | none =>
            have notBack : running + 1 ≠ current := gap_lt_of_ne behind there
            rcases inductionHypothesis (running + 1) (by omega) (by omega) with
              ⟨next, k', result, notZero, approaches⟩
            refine ⟨next, k', ?_, notZero, ?_⟩
            · simp only [if_neg notBack]
              exact result
            · rcases approaches with met | nearer
              · exact Or.inl met
              · exact Or.inr (by omega)

/-- A call with a ready slot returns some thread, not the idle task, and
approaches the slot. -/
theorem slotReturned_approaches {k : Kernel arch} {target : Fin 32} (notIdle : target ≠ 0)
    (ready : Ready k target) :
    ∃ slot, slotReturned k = some slot ∧ slot ≠ 0 ∧ Approaches target k.running slot := by
  rcases runQueueNextFrom_approaches notIdle ready 32 k.running (gap_lt _ _) (Nat.le_refl _) with
    ⟨next, k', result, notZero, approaches⟩
  have returned : runQueueNext k = some (next, k') := result
  refine ⟨k'.running, ?_, notZero, approaches⟩
  unfold slotReturned
  rw [returned]
  rfl

/-- In a run of calls between which only the running index has to be kept,
a slot that is ready at every call is returned between any two returns of
another slot, and the idle task is never returned. -/
theorem ready_slot_returned_between (target : Fin 32) (notIdle : target ≠ 0) (count : Nat)
    (atCall : Nat → Kernel arch) (ready : ∀ call, call < count → Ready (atCall call) target)
    (carried : ∀ call slot, call + 1 < count → slotReturned (atCall call) = some slot →
      (atCall (call + 1)).running = slot) :
    (∀ call, call < count → ∃ slot, slotReturned (atCall call) = some slot ∧ slot ≠ 0) ∧
    ∀ first last other, first < last → last < count → other ≠ target →
      slotReturned (atCall first) = some other → slotReturned (atCall last) = some other →
      ∃ call, first < call ∧ call < last ∧ slotReturned (atCall call) = some target := by
  have returns : ∀ call, call < count → ∃ slot, slotReturned (atCall call) = some slot ∧ slot ≠ 0 ∧
      Approaches target (atCall call).running slot :=
    fun call within => slotReturned_approaches notIdle (ready call within)
  constructor
  · intro call within
    rcases returns call within with ⟨slot, returned, notZero, _⟩
    exact ⟨slot, returned, notZero⟩
  · intro first last other earlier within different atFirst atLast
    let position : Nat → Fin 32 := fun call => (slotReturned (atCall call)).getD 0
    have approaches : ∀ call, first ≤ call → call < last →
        Approaches target (position call) (position (call + 1)) := by
      intro call _ before
      rcases returns call (by omega) with ⟨slot, returned, _, _⟩
      rcases returns (call + 1) (by omega) with ⟨next, returnedNext, _, closer⟩
      have sameSlot : (atCall (call + 1)).running = slot := carried call slot (by omega) returned
      have here : position call = slot := congrArg (fun result => result.getD 0) returned
      have there : position (call + 1) = next := congrArg (fun result => result.getD 0) returnedNext
      rw [here, there, ← sameSlot]
      exact closer
    have startsThere : position first = other := congrArg (fun result => result.getD 0) atFirst
    have endsThere : position last = other := congrArg (fun result => result.getD 0) atLast
    have notTarget : position last ≠ target := by
      rw [endsThere]
      exact different
    rcases meets_target_between approaches earlier (startsThere.trans endsThere.symm) notTarget with
      ⟨call, after, before, met⟩
    rcases returns call (by omega) with ⟨slot, returned, _, _⟩
    have here : position call = slot := congrArg (fun result => result.getD 0) returned
    refine ⟨call, after, before, ?_⟩
    rw [returned, ← here, met]

/-- Three threads without flags besides the idle task, seen before each of
several calls in turn. -/
def threeReady (call : Nat) : Kernel (armA 0x80001000) where
  kthreads := fun slot => if slot.val < 4 then some (0x80310000 + slot.val * 0x1000) else none
  running := Fin.ofNat 32 (call % 3 + 1)
  schedTime := ⟨0, UInt32.ofNat call⟩
  memory := fun _thread => Kthread.zeroed (armA 0x80001000)
  held := []
  pending := []
  exiting := false

theorem threeReady_carried : ∀ call, call < 5 → ∀ slot, slotReturned (threeReady call) = some slot →
    (threeReady (call + 1)).running = slot := by
  decide +kernel

theorem ready_slot_returned_between_threeReady :
    (∀ call, call < 6 → ∃ slot, slotReturned (threeReady call) = some slot ∧ slot ≠ 0) ∧
    ∀ first last other, first < last → last < 6 → other ≠ 2 →
      slotReturned (threeReady first) = some other → slotReturned (threeReady last) = some other →
      ∃ call, first < call ∧ call < last ∧ slotReturned (threeReady call) = some 2 :=
  ready_slot_returned_between 2 (by decide) 6 threeReady
    (fun _call _within => ⟨0x80312000, rfl, rfl⟩)
    (fun call slot within returned => threeReady_carried call
      (Nat.lt_of_succ_lt_succ within) slot returned)

end Sched
end ShovelOS
