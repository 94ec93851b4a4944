import Mathlib.Data.List.Basic
import Mathlib.Logic.Function.Basic
import ShovelOS.Library.Refinement

namespace ShovelOS
namespace RingBuffer

/-!
# Queues in a ring of cells

A ring of cells holds a queue from a first cell on, and the last cell is
followed by cell zero.  A cell is written behind the queue when the ring is
not full, and the first cell is given up when the queue is not empty.  The
queue is the list of the cells between, so writing appends to it and giving
up takes its head.

A queue with a bound on its length is the specification of such a ring.
Next to the queue, a log keeps everything that was put and everything that
was taken.  What is in the queue is what has been put and not yet taken.
-/

variable {α : Type*}

/-! ## The ring -/

/-- The cell that follows, back to the first at the end. -/
def advance (capacity place : Nat) : Nat := if place + 1 = capacity then 0 else place + 1

theorem advance_eq {capacity place : Nat} (inside : place < capacity) :
    advance capacity place = (place + 1) % capacity := by
  unfold advance
  by_cases atEnd : place + 1 = capacity
  · rw [if_pos atEnd, atEnd, Nat.mod_self]
  · rw [if_neg atEnd, Nat.mod_eq_of_lt (by omega)]

theorem advance_lt {capacity place : Nat} (inside : place < capacity) :
    advance capacity place < capacity := by
  rw [advance_eq inside]
  exact Nat.mod_lt _ (by omega)

/-- The cells in the order of the queue. -/
def contents (cells : Nat → α) (capacity first count : Nat) : List α :=
  (List.range count).map fun i => cells ((first + i) % capacity)

@[simp] theorem length_contents (cells : Nat → α) (capacity first count : Nat) :
    (contents cells capacity first count).length = count := by
  simp [contents]

theorem contents_congr {cells cells' : Nat → α} {capacity first count : Nat}
    (same : ∀ i, i < count → cells' ((first + i) % capacity) = cells ((first + i) % capacity)) :
    contents cells' capacity first count = contents cells capacity first count := by
  apply List.map_congr_left
  intro i isMember
  exact same i (List.mem_range.mp isMember)

/-- The cell behind the queue joins it. -/
theorem contents_succ (cells : Nat → α) (capacity first count : Nat) :
    contents cells capacity first (count + 1) =
      contents cells capacity first count ++ [cells ((first + count) % capacity)] := by
  simp [contents, List.range_succ]

/-- The first cell leaves the queue. -/
theorem contents_advance (cells : Nat → α) {capacity first : Nat} (inside : first < capacity)
    (count : Nat) :
    contents cells capacity first (count + 1) =
      cells first :: contents cells capacity (advance capacity first) count := by
  rw [contents, List.range_succ_eq_map, List.map_cons, List.map_map]
  congr 1
  · rw [Nat.add_zero, Nat.mod_eq_of_lt inside]
  · apply List.map_congr_left
    intro i _isMember
    rw [advance_eq inside]
    simp only [Function.comp_apply]
    rw [Nat.mod_add_mod, Nat.add_right_comm, Nat.add_assoc]

theorem behind_ne {capacity first count i : Nat} (room : count < capacity) (below : i < count) :
    (first + i) % capacity ≠ (first + count) % capacity := by
  intro same
  have apart : (first + count - (first + i)) % capacity = 0 :=
    Nat.sub_mod_eq_zero_of_mod_eq same.symm
  rw [Nat.add_sub_add_left, Nat.mod_eq_of_lt (by omega)] at apart
  omega

/-- Writing the cell behind the queue appends to it. -/
theorem contents_write (cells : Nat → α) {capacity first count : Nat}
    (room : count < capacity) (value : α) :
    contents (Function.update cells ((first + count) % capacity) value) capacity first (count + 1) =
      contents cells capacity first count ++ [value] := by
  rw [contents_succ, Function.update_self]
  congr 1
  apply contents_congr
  intro i below
  exact Function.update_of_ne (behind_ne room below) _ _

/-! ## The queue it stands for -/

/-- A queue with everything that has been put into it and taken from it. -/
structure Log (α : Type*) where
  put : List α
  taken : List α
  queue : List α

inductive Call (α : Type*) where
  | put (value : α)
  | take

inductive Answer (α : Type*) where
  | done
  | value (value : α)
  | refused

namespace Log

/-- The log before the first call. -/
def empty : Log α := ⟨[], [], []⟩

/-- A queue of bounded length, the oldest value first. -/
def step (capacity : Nat) (log : Log α) : Call α → Answer α × Log α
  | .put value =>
      if log.queue.length < capacity then
        (.done, { log with put := log.put ++ [value], queue := log.queue ++ [value] })
      else (.refused, log)
  | .take =>
      match log.queue with
      | [] => (.refused, log)
      | value :: rest => (.value value, { log with taken := log.taken ++ [value], queue := rest })

/-- What is in the queue has been put, and not yet taken. -/
def Balanced (log : Log α) : Prop := log.put = log.taken ++ log.queue

theorem Balanced.step {capacity : Nat} {log : Log α} (balanced : log.Balanced) (call : Call α) :
    (log.step capacity call).2.Balanced := by
  unfold Balanced at balanced
  cases call with
  | put value =>
      rw [Log.step]
      by_cases room : log.queue.length < capacity
      · rw [if_pos room]
        change log.put ++ [value] = log.taken ++ (log.queue ++ [value])
        rw [balanced, List.append_assoc]
      · rw [if_neg room]
        exact balanced
  | take =>
      rw [Log.step]
      cases queue : log.queue with
      | nil => exact balanced
      | cons value rest =>
          change log.put = log.taken ++ [value] ++ rest
          rw [balanced, queue, List.append_assoc, List.singleton_append]

theorem Balanced.taken_prefix {log : Log α} (balanced : log.Balanced) : log.taken <+: log.put :=
  ⟨log.queue, balanced.symm⟩

theorem Balanced.length_queue {log : Log α} (balanced : log.Balanced) :
    log.put.length - log.taken.length = log.queue.length := by
  rw [balanced, List.length_append, Nat.add_sub_cancel_left]

/-- Consecutive puts all succeed if and only if the queue has room for them. -/
theorem puts_done_iff {capacity : Nat} (values : List α) {log : Log α}
    (within : log.queue.length ≤ capacity) :
    (∀ answer ∈ Refinement.answers (Log.step capacity) log (values.map .put), answer = .done) ↔
      log.queue.length + values.length ≤ capacity := by
  induction values generalizing log with
  | nil => simpa [Refinement.answers] using within
  | cons value values inductionHypothesis =>
      rw [List.map_cons, Refinement.answers, List.forall_mem_cons, List.length_cons]
      by_cases room : log.queue.length < capacity
      · have next : log.step capacity (.put value) =
            (.done, { log with put := log.put ++ [value], queue := log.queue ++ [value] }) :=
            if_pos room
        have longer : (log.queue ++ [value]).length = log.queue.length + 1 := by simp
        rw [next, and_iff_right rfl, inductionHypothesis (by rw [longer]; exact room), longer]
        omega
      · have next : log.step capacity (.put value) = (.refused, log) := if_neg room
        rw [next]
        constructor
        · rintro ⟨done, _⟩
          cases done
        · intro enough
          omega

end Log

end RingBuffer
end ShovelOS
