import Mathlib.Data.Set.Insert
import Mathlib.Data.List.Nodup
import Mathlib.Logic.Function.Basic

namespace ShovelOS
namespace HeapContract

/-!
# Callers of an allocator

An allocator hands out pointers and takes them back.  Its callers see neither
its state nor why it refuses a request, so both are arbitrary, and all that
is known is what each operation does to the set of live pointers.  The null
pointer stands for a refusal, and freeing it does nothing.

A caller that fills a row of pointers may be refused at any place of it.  The
row keeps its null pointers from there on, so freeing the whole row frees
what has been obtained, each pointer once.
-/

variable {σ ρ : Type*}

/-- An allocator with states `σ`, for requests `ρ`. -/
structure Heap (σ ρ : Type*) where
  malloc : σ → ρ → Nat × σ
  free : σ → Nat → σ
  live : σ → Set Nat

/-- What the operations do to the live pointers. -/
structure Heap.Lawful (heap : Heap σ ρ) : Prop where
  refused : ∀ state request, (heap.malloc state request).1 = 0 →
    heap.live (heap.malloc state request).2 = heap.live state
  granted : ∀ state request, (heap.malloc state request).1 ≠ 0 →
    (heap.malloc state request).1 ∉ heap.live state ∧
      heap.live (heap.malloc state request).2 =
        insert (heap.malloc state request).1 (heap.live state)
  free_null : ∀ state, heap.live (heap.free state 0) = heap.live state
  free_live : ∀ state, ∀ pointer ∈ heap.live state,
    heap.live (heap.free state pointer) = heap.live state \ {pointer}

/-- Each live pointer has a block of as many bytes as were asked for, and the
blocks do not overlap. -/
structure Heap.Sized (heap : Heap σ ρ) (bytes : ρ → Nat) (size : σ → Nat → Nat) : Prop where
  apart : ∀ state, ∀ pointer ∈ heap.live state, ∀ other ∈ heap.live state, pointer ≠ other →
    pointer + size state pointer ≤ other ∨ other + size state other ≤ pointer
  granted : ∀ state request, (heap.malloc state request).1 ≠ 0 →
    size (heap.malloc state request).2 (heap.malloc state request).1 = bytes request
  kept : ∀ state request, ∀ pointer ∈ heap.live state,
    size (heap.malloc state request).2 pointer = size state pointer

variable {heap : Heap σ ρ}

def Heap.freeAll (heap : Heap σ ρ) (state : σ) (pointers : List Nat) : σ :=
  pointers.foldl heap.free state

/-- No pointer is in the list twice, except for the null pointer. -/
def Once (pointers : List Nat) : Prop := (pointers.filter (· ≠ 0)).Nodup

theorem Once.nil : Once [] := List.nodup_nil

/-- Freeing live pointers once each leaves the others. -/
theorem Heap.Lawful.mem_live_freeAll (lawful : heap.Lawful) {pointers : List Nat}
    (once : Once pointers)
    {state : σ} (allLive : ∀ pointer ∈ pointers, pointer ≠ 0 → pointer ∈ heap.live state)
    (other : Nat) :
    other ∈ heap.live (heap.freeAll state pointers) ↔
      other ∈ heap.live state ∧ (other ∈ pointers → other = 0) := by
  induction pointers generalizing state with
  | nil => simp [Heap.freeAll]
  | cons pointer pointers inductionHypothesis =>
      unfold Once at once
      change other ∈ heap.live (heap.freeAll (heap.free state pointer) pointers) ↔ _
      rw [List.mem_cons]
      by_cases isNull : pointer = 0
      · rw [isNull, List.filter_cons_of_neg (by simp)] at once
        rw [isNull, inductionHypothesis once, lawful.free_null]
        · constructor
          · rintro ⟨isLive, null⟩
            exact ⟨isLive, fun isMember => isMember.elim id null⟩
          · rintro ⟨isLive, null⟩
            exact ⟨isLive, fun isMember => null (Or.inr isMember)⟩
        · rw [lawful.free_null]
          exact fun other isMember => allLive other (List.mem_cons_of_mem _ isMember)
      · rw [List.filter_cons_of_pos (by simpa using isNull), List.nodup_cons] at once
        have freed := lawful.free_live state pointer (allLive pointer List.mem_cons_self isNull)
        have apart : ∀ other ∈ pointers, other ≠ 0 → other ≠ pointer := by
          intro other isMember notNull same
          rw [same] at isMember
          exact once.1 (List.mem_filter.mpr ⟨isMember, by simpa using isNull⟩)
        rw [inductionHypothesis once.2, freed, Set.mem_sdiff, Set.mem_singleton_iff]
        · constructor
          · rintro ⟨⟨isLive, different⟩, null⟩
            exact ⟨isLive, fun isMember => isMember.elim (fun same => absurd same different) null⟩
          · rintro ⟨isLive, null⟩
            exact ⟨⟨isLive, fun same => isNull (same.symm.trans (null (Or.inl same)))⟩,
              fun isMember => null (Or.inr isMember)⟩
        · rw [freed]
          exact fun other isMember notNull =>
            ⟨allLive other (List.mem_cons_of_mem _ isMember) notNull, apart other isMember notNull⟩

/-! ## Rows of pointers -/

/-- The pointers of a row, apart from null, are what has been obtained
between two sets of live pointers. -/
structure Row (before after : Set Nat) (row : Nat → Nat) (count : Nat) : Prop where
  fresh : ∀ i < count, row i ≠ 0 → row i ∉ before
  distinct : ∀ i < count, ∀ j < count, row i = row j → row i ≠ 0 → i = j
  live : ∀ pointer, pointer ∈ after ↔ pointer ∈ before ∨ ∃ i < count, row i ≠ 0 ∧ row i = pointer

variable {before after : Set Nat} {row : Nat → Nat} {count : Nat}

theorem Row.null (before : Set Nat) (count : Nat) : Row before before (fun _place => 0) count where
  fresh := fun _i _inRow notNull => absurd rfl notNull
  distinct := fun _i _inRow _j _inRow' _same notNull => absurd rfl notNull
  live := fun pointer => by simp

theorem Row.isLive (isRow : Row before after row count) {i : Nat} (inRow : i < count)
    (notNull : row i ≠ 0) :
    row i ∈ after :=
  (isRow.live _).mpr (Or.inr ⟨i, inRow, notNull, rfl⟩)

/-- A new pointer takes a place that was null. -/
theorem Row.obtain (isRow : Row before after row count) {place pointer : Nat}
    (inRow : place < count)
    (isNull : row place = 0) (notNull : pointer ≠ 0) (isNew : pointer ∉ after) :
    Row before (insert pointer after) (Function.update row place pointer) count where
  fresh := by
    intro i iInRow
    by_cases same : i = place
    · rw [same, Function.update_self]
      exact fun _notNull isOld => isNew ((isRow.live _).mpr (Or.inl isOld))
    · rw [Function.update_of_ne same]
      exact isRow.fresh i iInRow
  distinct := by
    -- A place that is not the new one holds a live pointer or null.
    have apart : ∀ i < count, i ≠ place → row i ≠ pointer := by
      intro i iInRow different equal
      have isLive := isRow.isLive iInRow (equal ▸ notNull)
      rw [equal] at isLive
      exact isNew isLive
    intro i iInRow j jInRow
    by_cases iSame : i = place
    · by_cases jSame : j = place
      · exact fun _equal _notNull => iSame.trans jSame.symm
      · rw [iSame, Function.update_self, Function.update_of_ne jSame]
        exact fun equal _notNull => absurd equal.symm (apart j jInRow jSame)
    · by_cases jSame : j = place
      · rw [jSame, Function.update_self, Function.update_of_ne iSame]
        exact fun equal _notNull => absurd equal (apart i iInRow iSame)
      · rw [Function.update_of_ne iSame, Function.update_of_ne jSame]
        exact isRow.distinct i iInRow j jInRow
  live := by
    intro other
    rw [Set.mem_insert_iff, isRow.live other]
    constructor
    · rintro (same | isOld | ⟨i, iInRow, iNotNull, equal⟩)
      · refine Or.inr ⟨place, inRow, ?_, ?_⟩
        · rw [Function.update_self]
          exact notNull
        · rw [Function.update_self, same]
      · exact Or.inl isOld
      · have different : i ≠ place := fun same => iNotNull (same ▸ isNull)
        refine Or.inr ⟨i, iInRow, ?_⟩
        rw [Function.update_of_ne different]
        exact ⟨iNotNull, equal⟩
    · rintro (isOld | ⟨i, iInRow, iNotNull, equal⟩)
      · exact Or.inr (Or.inl isOld)
      · by_cases same : i = place
        · rw [same, Function.update_self] at equal
          exact Or.inl equal.symm
        · rw [Function.update_of_ne same] at iNotNull equal
          exact Or.inr (Or.inr ⟨i, iInRow, iNotNull, equal⟩)

/-- No pointer of a row and of what holds it is there twice. -/
theorem Row.once {holder : Nat} (isRow : Row (insert holder before) after row count) :
    Once ((List.range count).map row ++ [holder]) := by
  unfold Once
  rw [List.filter_append, List.nodup_append]
  refine ⟨?_, List.nodup_singleton holder |>.filter _, ?_⟩
  · unfold List.Nodup
    rw [List.pairwise_filter, List.pairwise_map]
    refine List.pairwise_lt_range.imp_of_mem ?_
    intro i j iMember jMember below iNotNull _jNotNull equal
    have same := isRow.distinct i (List.mem_range.mp iMember) j (List.mem_range.mp jMember) equal
      (of_decide_eq_true iNotNull)
    exact absurd same (Nat.ne_of_lt below)
  · intro pointer isMember other isHolder
    rcases List.mem_filter.mp isMember with ⟨inRow, notNull⟩
    rcases List.mem_map.mp inRow with ⟨i, isPlace, rfl⟩
    have fresh := isRow.fresh i (List.mem_range.mp isPlace) (of_decide_eq_true notNull)
    rw [List.mem_singleton.mp (List.mem_filter.mp isHolder).1]
    exact fun equal => fresh (Or.inl equal)

/-- Freeing a row and what holds it restores the live pointers. -/
theorem Row.live_freeAll (lawful : heap.Lawful) {state : σ} {holder : Nat} (notNull : holder ≠ 0)
    (isNew : holder ∉ before) (isRow : Row (insert holder before) (heap.live state) row count) :
    heap.live (heap.freeAll state ((List.range count).map row ++ [holder])) = before := by
  ext other
  rw [lawful.mem_live_freeAll isRow.once]
  · constructor
    · rintro ⟨isLive, null⟩
      rcases (isRow.live other).mp isLive with (same | isOld) | ⟨i, inRow, iNotNull, equal⟩
      · have isHolder : other ∈ (List.range count).map row ++ [holder] :=
          List.mem_append_right _ (List.mem_singleton.mpr same)
        exact absurd (same.symm.trans (null isHolder)) notNull
      · exact isOld
      · have inPointers : row i ∈ (List.range count).map row ++ [holder] :=
          List.mem_append_left _ (List.mem_map_of_mem (List.mem_range.mpr inRow))
        rw [← equal] at null
        exact absurd (null inPointers) iNotNull
    · intro isOld
      refine ⟨(isRow.live other).mpr (Or.inl (Or.inr isOld)), fun isMember => ?_⟩
      by_contra otherNotNull
      rcases List.mem_append.mp isMember with inRow | isHolder
      · rcases List.mem_map.mp inRow with ⟨i, isPlace, rfl⟩
        exact isRow.fresh i (List.mem_range.mp isPlace) otherNotNull (Or.inr isOld)
      · rw [List.mem_singleton.mp isHolder] at isOld
        exact isNew isOld
  · intro pointer isMember pointerNotNull
    rcases List.mem_append.mp isMember with inRow | isHolder
    · rcases List.mem_map.mp inRow with ⟨i, isPlace, rfl⟩
      exact isRow.isLive (List.mem_range.mp isPlace) pointerNotNull
    · rw [List.mem_singleton.mp isHolder]
      exact (isRow.live holder).mpr (Or.inl (Or.inl rfl))

end HeapContract
end ShovelOS
