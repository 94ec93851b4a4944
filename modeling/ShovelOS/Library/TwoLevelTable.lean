import Mathlib.Data.Option.Basic
import Mathlib.Logic.Function.Basic
import Mathlib.Tactic.Ring

namespace ShovelOS
namespace TwoLevelTable

/-!
# Tables of tables in memory

A root table in memory holds entries, some of which name the address of a
leaf table.  A lookup goes through the root entry to an entry of the leaf.
As long as the tables do not overlap, the lookups form a map from pairs of
indices to entries, and the two kinds of writes change this map in one place:
a write to a leaf at one pair, and a write to the root at one first index.

What an entry is, and how it names a leaf, is left open.
-/

variable {β : Type*}

/-- The size of an entry, the number of entries in the two kinds of tables,
and how a root entry names a leaf. -/
structure Layout (β : Type*) where
  width : Nat
  rootEntries : Nat
  leafEntries : Nat
  width_pos : 0 < width
  child : β → Option Nat

variable (layout : Layout β)

def slot (base index : Nat) : Nat := base + layout.width * index

/-- The entry that a pair of indices leads to. -/
def lookup (memory : Nat → β) (root i j : Nat) : Option β :=
  (layout.child (memory (slot layout root i))).map fun leaf => memory (slot layout leaf j)

def Apart (first firstLength second secondLength : Nat) : Prop :=
  first + firstLength ≤ second ∨ second + secondLength ≤ first

/-- A range that can hold a leaf overlaps none of the tables. -/
structure Fresh (memory : Nat → β) (root leaf : Nat) : Prop where
  offRoot : Apart leaf (layout.width * layout.leafEntries) root (layout.width * layout.rootEntries)
  offLeaves : ∀ i other, i < layout.rootEntries →
    layout.child (memory (slot layout root i)) = some other →
    Apart leaf (layout.width * layout.leafEntries) other (layout.width * layout.leafEntries)

/-- No two of the tables overlap. -/
structure Separated (memory : Nat → β) (root : Nat) : Prop where
  rootApart : ∀ i leaf, i < layout.rootEntries →
    layout.child (memory (slot layout root i)) = some leaf →
    Apart leaf (layout.width * layout.leafEntries) root (layout.width * layout.rootEntries)
  leavesApart : ∀ i i' leaf leaf', i < layout.rootEntries → i' < layout.rootEntries → i ≠ i' →
    layout.child (memory (slot layout root i)) = some leaf →
    layout.child (memory (slot layout root i')) = some leaf' →
    Apart leaf (layout.width * layout.leafEntries) leaf' (layout.width * layout.leafEntries)

/-- The two memories have the same tables. -/
structure SameTables (memory memory' : Nat → β) (root : Nat) : Prop where
  rootSame : ∀ i, i < layout.rootEntries →
    memory' (slot layout root i) = memory (slot layout root i)
  leavesSame : ∀ i leaf, i < layout.rootEntries →
    layout.child (memory (slot layout root i)) = some leaf →
    ∀ j, j < layout.leafEntries → memory' (slot layout leaf j) = memory (slot layout leaf j)

variable {layout} {memory memory' : Nat → β} {root : Nat}

/-! ## Addresses -/

theorem slot_bounds (layout : Layout β) (base : Nat) {index entries : Nat}
    (inside : index < entries) :
    base ≤ slot layout base index ∧
      slot layout base index + layout.width ≤ base + layout.width * entries := by
  have grows := Nat.mul_le_mul_left layout.width (Nat.succ_le_of_lt inside)
  rw [Nat.mul_succ] at grows
  unfold slot
  omega

theorem slot_injective {base index other : Nat}
    (same : slot layout base index = slot layout base other) : index = other := by
  unfold slot at same
  exact Nat.eq_of_mul_eq_mul_left layout.width_pos (Nat.add_left_cancel same)

theorem slot_ne_of_apart {base other entries otherEntries index otherIndex : Nat}
    (apart : Apart base (layout.width * entries) other (layout.width * otherEntries))
    (inside : index < entries) (otherInside : otherIndex < otherEntries) :
    slot layout base index ≠ slot layout other otherIndex := by
  have positive := layout.width_pos
  have bounds := slot_bounds layout base inside
  have otherBounds := slot_bounds layout other otherInside
  rcases apart with before | after <;> omega

/-! ## Memories with the same tables -/

theorem SameTables.refl (memory : Nat → β) (root : Nat) : SameTables layout memory memory root :=
  ⟨fun _ _ => rfl, fun _ _ _ _ _ _ => rfl⟩

theorem SameTables.lookup_eq (same : SameTables layout memory memory' root) {i j : Nat}
    (rootIndex : i < layout.rootEntries) (leafIndex : j < layout.leafEntries) :
    lookup layout memory' root i j = lookup layout memory root i j := by
  unfold lookup
  rw [same.rootSame i rootIndex]
  cases leads : layout.child (memory (slot layout root i)) with
  | none => rfl
  | some leaf =>
      rw [Option.map_some, Option.map_some, same.leavesSame i leaf rootIndex leads j leafIndex]

theorem SameTables.separated (same : SameTables layout memory memory' root)
    (separated : Separated layout memory root) : Separated layout memory' root where
  rootApart := by
    intro i leaf rootIndex leads
    rw [same.rootSame i rootIndex] at leads
    exact separated.rootApart i leaf rootIndex leads
  leavesApart := by
    intro i i' leaf leaf' rootIndex rootIndex' different leads leads'
    rw [same.rootSame i rootIndex] at leads
    rw [same.rootSame i' rootIndex'] at leads'
    exact separated.leavesApart i i' leaf leaf' rootIndex rootIndex' different leads leads'

theorem SameTables.fresh (same : SameTables layout memory memory' root) {leaf : Nat}
    (fresh : Fresh layout memory root leaf) : Fresh layout memory' root leaf where
  offRoot := fresh.offRoot
  offLeaves := by
    intro i other rootIndex leads
    rw [same.rootSame i rootIndex] at leads
    exact fresh.offLeaves i other rootIndex leads

/-- A write into a fresh range changes no table. -/
theorem sameTables_update_fresh {leaf j : Nat} (fresh : Fresh layout memory root leaf)
    (leafIndex : j < layout.leafEntries) (entry : β) :
    SameTables layout memory (Function.update memory (slot layout leaf j) entry) root where
  rootSame := fun _i rootIndex =>
    Function.update_of_ne (slot_ne_of_apart fresh.offRoot leafIndex rootIndex).symm _ _
  leavesSame := fun i other rootIndex leads _j' leafIndex' =>
    Function.update_of_ne
      (slot_ne_of_apart (fresh.offLeaves i other rootIndex leads) leafIndex leafIndex').symm
      _ _

/-! ## Writes to a leaf -/

section Leaf

variable {i j leaf : Nat}

theorem root_update_leaf (separated : Separated layout memory root)
    (rootIndex : i < layout.rootEntries)
    (leafIndex : j < layout.leafEntries)
    (leads : layout.child (memory (slot layout root i)) = some leaf)
    (entry : β) {i' : Nat} (rootIndex' : i' < layout.rootEntries) :
    Function.update memory (slot layout leaf j) entry (slot layout root i') =
      memory (slot layout root i') :=
  Function.update_of_ne
    (slot_ne_of_apart (separated.rootApart i leaf rootIndex leads) leafIndex rootIndex').symm _ _

theorem separated_update_leaf (separated : Separated layout memory root)
    (rootIndex : i < layout.rootEntries) (leafIndex : j < layout.leafEntries)
    (leads : layout.child (memory (slot layout root i)) = some leaf) (entry : β) :
    Separated layout (Function.update memory (slot layout leaf j) entry) root where
  rootApart := by
    intro i' leaf' rootIndex' leads'
    rw [root_update_leaf separated rootIndex leafIndex leads entry rootIndex'] at leads'
    exact separated.rootApart i' leaf' rootIndex' leads'
  leavesApart := by
    intro i' i'' leaf' leaf'' rootIndex' rootIndex'' different leads' leads''
    rw [root_update_leaf separated rootIndex leafIndex leads entry rootIndex'] at leads'
    rw [root_update_leaf separated rootIndex leafIndex leads entry rootIndex''] at leads''
    exact separated.leavesApart i' i'' leaf' leaf'' rootIndex' rootIndex'' different leads' leads''

/-- A write to a leaf changes the map at its pair of indices only. -/
theorem lookup_update_leaf (separated : Separated layout memory root)
    (rootIndex : i < layout.rootEntries) (leafIndex : j < layout.leafEntries)
    (leads : layout.child (memory (slot layout root i)) = some leaf) (entry : β) {i' j' : Nat}
    (rootIndex' : i' < layout.rootEntries) (leafIndex' : j' < layout.leafEntries) :
    lookup layout (Function.update memory (slot layout leaf j) entry) root i' j' =
      if i' = i ∧ j' = j then some entry else lookup layout memory root i' j' := by
  unfold lookup
  rw [root_update_leaf separated rootIndex leafIndex leads entry rootIndex']
  cases leads' : layout.child (memory (slot layout root i')) with
  | none =>
      rw [if_neg]
      · rfl
      · rintro ⟨rfl, rfl⟩
        rw [leads] at leads'
        cases leads'
  | some leaf' =>
      rw [Option.map_some, Option.map_some]
      by_cases here : i' = i ∧ j' = j
      · rcases here with ⟨rfl, rfl⟩
        cases leads.symm.trans leads'
        rw [if_pos ⟨rfl, rfl⟩, Function.update_self]
      · rw [if_neg here]
        congr 1
        apply Function.update_of_ne
        by_cases sameRoot : i' = i
        · subst sameRoot
          cases leads.symm.trans leads'
          exact fun same => here ⟨rfl, slot_injective same⟩
        · exact slot_ne_of_apart
            (separated.leavesApart i' i leaf' leaf rootIndex' rootIndex sameRoot leads' leads)
            leafIndex' leafIndex

end Leaf

/-! ## Writes to the root -/

section Root

variable {i leaf : Nat} {entry : β}

theorem root_update_root {i' : Nat} :
    Function.update memory (slot layout root i) entry (slot layout root i') =
      if i' = i then entry else memory (slot layout root i') := by
  by_cases same : i' = i
  · rw [if_pos same, same, Function.update_self]
  · rw [if_neg same]
    exact Function.update_of_ne (fun sameSlot => same (slot_injective sameSlot)) _ _

/-- The new leaf of a root entry is the old one, or overlaps no table. -/
def Admissible (layout : Layout β) (memory : Nat → β) (root i leaf : Nat) : Prop :=
  layout.child (memory (slot layout root i)) = some leaf ∨ Fresh layout memory root leaf

theorem Admissible.rootApart (separated : Separated layout memory root)
    (rootIndex : i < layout.rootEntries) (admissible : Admissible layout memory root i leaf) :
    Apart leaf (layout.width * layout.leafEntries) root (layout.width * layout.rootEntries) := by
  rcases admissible with leads | fresh
  · exact separated.rootApart i leaf rootIndex leads
  · exact fresh.offRoot

theorem Admissible.leavesApart (separated : Separated layout memory root)
    (rootIndex : i < layout.rootEntries) (admissible : Admissible layout memory root i leaf)
    {i' leaf' : Nat} (rootIndex' : i' < layout.rootEntries) (different : i' ≠ i)
    (leads' : layout.child (memory (slot layout root i')) = some leaf') :
    Apart leaf (layout.width * layout.leafEntries) leaf' (layout.width * layout.leafEntries) := by
  rcases admissible with leads | fresh
  · exact separated.leavesApart i i' leaf leaf' rootIndex rootIndex' different.symm leads leads'
  · exact fresh.offLeaves i' leaf' rootIndex' leads'

theorem separated_update_root (separated : Separated layout memory root)
    (rootIndex : i < layout.rootEntries) (admissible : Admissible layout memory root i leaf)
    (names : layout.child entry = some leaf) :
    Separated layout (Function.update memory (slot layout root i) entry) root where
  rootApart := by
    intro i' leaf' rootIndex' leads'
    rw [root_update_root] at leads'
    by_cases same : i' = i
    · rw [if_pos same, names] at leads'
      cases leads'
      exact admissible.rootApart separated rootIndex
    · rw [if_neg same] at leads'
      exact separated.rootApart i' leaf' rootIndex' leads'
  leavesApart := by
    intro i' i'' leaf' leaf'' rootIndex' rootIndex'' different leads' leads''
    rw [root_update_root] at leads' leads''
    by_cases same : i' = i
    · have other : i'' ≠ i := fun same' => different (same.trans same'.symm)
      rw [if_pos same, names] at leads'
      rw [if_neg other] at leads''
      cases leads'
      exact admissible.leavesApart separated rootIndex rootIndex'' other leads''
    · rw [if_neg same] at leads'
      by_cases same' : i'' = i
      · rw [if_pos same', names] at leads''
        cases leads''
        exact (admissible.leavesApart separated rootIndex rootIndex' same leads').symm
      · rw [if_neg same'] at leads''
        exact separated.leavesApart i' i'' leaf' leaf'' rootIndex' rootIndex'' different
          leads' leads''

/-- A write to the root changes the map at its first index only, to what the
new leaf holds. -/
theorem lookup_update_root (separated : Separated layout memory root)
    (rootIndex : i < layout.rootEntries) (admissible : Admissible layout memory root i leaf)
    (names : layout.child entry = some leaf) {i' j' : Nat} (rootIndex' : i' < layout.rootEntries)
    (leafIndex' : j' < layout.leafEntries) :
    lookup layout (Function.update memory (slot layout root i) entry) root i' j' =
      if i' = i then some (memory (slot layout leaf j')) else lookup layout memory root i' j' := by
  unfold lookup
  rw [root_update_root]
  by_cases same : i' = i
  · rw [if_pos same, if_pos same, names, Option.map_some]
    congr 1
    exact Function.update_of_ne
      (slot_ne_of_apart (admissible.rootApart separated rootIndex) leafIndex' rootIndex) _ _
  · rw [if_neg same, if_neg same]
    cases leads' : layout.child (memory (slot layout root i')) with
    | none => rfl
    | some leaf' =>
        rw [Option.map_some, Option.map_some]
        congr 1
        exact Function.update_of_ne
          (slot_ne_of_apart (separated.rootApart i' leaf' rootIndex' leads')
            leafIndex' rootIndex) _ _

end Root

end TwoLevelTable
end ShovelOS
