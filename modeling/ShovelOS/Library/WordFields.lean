import Mathlib.Data.Nat.Bitwise

namespace ShovelOS
namespace WordFields

/-!
# Fields of a word

A field is a mask.  A word takes some of its fields from one word and the
rest from another, and each field is then read back from where it came.
-/

/-- The fields in the mask from `new`, the others from `old`. -/
def insert (mask old new : UInt32) : UInt32 := (old &&& ~~~mask) ||| (new &&& mask)

variable {mask field old new : UInt32}

theorem insert_and_inside (inside : field &&& mask = field) :
    insert mask old new &&& field = new &&& field := by
  apply UInt32.toBitVec_inj.mp
  have bits := congrArg UInt32.toBitVec inside
  simp only [insert, UInt32.toBitVec_and, UInt32.toBitVec_or, UInt32.toBitVec_not] at bits ⊢
  ext i bound
  have bit := congrArg (·[i]) bits
  simp only [BitVec.getElem_and, BitVec.getElem_or, BitVec.getElem_not] at bit ⊢
  rw [← bit]
  cases mask.toBitVec[i] <;> cases old.toBitVec[i] <;> simp

theorem insert_and_outside (outside : field &&& mask = 0) :
    insert mask old new &&& field = old &&& field := by
  apply UInt32.toBitVec_inj.mp
  have bits := congrArg UInt32.toBitVec outside
  simp only [insert, UInt32.toBitVec_and, UInt32.toBitVec_or, UInt32.toBitVec_not] at bits ⊢
  ext i bound
  have bit := congrArg (·[i]) bits
  simp only [BitVec.getElem_and, BitVec.getElem_or, BitVec.getElem_not] at bit ⊢
  cases masked : mask.toBitVec[i] <;> cases wanted : field.toBitVec[i] <;> simp_all

theorem insert_self (mask word : UInt32) : insert mask word word = word := by
  apply UInt32.toBitVec_inj.mp
  simp only [insert, UInt32.toBitVec_and, UInt32.toBitVec_or, UInt32.toBitVec_not]
  ext i bound
  simp only [BitVec.getElem_and, BitVec.getElem_or, BitVec.getElem_not]
  cases mask.toBitVec[i] <;> simp

/-- Fields that are taken over and put back. -/
theorem insert_insert_self (mask old new : UInt32) :
    insert mask (insert mask old new) old = old := by
  apply UInt32.toBitVec_inj.mp
  simp only [insert, UInt32.toBitVec_and, UInt32.toBitVec_or, UInt32.toBitVec_not]
  ext i bound
  simp only [BitVec.getElem_and, BitVec.getElem_or, BitVec.getElem_not]
  cases mask.toBitVec[i] <;> simp

/-- Fields that are all set. -/
theorem or_eq_insert (mask word : UInt32) : word ||| mask = insert mask word mask := by
  apply UInt32.toBitVec_inj.mp
  simp only [insert, UInt32.toBitVec_and, UInt32.toBitVec_or, UInt32.toBitVec_not]
  ext i bound
  simp only [BitVec.getElem_and, BitVec.getElem_or, BitVec.getElem_not]
  cases mask.toBitVec[i] <;> simp

/-- Fields that are all cleared. -/
theorem and_not_eq_insert (mask word : UInt32) : word &&& ~~~mask = insert mask word 0 := by
  rw [insert, UInt32.zero_and, UInt32.or_zero]

/-- Fields that are put together with a word that has no others. -/
theorem and_not_or_eq_insert {mask new : UInt32} (word : UInt32) (only : new &&& mask = new) :
    (word &&& ~~~mask) ||| new = insert mask word new := by
  rw [insert, only]

/-- Clearing fields subtracts them. -/
theorem and_not_eq_sub (mask word : UInt32) : word &&& ~~~mask = word - (word &&& mask) := by
  rw [UInt32.eq_sub_iff_add_eq]
  apply UInt32.toBitVec_inj.mp
  simp only [UInt32.toBitVec_add, UInt32.toBitVec_and, UInt32.toBitVec_not]
  rw [BitVec.add_eq_or_of_and_eq_zero]
  · ext i bound
    simp only [BitVec.getElem_and, BitVec.getElem_or, BitVec.getElem_not]
    cases mask.toBitVec[i] <;> simp
  · ext i bound
    simp only [BitVec.getElem_and, BitVec.getElem_not]
    cases mask.toBitVec[i] <;> simp

end WordFields
end ShovelOS
