import ShovelOS.Machine
import ShovelOS.Library.TwoLevelTable
import Mathlib.Data.Nat.Bitwise

namespace ShovelOS
namespace VMSAv7

open TwoLevelTable

/-!
# Short descriptors (`arch/arm_a/mm/VMSAv7`)

A first-level table has 4096 words, one for each megabyte.  A word of type 01
names a second-level table of 256 words, one for each page.  A word of the
second level of type 1x is a small page of 4096 bytes.  The headers
`pagetable.h` and `small_page.h` put such words together from fields.

The walk is what the hardware does with them.  Large pages, and sections in
the first level, are told apart but not looked into, since the kernel makes
none.
-/

/-- The words of memory, by their addresses. -/
abbrev Memory := Nat → BitVec 32

/-- `PAGE_SIZE` of the builds for this architecture. -/
def pageSize : Nat := 4096

/-! ## `pagetable.h` -/

def pagetableBits : BitVec 32 := 1#32

def pagetableBaseaddr (base32 : BitVec 32) : BitVec 32 := base32 &&& 0xfffffc00#32

def pagetableDomain0 : BitVec 32 := 0#32 <<< 5

def pagetablePrivilegedExecute : BitVec 32 := 0#32 <<< 2

def pagetableSecure : BitVec 32 := 0#32 <<< 3

/-- `vmsav7_build_pagetable`: the word that it stores. -/
def vmsav7BuildPagetable (phyAddr domain privilegedExecuteNever nonSecure : BitVec 32) :
    BitVec 32 :=
  pagetableBits ||| pagetableBaseaddr phyAddr ||| domain ||| privilegedExecuteNever ||| nonSecure

/-! ## `small_page.h` -/

def smallpageBits : BitVec 32 := 1#32 <<< 1

def smallpageBaseaddr (base32 : BitVec 32) : BitVec 32 := base32 &&& 0xfffff000#32

def smallpageXN (xn1 : BitVec 32) : BitVec 32 := xn1 <<< 0

def smallpageS (s1 : BitVec 32) : BitVec 32 := s1 <<< 10

def smallpageNG (ng1 : BitVec 32) : BitVec 32 := ng1 <<< 11

def smallpageAP (ap2 : BitVec 32) : BitVec 32 := ap2 <<< 4

def smallpageAPX (apx1 : BitVec 32) : BitVec 32 := apx1 <<< 9

def smallpageB (b1 : BitVec 32) : BitVec 32 := b1 <<< 2

def smallpageC (c1 : BitVec 32) : BitVec 32 := c1 <<< 3

def smallpageTEX (tex3 : BitVec 32) : BitVec 32 := tex3 <<< 6

def smallpageAccessNone : BitVec 32 := smallpageAPX 0 ||| smallpageAP 0

def smallpageAccessPrivilegedFull : BitVec 32 := smallpageAPX 0 ||| smallpageAP 1

def smallpageAccessFull : BitVec 32 := smallpageAPX 0 ||| smallpageAP 3

def smallpageMemtypeSharedStronglyOrdered : BitVec 32 :=
  smallpageTEX 0 ||| smallpageC 0 ||| smallpageB 0

def smallpageMemtypeSharedDevice : BitVec 32 := smallpageTEX 0 ||| smallpageC 0 ||| smallpageB 1

def smallpageMemtypeSharedNormalWriteback : BitVec 32 :=
  smallpageTEX 0 ||| smallpageC 1 ||| smallpageB 1 ||| smallpageS 1

def smallpageGlobal : BitVec 32 := smallpageNG 0

def smallpageExecute : BitVec 32 := smallpageXN 0

def smallpageExecutenever : BitVec 32 := smallpageXN 1

/-- `vmsav7_build_smallpage`: the word that it stores. -/
def vmsav7BuildSmallpage (phyAddr memType access isGlobal executeNever : BitVec 32) : BitVec 32 :=
  smallpageBits ||| smallpageBaseaddr phyAddr ||| memType ||| access ||| isGlobal ||| executeNever

/-! ## The walk -/

/-- What a walk ends at: nothing, or a descriptor. -/
inductive Translation where
  | fault
  | smallPage (descriptor : BitVec 32)
  | largePage (descriptor : BitVec 32)
  | firstLevel (descriptor : BitVec 32)
  deriving DecidableEq, Repr

/-- The type bits of a second-level descriptor. -/
def secondLevel (descriptor : BitVec 32) : Translation :=
  if descriptor &&& 2#32 ≠ 0#32 then .smallPage descriptor
  else if descriptor &&& 1#32 ≠ 0#32 then .largePage descriptor
  else .fault

/-- The table walk for a virtual address. -/
def walk (memory : Memory) (ttbr0 virt : BitVec 32) : Translation :=
  let first := memory ((ttbr0 &&& ~~~0x3fff#32).toNat + 4 * (virt >>> 20).toNat)
  if first &&& 3#32 = 0#32 then .fault
  else if first &&& 3#32 = 1#32 then
    secondLevel (memory ((first &&& 0xfffffc00#32).toNat + 4 * ((virt >>> 12) &&& 0xff#32).toNat))
  else .firstLevel first

/-- What a small page says of its addresses: the frame, and the attributes
in their places. -/
structure Mapping where
  frame : BitVec 32
  memType : BitVec 32
  access : BitVec 32
  notGlobal : BitVec 32
  executeNever : BitVec 32
  deriving DecidableEq, Repr

def memTypeMask : BitVec 32 := smallpageTEX 7 ||| smallpageC 1 ||| smallpageB 1 ||| smallpageS 1

def accessMask : BitVec 32 := smallpageAPX 1 ||| smallpageAP 3

/-- The fields of a small page. -/
def fields (descriptor : BitVec 32) : Mapping where
  frame := descriptor &&& 0xfffff000#32
  memType := descriptor &&& memTypeMask
  access := descriptor &&& accessMask
  notGlobal := descriptor &&& smallpageNG 1
  executeNever := descriptor &&& smallpageXN 1

/-- The physical address of a virtual one in a small page. -/
def physicalAddress (descriptor virt : BitVec 32) : BitVec 32 :=
  (descriptor &&& 0xfffff000#32) ||| (virt &&& 0xfff#32)

/-! ## Fields are put together and taken apart -/

/-- Bits within one mask have none in a mask apart from it. -/
theorem and_eq_zero_of_within {x inner outer : BitVec 32} (within : x &&& inner = x)
    (apart : inner &&& outer = 0#32) : x &&& outer = 0#32 := by
  rw [← within, BitVec.and_assoc, apart, BitVec.and_zero]

/-- Attributes that stay within their fields. -/
structure Attributes where
  memType : BitVec 32
  access : BitVec 32
  isGlobal : BitVec 32
  executeNever : BitVec 32
  memType_within : memType &&& memTypeMask = memType
  access_within : access &&& accessMask = access
  isGlobal_within : isGlobal &&& smallpageNG 1 = isGlobal
  executeNever_within : executeNever &&& smallpageXN 1 = executeNever

/-- The small page with these attributes. -/
def Attributes.smallpage (attributes : Attributes) (phyAddr : BitVec 32) : BitVec 32 :=
  vmsav7BuildSmallpage phyAddr attributes.memType attributes.access attributes.isGlobal
    attributes.executeNever

theorem smallpageGlobal_within : smallpageGlobal &&& smallpageNG 1 = smallpageGlobal := by decide

theorem frame_within (phyAddr : BitVec 32) :
    smallpageBaseaddr phyAddr &&& 0xfffff000#32 = smallpageBaseaddr phyAddr := by
  rw [smallpageBaseaddr, BitVec.and_assoc, BitVec.and_self]

/-- A part of a descriptor that is looked at through a mask is the field of
that mask, since the other fields have no bits there. -/
theorem smallpage_and (attributes : Attributes) (phyAddr mask : BitVec 32) :
    attributes.smallpage phyAddr &&& mask =
      (smallpageBits &&& mask) ||| (smallpageBaseaddr phyAddr &&& mask) |||
        (attributes.memType &&& mask) ||| (attributes.access &&& mask) |||
        (attributes.isGlobal &&& mask) ||| (attributes.executeNever &&& mask) := by
  simp only [Attributes.smallpage, vmsav7BuildSmallpage, BitVec.and_or_distrib_right]

theorem fields_smallpage (attributes : Attributes) (phyAddr : BitVec 32) :
    fields (attributes.smallpage phyAddr) = ⟨smallpageBaseaddr phyAddr, attributes.memType,
      attributes.access, attributes.isGlobal, attributes.executeNever⟩ := by
  have frame := frame_within phyAddr
  have memType := attributes.memType_within
  have access := attributes.access_within
  have isGlobal := attributes.isGlobal_within
  have executeNever := attributes.executeNever_within
  unfold fields
  congr 1
  · rw [smallpage_and, frame, and_eq_zero_of_within memType (by decide),
      and_eq_zero_of_within access (by decide), and_eq_zero_of_within isGlobal (by decide),
      and_eq_zero_of_within executeNever (by decide)]
    simp [smallpageBits]
  · rw [smallpage_and, memType, and_eq_zero_of_within frame (by decide),
      and_eq_zero_of_within access (by decide), and_eq_zero_of_within isGlobal (by decide),
      and_eq_zero_of_within executeNever (by decide)]
    simp [smallpageBits, memTypeMask, smallpageTEX, smallpageC, smallpageB, smallpageS]
  · rw [smallpage_and, access, and_eq_zero_of_within frame (by decide),
      and_eq_zero_of_within memType (by decide), and_eq_zero_of_within isGlobal (by decide),
      and_eq_zero_of_within executeNever (by decide)]
    simp [smallpageBits, accessMask, smallpageAPX, smallpageAP]
  · rw [smallpage_and, isGlobal, and_eq_zero_of_within frame (by decide),
      and_eq_zero_of_within memType (by decide), and_eq_zero_of_within access (by decide),
      and_eq_zero_of_within executeNever (by decide)]
    simp [smallpageBits, smallpageNG]
  · rw [smallpage_and, executeNever, and_eq_zero_of_within frame (by decide),
      and_eq_zero_of_within memType (by decide), and_eq_zero_of_within access (by decide),
      and_eq_zero_of_within isGlobal (by decide)]
    simp [smallpageBits, smallpageXN]

theorem secondLevel_smallpage (attributes : Attributes) (phyAddr : BitVec 32) :
    secondLevel (attributes.smallpage phyAddr) = .smallPage (attributes.smallpage phyAddr) := by
  have typeBit : attributes.smallpage phyAddr &&& 2#32 = 2#32 := by
    rw [smallpage_and, and_eq_zero_of_within (frame_within phyAddr) (by decide),
      and_eq_zero_of_within attributes.memType_within (by decide),
      and_eq_zero_of_within attributes.access_within (by decide),
      and_eq_zero_of_within attributes.isGlobal_within (by decide),
      and_eq_zero_of_within attributes.executeNever_within (by decide)]
    decide
  unfold secondLevel
  rw [typeBit, if_pos (by decide)]

/-- Within a small page the physical address moves with the virtual one. -/
theorem toNat_physicalAddress (attributes : Attributes) (phyAddr virt : BitVec 32) :
    (physicalAddress (attributes.smallpage phyAddr) virt).toNat =
      phyAddr.toNat / pageSize * pageSize + virt.toNat % pageSize := by
  have frame : attributes.smallpage phyAddr &&& 0xfffff000#32 = smallpageBaseaddr phyAddr :=
    congrArg Mapping.frame (fields_smallpage attributes phyAddr)
  have base : (smallpageBaseaddr phyAddr).toNat = 2 ^ 12 * (phyAddr.toNat / 2 ^ 12) := by
    have mask : smallpageBaseaddr phyAddr = phyAddr &&& ~~~(BitVec.ofNat 32 (2 ^ 12) - 1#32) := rfl
    rw [mask, Machine.toNat_and_not_mask (by decide), Nat.mul_comm]
  have offset : (virt &&& 0xfff#32).toNat = virt.toNat % 2 ^ 12 := by
    rw [BitVec.toNat_and]
    exact Nat.and_two_pow_sub_one_eq_mod _ 12
  have below : virt.toNat % 2 ^ 12 < 2 ^ 12 := Nat.mod_lt _ (by decide)
  rw [physicalAddress, frame, BitVec.toNat_or, base, offset, ← Nat.two_pow_add_eq_or_of_lt below,
    Nat.mul_comm]
  rfl

/-- An address that is a multiple of a table's size keeps its value in a
first-level descriptor. -/
theorem and_baseaddr_of_dvd {leaf : BitVec 32} (aligned : 1024 ∣ leaf.toNat) :
    leaf &&& 0xfffffc00#32 = leaf := by
  apply BitVec.eq_of_toNat_eq
  have mask : leaf &&& 0xfffffc00#32 = leaf &&& ~~~(BitVec.ofNat 32 (2 ^ 10) - 1#32) := rfl
  rw [mask, Machine.toNat_and_not_mask (by decide)]
  exact Nat.div_mul_cancel aligned

/-! ## Indices -/

/-- The first-level index, as the code masks and shifts it. -/
def firstIndex (virt : BitVec 32) : Nat := ((virt &&& 0xFFF00000#32) >>> 20).toNat

/-- The second-level index, as the code masks and shifts it. -/
def secondIndex (virt : BitVec 32) : Nat := ((virt &&& 0xFF000#32) >>> 12).toNat

theorem firstIndex_eq (virt : BitVec 32) : firstIndex virt = virt.toNat / 2 ^ 20 := by
  have mask : virt &&& 0xFFF00000#32 = virt &&& ~~~(BitVec.ofNat 32 (2 ^ 20) - 1#32) := rfl
  rw [firstIndex, mask, BitVec.toNat_ushiftRight, Machine.toNat_and_not_mask (by decide),
    Nat.shiftRight_eq_div_pow, Nat.mul_div_cancel _ (by decide)]

theorem secondIndex_eq (virt : BitVec 32) : secondIndex virt = virt.toNat / 2 ^ 12 % 256 := by
  rw [secondIndex, BitVec.toNat_ushiftRight, BitVec.toNat_and, Nat.shiftRight_and_distrib,
    Nat.shiftRight_eq_div_pow]
  exact Nat.and_two_pow_sub_one_eq_mod _ 8

theorem firstIndex_lt (virt : BitVec 32) : firstIndex virt < 4096 := by
  have below := virt.isLt
  rw [firstIndex_eq]
  omega

theorem secondIndex_lt (virt : BitVec 32) : secondIndex virt < 256 := by
  rw [secondIndex_eq]
  omega

theorem firstIndex_secondIndex (virt : BitVec 32) :
    256 * firstIndex virt + secondIndex virt = virt.toNat / pageSize := by
  rw [firstIndex_eq, secondIndex_eq, pageSize]
  omega

/-! ## The tables as a map -/

/-- The table that a first-level descriptor names. -/
def child (descriptor : BitVec 32) : Option Nat :=
  if descriptor &&& 3#32 = 1#32 then some (descriptor &&& 0xfffffc00#32).toNat else none

/-- The two levels of tables. -/
def tables : Layout (BitVec 32) := ⟨4, 4096, 256, by decide, child⟩

/-- Every word of the first level is zero or names a table, and the tables do
not overlap. -/
structure WellFormed (memory : Memory) (root : Nat) : Prop where
  entries : ∀ i, i < 4096 → memory (slot tables root i) = 0#32 ∨
    memory (slot tables root i) &&& 3#32 = 1#32
  separated : Separated tables memory root

/-- The first-level table that `TTBR0` names. -/
def tableRoot (ttbr0 : BitVec 32) : Nat := (ttbr0 &&& ~~~0x3fff#32).toNat

/-- What a lookup in the tables means for the walk. -/
def translation (descriptor : Option (BitVec 32)) : Translation :=
  match descriptor with
  | none => .fault
  | some descriptor => secondLevel descriptor

/-- The walk is the lookup at the two indices. -/
theorem walk_eq {memory : Memory} {ttbr0 : BitVec 32}
    (wellFormed : WellFormed memory (tableRoot ttbr0)) (virt : BitVec 32) :
    walk memory ttbr0 virt =
      translation (lookup tables memory (tableRoot ttbr0) (firstIndex virt)
        (secondIndex virt)) := by
  have first : (virt >>> 20).toNat = firstIndex virt := by
    rw [firstIndex_eq, BitVec.toNat_ushiftRight, Nat.shiftRight_eq_div_pow]
  have second : ((virt >>> 12) &&& 0xff#32).toNat = secondIndex virt := by
    rw [secondIndex_eq, BitVec.toNat_and, BitVec.toNat_ushiftRight, Nat.shiftRight_eq_div_pow]
    exact Nat.and_two_pow_sub_one_eq_mod _ 8
  have address : (ttbr0 &&& ~~~0x3fff#32).toNat + 4 * firstIndex virt =
      slot tables (tableRoot ttbr0) (firstIndex virt) := rfl
  unfold walk lookup
  dsimp only
  rw [first, second, address]
  rcases wellFormed.entries _ (firstIndex_lt virt) with zero | isTable
  · rw [zero]
    rfl
  · have named : tables.child (memory (slot tables (tableRoot ttbr0) (firstIndex virt))) =
        some (memory (slot tables (tableRoot ttbr0) (firstIndex virt)) &&& 0xfffffc00#32).toNat :=
      if_pos isTable
    rw [named, isTable, if_neg (by decide), if_pos rfl]
    rfl

theorem WellFormed.update_leaf {memory : Memory} {root i j leaf : Nat}
    (wellFormed : WellFormed memory root) (rootIndex : i < 4096) (leafIndex : j < 256)
    (leads : child (memory (slot tables root i)) = some leaf) (descriptor : BitVec 32) :
    WellFormed (Function.update memory (slot tables leaf j) descriptor) root where
  entries := by
    intro i' rootIndex'
    rw [root_update_leaf wellFormed.separated rootIndex leafIndex leads descriptor rootIndex']
    exact wellFormed.entries i' rootIndex'
  separated := separated_update_leaf wellFormed.separated rootIndex leafIndex leads descriptor

theorem child_buildPagetable {leaf : BitVec 32} (aligned : leaf &&& 0xfffffc00#32 = leaf) :
    child (vmsav7BuildPagetable leaf pagetableDomain0 pagetablePrivilegedExecute pagetableSecure) =
      some leaf.toNat := by
  have built :
      vmsav7BuildPagetable leaf pagetableDomain0 pagetablePrivilegedExecute pagetableSecure =
      1#32 ||| leaf := by
    simp [vmsav7BuildPagetable, pagetableBits, pagetableBaseaddr, pagetableDomain0,
      pagetablePrivilegedExecute, pagetableSecure, aligned]
  have typeBits : (1#32 ||| leaf) &&& 3#32 = 1#32 := by
    rw [BitVec.and_or_distrib_right, and_eq_zero_of_within aligned (by decide)]
    decide
  have base : (1#32 ||| leaf) &&& 0xfffffc00#32 = leaf := by
    rw [BitVec.and_or_distrib_right, aligned]
    simp
  rw [built, child, if_pos typeBits, base]

end VMSAv7
end ShovelOS
