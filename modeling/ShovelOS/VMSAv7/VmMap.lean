import ShovelOS.VMSAv7.LinearMap
import ShovelOS.MemCache.Slabs

namespace ShovelOS
namespace VMSAv7

open TwoLevelTable
open SlabCache (gfpZero)

/-!
# Mapping pages (`arch/arm_a/mm/VMSAv7/page_tables.c`)

`vm_map` changes the tables that `TTBR0` names, page by page.  A megabyte
that has no second-level table gets one from `kmalloc`, which is a parameter:
it may change the memory outside of the tables, and its result is zero when
it fails.  The cache and TLB maintenance at the end does not change the
tables.
-/

/-- The addresses of the RAM.  It ends before the address space does. -/
structure VmConfig where
  virtualMemoryBaseAddress : BitVec 32
  physicalMemoryBaseAddress : BitVec 32
  physicalMemoryLength : BitVec 32
  end_lt : physicalMemoryBaseAddress.toNat + physicalMemoryLength.toNat < 2 ^ 32

/-- `MMU_NOACCESS` and `MMU_DEVICE`. -/
def mmuNoaccess : BitVec 32 := 0#32
def mmuDevice : BitVec 32 := 2#32

variable (config : VmConfig)

def _virtToPhy (virt : BitVec 32) : BitVec 32 :=
  virt - (config.virtualMemoryBaseAddress - config.physicalMemoryBaseAddress)

/-- `_get_memtype`.  The choice for `MMU_RAM` stands behind a return. -/
def _getMemtype (mmuFlags : BitVec 32) : BitVec 32 :=
  if mmuFlags &&& mmuDevice ≠ 0#32 then smallpageMemtypeSharedDevice
  else smallpageMemtypeSharedStronglyOrdered

def _getAccess (mmuFlags : BitVec 32) : BitVec 32 :=
  if mmuFlags = mmuNoaccess then smallpageAccessNone else smallpageAccessFull

def _getExecute (mmuFlags : BitVec 32) : BitVec 32 :=
  if mmuFlags &&& mmuDevice ≠ 0#32 then smallpageExecutenever else smallpageExecute

/-- `_vmsav7_build_pagetable`: the word that it stores. -/
def _vmsav7BuildPagetable (virtAddr : BitVec 32) : BitVec 32 :=
  vmsav7BuildPagetable (_virtToPhy config virtAddr) pagetableDomain0 pagetablePrivilegedExecute
    pagetableSecure

/-- `_vmsav7_build_smallpage`: the word that it stores. -/
def _vmsav7BuildSmallpage (phyAddr mmuFlags : BitVec 32) : BitVec 32 :=
  vmsav7BuildSmallpage phyAddr (_getMemtype mmuFlags) (_getAccess mmuFlags) smallpageGlobal
    (_getExecute mmuFlags)

/-- What `kmalloc` does for a size and flags: an address, or zero, and the
memory that it leaves. -/
abbrev Kmalloc := Nat → BitVec 32 → Memory → Nat × Memory

variable (kmalloc : Kmalloc)

def vmMapLoop (ptRoot : Nat) (mmuFlags gfpFlags virt phy size : BitVec 32) (memory : Memory) :
    Int × Memory :=
  if size = 0#32 then (0, memory)
  else
    let pt := ptRoot + 4 * firstIndex virt
    let sp := (memory pt &&& 0xfffffc00#32).toNat
    let (sp, memory) := if sp = 0 then kmalloc 1024 (gfpFlags ||| gfpZero) memory else (sp, memory)
    if sp = 0 then (-1, memory)
    else
      let memory :=
        Function.update memory (sp + 4 * secondIndex virt) (_vmsav7BuildSmallpage phy mmuFlags)
      let memory := Function.update memory pt (_vmsav7BuildPagetable config (BitVec.ofNat 32 sp))
      if pageSize < size.toNat then
        vmMapLoop ptRoot mmuFlags gfpFlags (virt + BitVec.ofNat 32 pageSize)
          (phy + BitVec.ofNat 32 pageSize) (size - BitVec.ofNat 32 pageSize) memory
      else (0, memory)
termination_by size.toNat
decreasing_by
  rename_i long
  have page : (BitVec.ofNat 32 pageSize).toNat = 4096 := rfl
  change 4096 < size.toNat at long
  rw [BitVec.toNat_sub_of_le (by rw [BitVec.le_def, page]; omega), page]
  omega

def vmMap (ttbr0 virt phy size mmuFlags gfpFlags : BitVec 32) (memory : Memory) : Int × Memory :=
  let ptRoot := (ttbr0 &&& ~~~(0x4000#32 - 1#32)).toNat
  if ttbr0 < config.physicalMemoryBaseAddress ∨
      config.physicalMemoryBaseAddress + config.physicalMemoryLength ≤ ttbr0 then (0, memory)
  else vmMapLoop config kmalloc ptRoot mmuFlags gfpFlags virt phy size memory

def vmUnmap (ttbr0 virt size : BitVec 32) (memory : Memory) : Int × Memory :=
  vmMap config kmalloc ttbr0 virt 0#32 size mmuNoaccess 0#32 memory

/-! ## What is relied on -/

/-- The tables are in order, and none of them is at the null address. -/
structure TablesInOrder (memory : Memory) (root : Nat) : Prop where
  wellFormed : WellFormed memory root
  notNull : ∀ i leaf, i < 4096 → child (memory (slot tables root i)) = some leaf → leaf ≠ 0

/-- What `kmalloc` is relied on for in one memory: a cleared kibibyte is aligned,
overlaps no table and holds zeros.  The tables stay as they are, whether it
succeeds or not. -/
structure Supplied (root : Nat) (gfpFlags : BitVec 32) (memory : Memory) : Prop where
  keeps : SameTables tables memory (kmalloc 1024 (gfpFlags ||| gfpZero) memory).2 root
  aligned : 1024 ∣ (kmalloc 1024 (gfpFlags ||| gfpZero) memory).1
  below : (kmalloc 1024 (gfpFlags ||| gfpZero) memory).1 + 1024 ≤ 2 ^ 32
  fresh : (kmalloc 1024 (gfpFlags ||| gfpZero) memory).1 ≠ 0 →
    Fresh tables memory root (kmalloc 1024 (gfpFlags ||| gfpZero) memory).1
  zeroed : (kmalloc 1024 (gfpFlags ||| gfpZero) memory).1 ≠ 0 → ∀ j, j < 256 →
    (kmalloc 1024 (gfpFlags ||| gfpZero) memory).2
      (slot tables (kmalloc 1024 (gfpFlags ||| gfpZero) memory).1 j) = 0#32

/-- The mapping that the flags ask for: device memory is never executed and
has a type of its own, and only no access at all differs from full access. -/
def wanted (mmuFlags frame : BitVec 32) : Mapping where
  frame := frame
  memType := if mmuFlags &&& mmuDevice ≠ 0#32 then smallpageB 1 else 0#32
  access := if mmuFlags = mmuNoaccess then 0#32 else smallpageAP 3
  notGlobal := 0#32
  executeNever := if mmuFlags &&& mmuDevice ≠ 0#32 then smallpageXN 1 else 0#32

/-- The number of pages that a size touches from a page's beginning on. -/
def pageCount (size : BitVec 32) : Nat := (size.toNat + (pageSize - 1)) / pageSize

/-- The pages of the range have the mapping that was asked for, and the walk
of every address in another page is what it was. -/
def Mapped (memory memory' : Memory) (ttbr0 virt phy size mmuFlags : BitVec 32) : Prop :=
  (∀ i, i < pageCount size →
    ∃ descriptor, walk memory' ttbr0 (virt + BitVec.ofNat 32 (pageSize * i)) =
      .smallPage descriptor ∧
      fields descriptor = wanted mmuFlags (phy + BitVec.ofNat 32 (pageSize * i))) ∧
  ∀ other : BitVec 32,
    (∀ i, i < pageCount size →
      other.toNat / pageSize ≠ (virt + BitVec.ofNat 32 (pageSize * i)).toNat / pageSize) →
    walk memory' ttbr0 other = walk memory ttbr0 other

/-- The attributes that `vm_map` gives to a page. -/
def mapAttributes (mmuFlags : BitVec 32) : Attributes where
  memType := _getMemtype mmuFlags
  access := _getAccess mmuFlags
  isGlobal := smallpageGlobal
  executeNever := _getExecute mmuFlags
  memType_within := by unfold _getMemtype; split <;> decide
  access_within := by unfold _getAccess; split <;> decide
  isGlobal_within := smallpageGlobal_within
  executeNever_within := by unfold _getExecute; split <;> decide

theorem fields_mapAttributes (mmuFlags : BitVec 32) {frame : BitVec 32}
    (aligned : smallpageBaseaddr frame = frame) :
    fields ((mapAttributes mmuFlags).smallpage frame) = wanted mmuFlags frame := by
  rw [fields_smallpage, aligned]
  unfold wanted mapAttributes _getMemtype _getAccess _getExecute
  congr 1

variable {config kmalloc}

/-! ## One page -/

theorem child_vmsav7BuildPagetable
    (sameBase : config.virtualMemoryBaseAddress = config.physicalMemoryBaseAddress) {leaf : Nat}
    (aligned : 1024 ∣ leaf) (below : leaf < 2 ^ 32) :
    tables.child (_vmsav7BuildPagetable config (BitVec.ofNat 32 leaf)) = some leaf := by
  have value : (BitVec.ofNat 32 leaf).toNat = leaf := by
    rw [BitVec.toNat_ofNat]
    exact Nat.mod_eq_of_lt below
  change child _ = _
  rw [_vmsav7BuildPagetable, _virtToPhy, sameBase, BitVec.sub_self, BitVec.sub_zero,
    child_buildPagetable (and_baseaddr_of_dvd (by rw [value]; exact aligned)), value]

/-- A descriptor that names a table has the type of one. -/
theorem typeBits_of_child {descriptor : BitVec 32} {leaf : Nat}
    (names : child descriptor = some leaf) :
    descriptor &&& 3#32 = 1#32 ∧ (descriptor &&& 0xfffffc00#32).toNat = leaf := by
  unfold child at names
  split at names
  · rename_i isTable
    exact ⟨isTable, Option.some.inj names⟩
  · cases names

theorem aligned_of_child {descriptor : BitVec 32} {leaf : Nat}
    (names : child descriptor = some leaf) :
    1024 ∣ leaf := by
  have mask : descriptor &&& 0xfffffc00#32 = descriptor &&& ~~~(BitVec.ofNat 32 (2 ^ 10) - 1#32) :=
    rfl
  rw [← (typeBits_of_child names).2, mask, Machine.toNat_and_not_mask (by decide)]
  exact Nat.dvd_mul_left _ _

/-- A first-level descriptor that names a table which overlaps no other keeps
the tables in order. -/
theorem TablesInOrder.update_root {memory memory' : Memory} {root i leaf : Nat}
    {descriptor : BitVec 32} (inOrder : TablesInOrder memory root)
    (rootSame : ∀ i', i' < 4096 → memory' (slot tables root i') = memory (slot tables root i'))
    (separated : Separated tables memory' root) (rootIndex : i < 4096)
    (admissible : Admissible tables memory' root i leaf)
    (names : tables.child descriptor = some leaf) (notNull : leaf ≠ 0) :
    TablesInOrder (Function.update memory' (slot tables root i) descriptor) root where
  wellFormed :=
    { entries := by
        intro i' rootIndex'
        rw [root_update_root]
        by_cases here : i' = i
        · rw [if_pos here]
          exact Or.inr (typeBits_of_child names).1
        · rw [if_neg here, rootSame i' rootIndex']
          exact inOrder.wellFormed.entries i' rootIndex'
      separated := separated_update_root separated rootIndex admissible names }
  notNull := by
    intro i' leaf' rootIndex' leads'
    rw [root_update_root] at leads'
    by_cases here : i' = i
    · rw [if_pos here] at leads'
      cases names.symm.trans leads'
      exact notNull
    · rw [if_neg here, rootSame i' rootIndex'] at leads'
      exact inOrder.notNull i' leaf' rootIndex' leads'

section Page

variable {memory memory' : Memory} {root i j leaf : Nat} {descriptor : BitVec 32}

/-- A page of a megabyte that has a table is mapped.  The first-level
descriptor is built again for the same table. -/
theorem map_page_present (inOrder : TablesInOrder memory root) (rootIndex : i < 4096)
    (leafIndex : j < 256) (leads : tables.child (memory (slot tables root i)) = some leaf)
    (names : tables.child descriptor = some leaf) (attributes : Attributes) (frame : BitVec 32)
    (mapped : memory' = Function.update
      (Function.update memory (slot tables leaf j) (attributes.smallpage frame))
      (slot tables root i) descriptor) :
    TablesInOrder memory' root ∧
      ∀ i' j', i' < 4096 → j' < 256 → translation (lookup tables memory' root i' j') =
        if i' = i ∧ j' = j then .smallPage (attributes.smallpage frame)
        else translation (lookup tables memory root i' j') := by
  have separated := inOrder.wellFormed.separated
  have rootSame :=
    fun i' (inTable : i' < 4096) => root_update_leaf separated rootIndex leafIndex leads
    (attributes.smallpage frame) inTable
  have separated' :=
    separated_update_leaf separated rootIndex leafIndex leads (attributes.smallpage frame)
  have leads' := (congrArg tables.child (rootSame i rootIndex)).trans leads
  subst mapped
  refine ⟨inOrder.update_root rootSame separated' rootIndex (Or.inl leads') names
    (inOrder.notNull i leaf rootIndex leads), ?_⟩
  intro i' j' rootIndex' leafIndex'
  rw [lookup_update_root separated' rootIndex (Or.inl leads') names rootIndex' leafIndex']
  have leafLookup :=
    lookup_update_leaf separated rootIndex leafIndex leads (attributes.smallpage frame)
    rootIndex' leafIndex'
  by_cases here : i' = i
  · -- The megabyte still has the same table.
    have through :
        lookup tables (Function.update memory (slot tables leaf j) (attributes.smallpage frame))
        root i' j' = some (Function.update memory (slot tables leaf j) (attributes.smallpage frame)
          (slot tables leaf j')) := by
      rw [lookup, here, leads', Option.map_some]
    rw [if_pos here, ← through, leafLookup]
    split
    · exact secondLevel_smallpage attributes frame
    · rfl
  · rw [if_neg here, leafLookup, if_neg (fun both => here both.1), if_neg (fun both => here both.1)]

/-- A page of a megabyte that has no table is mapped in a new one, whose other
pages fault as before. -/
theorem map_page_absent {memoryAfter : Memory} (inOrder : TablesInOrder memory root)
    (rootIndex : i < 4096) (leafIndex : j < 256)
    (absent : tables.child (memory (slot tables root i)) = none)
    (same : SameTables tables memory memoryAfter root) (fresh : Fresh tables memory root leaf)
    (zeroed : ∀ j', j' < 256 → memoryAfter (slot tables leaf j') = 0#32) (notNull : leaf ≠ 0)
    (names : tables.child descriptor = some leaf) (attributes : Attributes) (frame : BitVec 32)
    (mapped : memory' = Function.update
      (Function.update memoryAfter (slot tables leaf j) (attributes.smallpage frame))
      (slot tables root i) descriptor) :
    TablesInOrder memory' root ∧
      ∀ i' j', i' < 4096 → j' < 256 → translation (lookup tables memory' root i' j') =
        if i' = i ∧ j' = j then .smallPage (attributes.smallpage frame)
        else translation (lookup tables memory root i' j') := by
  have written := sameTables_update_fresh (same.fresh fresh) leafIndex (attributes.smallpage frame)
  have separated' := written.separated (same.separated inOrder.wellFormed.separated)
  have fresh' := written.fresh (same.fresh fresh)
  have rootSame : ∀ i', i' < 4096 →
      Function.update memoryAfter (slot tables leaf j) (attributes.smallpage frame)
        (slot tables root i') =
        memory (slot tables root i') := fun i' rootIndex' =>
    (written.rootSame i' rootIndex').trans (same.rootSame i' rootIndex')
  subst mapped
  refine ⟨inOrder.update_root rootSame separated' rootIndex (Or.inr fresh') names notNull, ?_⟩
  intro i' j' rootIndex' leafIndex'
  rw [lookup_update_root separated' rootIndex (Or.inr fresh') names rootIndex' leafIndex']
  by_cases here : i' = i
  · have before : lookup tables memory root i' j' = none := by
      rw [lookup, here, absent, Option.map_none]
    rw [if_pos here, before]
    by_cases there : j' = j
    · rw [if_pos ⟨here, there⟩, there, Function.update_self]
      exact secondLevel_smallpage attributes frame
    · rw [if_neg (fun both => there both.2),
        Function.update_of_ne (fun sameSlot => there (slot_injective sameSlot)),
        zeroed j' leafIndex']
      rfl
  · rw [if_neg here, if_neg (fun both => here both.1), written.lookup_eq rootIndex' leafIndex',
      same.lookup_eq rootIndex' leafIndex']

end Page

/-- The first-level descriptor names no table, so that one is asked for. -/
def Lacks (memory : Memory) (root i : Nat) : Prop :=
  (memory (slot tables root i) &&& 0xfffffc00#32).toNat = 0

instance (memory : Memory) (root i : Nat) : Decidable (Lacks memory root i) :=
  inferInstanceAs (Decidable ((memory (slot tables root i) &&& 0xfffffc00#32).toNat = 0))

/-- The table of the next page: the one that its megabyte has, or a new one. -/
def nextTable (kmalloc : Kmalloc) (root : Nat) (gfpFlags : BitVec 32) (memory : Memory) (i : Nat) :
    Nat × Memory :=
  if Lacks memory root i then
    kmalloc 1024 (gfpFlags ||| gfpZero) memory
  else ((memory (slot tables root i) &&& 0xfffffc00#32).toNat, memory)

/-- The memory after one turn of the loop. -/
def afterTurn (config : VmConfig) (kmalloc : Kmalloc) (root : Nat) (gfpFlags : BitVec 32)
    (memory : Memory) (i j : Nat) (descriptor : BitVec 32) : Memory :=
  Function.update
    (Function.update (nextTable kmalloc root gfpFlags memory i).2
      (slot tables (nextTable kmalloc root gfpFlags memory i).1 j) descriptor)
    (slot tables root i)
    (_vmsav7BuildPagetable config (BitVec.ofNat 32 (nextTable kmalloc root gfpFlags memory i).1))

/-- Whichever table the next page gets, the page is mapped in it and no other
translation changes. -/
theorem map_page (sameBase : config.virtualMemoryBaseAddress = config.physicalMemoryBaseAddress)
    {root : Nat} {gfpFlags : BitVec 32} {memory : Memory} {i j : Nat}
    (supplied : Lacks memory root i → Supplied kmalloc root gfpFlags memory)
    (inOrder : TablesInOrder memory root) (rootIndex : i < 4096) (leafIndex : j < 256)
    (attributes : Attributes) (frame : BitVec 32)
    (obtained : (nextTable kmalloc root gfpFlags memory i).1 ≠ 0) {memory' : Memory}
    (mapped : memory' =
      afterTurn config kmalloc root gfpFlags memory i j (attributes.smallpage frame)) :
    TablesInOrder memory' root ∧
      ∀ i' j', i' < 4096 → j' < 256 → translation (lookup tables memory' root i' j') =
        if i' = i ∧ j' = j then .smallPage (attributes.smallpage frame)
        else translation (lookup tables memory root i' j') := by
  cases leads : tables.child (memory (slot tables root i)) with
  | some leaf =>
      have leafEq := (typeBits_of_child leads).2
      have notNull := inOrder.notNull i leaf rootIndex leads
      have present : ¬ Lacks memory root i := fun lacks => notNull (leafEq.symm.trans lacks)
      have next : nextTable kmalloc root gfpFlags memory i = (leaf, memory) := by
        rw [nextTable, if_neg present, leafEq]
      rw [afterTurn, next] at mapped
      have below : leaf < 2 ^ 32 := by
        rw [← leafEq]
        exact BitVec.isLt _
      exact map_page_present inOrder rootIndex leafIndex leads
        (child_vmsav7BuildPagetable sameBase (aligned_of_child leads) below) attributes frame mapped
  | none =>
      -- Without a table the descriptor is zero, so one is asked for.
      have zero : memory (slot tables root i) = 0#32 := by
        rcases inOrder.wellFormed.entries i rootIndex with zero | isTable
        · exact zero
        · have names : tables.child (memory (slot tables root i)) = some _ := if_pos isTable
          rw [names] at leads
          cases leads
      have lacks : Lacks memory root i := by
        rw [Lacks, zero]
        rfl
      have next : nextTable kmalloc root gfpFlags memory i =
          kmalloc 1024 (gfpFlags ||| gfpZero) memory := if_pos lacks
      rw [afterTurn, next] at mapped
      rw [next] at obtained
      rcases supplied lacks with ⟨keeps, aligned, below, fresh, zeroed⟩
      exact map_page_absent inOrder rootIndex leafIndex leads keeps (fresh obtained)
        (zeroed obtained) obtained
        (child_vmsav7BuildPagetable sameBase aligned (by omega)) attributes frame mapped

end VMSAv7
end ShovelOS
