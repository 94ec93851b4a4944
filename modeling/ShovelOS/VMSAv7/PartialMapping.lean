import ShovelOS.VMSAv7.MapRange

namespace ShovelOS
namespace VMSAv7

open TwoLevelTable
open SlabCache (gfpZero)

/-!
# What a failed `vm_map` leaves behind

A failed call has entered the pages in front of the first refusal, so it
leaves every walk as it was if and only if each of these pages had the same
mapping before.
-/

variable {config : VmConfig} {kmalloc : Kmalloc} {root : Nat}
  {mmuFlags gfpFlags virt phy : BitVec 32}
variable {memory : Memory}

/-- The memory in which a request for a table has been refused has the same
tables. -/
theorem Entered.refused {ttbr0 : BitVec 32} {count : Nat} {memory' : Memory}
    (entered : Entered memory memory' ttbr0 mmuFlags virt phy count) (i : Nat)
    (supplied : Lacks memory' (tableRoot ttbr0) i →
      Supplied kmalloc (tableRoot ttbr0) gfpFlags memory') :
    Entered memory (nextTable kmalloc (tableRoot ttbr0) gfpFlags memory' i).2
      ttbr0 mmuFlags virt phy count := by
  have same : SameTables tables memory' (nextTable kmalloc (tableRoot ttbr0) gfpFlags memory' i).2
      (tableRoot ttbr0) := by
    rw [nextTable]
    split
    · next lacks => exact (supplied lacks).keeps
    · exact SameTables.refl _ _
  have inOrder : TablesInOrder (nextTable kmalloc (tableRoot ttbr0) gfpFlags memory' i).2
      (tableRoot ttbr0) := by
    refine ⟨⟨fun i' rootIndex => ?_, same.separated entered.inOrder.wellFormed.separated⟩,
      fun i' leaf rootIndex leads => ?_⟩
    · rw [same.rootSame i' rootIndex]
      exact entered.inOrder.wellFormed.entries i' rootIndex
    · rw [same.rootSame i' rootIndex] at leads
      exact entered.inOrder.notNull i' leaf rootIndex leads
  have walked := fun other => walk_congr ttbr0 entered.inOrder.wellFormed inOrder.wellFormed
    (fun i' j' rootIndex leafIndex =>
      congrArg translation (same.lookup_eq rootIndex leafIndex)) other
  refine ⟨inOrder, fun i' below => ?_, fun other elsewhere => ?_⟩
  · rw [walked, entered.entered i' below]
  · rw [walked, entered.kept other elsewhere]

/-! ## The call -/

/-- The call's effect on the walks, if it fails: there is none. -/
def UnchangedOnFailure (config : VmConfig) (kmalloc : Kmalloc)
    (ttbr0 virt phy size mmuFlags gfpFlags : BitVec 32) (memory : Memory) : Prop :=
  ∀ memory', vmMap config kmalloc ttbr0 virt phy size mmuFlags gfpFlags memory = (-1, memory') →
    ∀ other : BitVec 32, walk memory' ttbr0 other = walk memory ttbr0 other

theorem entered_of_refused
    (sameBase : config.virtualMemoryBaseAddress = config.physicalMemoryBaseAddress)
    {ttbr0 size : BitVec 32} {i : Nat}
    (delivers : Delivers config kmalloc (tableRoot ttbr0) mmuFlags gfpFlags virt phy memory size)
    (inOrder : TablesInOrder memory (tableRoot ttbr0)) (inRange : i < pageCount size)
    (refused : RefusedAt config kmalloc (tableRoot ttbr0) mmuFlags gfpFlags virt phy memory i) :
    Entered memory (tableFor config kmalloc (tableRoot ttbr0) mmuFlags gfpFlags virt phy memory i).2
      ttbr0 mmuFlags virt phy i := by
  exact (entered_afterPages sameBase delivers inOrder i (Nat.le_of_lt inRange) refused.2).refused _
    (delivers i inRange refused.2)

/-- For every range and every pattern of refusals, a failed `vm_map` leaves
every walk as it was if and only if each page in front of the first refused
table already had the mapping that was asked for. -/
theorem vm_map_unchanged_on_failure_iff
    (sameBase : config.virtualMemoryBaseAddress = config.physicalMemoryBaseAddress)
    {ttbr0 : BitVec 32}
    (inRam : config.physicalMemoryBaseAddress.toNat ≤ ttbr0.toNat ∧
      ttbr0.toNat < config.physicalMemoryBaseAddress.toNat + config.physicalMemoryLength.toNat)
    (inOrder : TablesInOrder memory (tableRoot ttbr0)) (virt phy size mmuFlags gfpFlags : BitVec 32)
    (delivers : Delivers config kmalloc (tableRoot ttbr0) mmuFlags gfpFlags virt phy memory size) :
    UnchangedOnFailure config kmalloc ttbr0 virt phy size mmuFlags gfpFlags memory ↔
      ∀ i, i < pageCount size →
        RefusedAt config kmalloc (tableRoot ttbr0) mmuFlags gfpFlags virt phy memory i →
        ∀ before, before < i → walk memory ttbr0 (pageOf virt before) =
          .smallPage (_vmsav7BuildSmallpage (pageOf phy before) mmuFlags) := by
  rw [UnchangedOnFailure]
  simp only [vmMap_eq_loop inRam]
  constructor
  · intro unchanged i inRange refused before isBefore
    rw [← (entered_of_refused sameBase delivers inOrder inRange refused).entered before isBefore]
    exact (unchanged _ (vmMapLoop_refused inRange refused) _).symm
  · intro already memory' returned other
    rcases refused_or_obtained config kmalloc (tableRoot ttbr0) mmuFlags gfpFlags virt phy memory
      (pageCount size) with ⟨i, inRange, refused⟩ | obtained
    · rw [vmMapLoop_refused inRange refused] at returned
      have left := entered_of_refused sameBase delivers inOrder inRange refused
      rw [show (tableFor config kmalloc (tableRoot ttbr0) mmuFlags gfpFlags virt phy memory i).2 =
        memory' from
        congrArg Prod.snd returned] at left
      by_cases inFront : ∃ before, before < i ∧
          other.toNat / pageSize = (pageOf virt before).toNat / pageSize
      · rcases inFront with ⟨before, isBefore, samePage⟩
        rw [walk_of_page left.inOrder.wellFormed samePage, walk_of_page inOrder.wellFormed samePage,
          left.entered before isBefore, already i inRange refused before isBefore]
      · exact left.kept other fun before isBefore samePage => inFront ⟨before, isBefore, samePage⟩
    · rw [vmMapLoop_succeeds obtained] at returned
      have result : (0 : Int) = -1 := congrArg Prod.fst returned
      exact absurd result (by decide)

/-- A page of device memory, in a megabyte that has no table. -/
theorem vm_map_unchanged_on_failure_iff_beaglexm :
    UnchangedOnFailure beaglexmVm oneBlock 0x80200000#32 0x49020000#32 0x49020000#32 0x1000#32
      mmuDevice
        0#32 (fun _address => 0#32) ↔
      ∀ i, i < pageCount 0x1000#32 →
        RefusedAt beaglexmVm oneBlock
          (tableRoot 0x80200000#32) mmuDevice 0#32 0x49020000#32 0x49020000#32
          (fun _address => 0#32) i →
        ∀ before, before < i →
        walk (fun _address => 0#32) 0x80200000#32 (pageOf 0x49020000#32 before) =
          .smallPage (_vmsav7BuildSmallpage (pageOf 0x49020000#32 before) mmuDevice) :=
  vm_map_unchanged_on_failure_iff rfl (show _ ≤ (0x80200000#32).toNat ∧ _ by decide)
    (tablesInOrder_zero _)
    0x49020000#32 0x49020000#32 0x1000#32 mmuDevice 0#32 delivers_oneBlock

theorem blockUnused_zero : BlockUnused (fun _address => 0#32) := by
  intro i _rootIndex leads
  cases child_zero.symm.trans leads

/-- The only table has been given to the first of two megabytes. -/
theorem refusedAt_one :
    RefusedAt beaglexmVm oneBlock (tableRoot 0x80200000#32) mmuDevice 0#32 0x490FF000#32
    0x490FF000#32 (fun _address => 0#32) 1 := by
  have root : tableRoot 0x80200000#32 = 0x80200000 := by decide
  have firstPage : firstIndex (pageOf 0x490FF000#32 0) = 0x490 ∧
      secondIndex (pageOf 0x490FF000#32 0) = 0xFF := by decide
  have secondPage : firstIndex (pageOf 0x490FF000#32 1) = 0x491 := by decide
  have block : oneBlock 1024 (0#32 ||| gfpZero) (fun _address => 0#32) =
      (0x80300000, fun _address => 0#32) := by
    refine (if_pos blockUnused_zero).trans ?_
    exact congrArg (Prod.mk _) (funext fun address => ite_self _)
  have granted : nextTable oneBlock 0x80200000 0#32 (fun _address => 0#32) 0x490 =
      (0x80300000, fun _address => 0#32) := (if_pos (by decide)).trans block
  have written :
        afterPages beaglexmVm oneBlock 0x80200000 mmuDevice 0#32 0x490FF000#32 0x490FF000#32
        (fun _address => 0#32) 1 =
      Function.update (Function.update (fun _address => 0#32) (slot tables 0x80300000 0xFF)
        (_vmsav7BuildSmallpage (pageOf 0x490FF000#32 0) mmuDevice)) (slot tables 0x80200000 0x490)
        (_vmsav7BuildPagetable beaglexmVm (BitVec.ofNat 32 0x80300000)) := by
    rw [afterPages, afterPages, afterTurn, firstPage.1, firstPage.2, granted]
  rw [root]
  refine ⟨?_, fun before isBefore => ?_⟩
  · rw [tableFor, secondPage]
    generalize afterPages beaglexmVm oneBlock 0x80200000 mmuDevice 0#32 0x490FF000#32 0x490FF000#32
      (fun _address => 0#32) 1 = mapped at written
    have noTable : mapped (slot tables 0x80200000 0x491) = 0#32 := by
      rw [written, Function.update_of_ne (by decide), Function.update_of_ne (by decide)]
    have lacks : Lacks mapped 0x80200000 0x491 :=
      congrArg (fun entry => (entry &&& 0xfffffc00#32).toNat) noTable
    have used : ¬ BlockUnused mapped := by
      intro unused
      refine unused 0x490 (by decide) ?_
      rw [written, Function.update_self]
      exact child_vmsav7BuildPagetable rfl ⟨0x200c00, rfl⟩ (by decide)
    have refused : oneBlock 1024 (0#32 ||| gfpZero) mapped = (0, mapped) := if_neg used
    rw [nextTable, if_pos lacks, refused]
  · obtain rfl : before = 0 := by omega
    rw [tableFor, afterPages, firstPage.1, granted]
    decide

/-- Two pages of device memory at the border of two megabytes, with memory for
one table: the first page stays mapped. -/
theorem not_vm_map_unchanged_on_failure_beaglexm :
    ¬ ∀ (config : VmConfig) (kmalloc : Kmalloc) (ttbr0 virt phy size mmuFlags gfpFlags : BitVec 32)
      (memory : Memory), config.virtualMemoryBaseAddress = config.physicalMemoryBaseAddress →
      (∀ gfpFlags memory, TablesInOrder memory (tableRoot ttbr0) →
        Supplied kmalloc (tableRoot ttbr0) gfpFlags memory) →
      TablesInOrder memory (tableRoot ttbr0) →
      (config.physicalMemoryBaseAddress.toNat ≤ ttbr0.toNat ∧
        ttbr0.toNat < config.physicalMemoryBaseAddress.toNat + config.physicalMemoryLength.toNat) →
      UnchangedOnFailure config kmalloc ttbr0 virt phy size mmuFlags gfpFlags memory := by
  intro unchanged
  have inRam : beaglexmVm.physicalMemoryBaseAddress.toNat ≤ (0x80200000#32).toNat ∧
      (0x80200000#32).toNat <
      beaglexmVm.physicalMemoryBaseAddress.toNat +
        beaglexmVm.physicalMemoryLength.toNat := by decide
  have inRange : 1 < pageCount 0x2000#32 := by decide
  have entered := (entered_of_refused rfl delivers_oneBlock (tablesInOrder_zero _) inRange
    refusedAt_one).entered 0 (by decide)
  have failed := vmMapLoop_refused inRange refusedAt_one
  rw [← vmMap_eq_loop inRam] at failed
  have same :=
    unchanged beaglexmVm oneBlock 0x80200000#32 0x490FF000#32 0x490FF000#32 0x2000#32 mmuDevice
    0#32 (fun _address => 0#32) rfl
      (fun gfpFlags memory _inOrder => supplied_oneBlock gfpFlags memory)
    (tablesInOrder_zero _) inRam _ failed
    (pageOf 0x490FF000#32 0)
  rw [entered] at same
  exact absurd same (by decide)

end VMSAv7
end ShovelOS
