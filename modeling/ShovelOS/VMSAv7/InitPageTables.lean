import ShovelOS.VMSAv7.Descriptors

namespace ShovelOS
namespace VMSAv7

open TwoLevelTable

/-!
# The first page tables (`arch/arm_a/mm/VMSAv7/init_page_tables.c`)

At startup the RAM is mapped linearly.  The first-level table takes four
boot pages.  The second-level tables are cut out of further boot pages, four
from each.  Where the boot pages come from is a parameter: the address of the
first-level table, and the result of each later request.  The requests ask
for cleared memory.
-/

/-- The results of the requests for boot pages: the aligned one, and those
for single pages in their order.  Zero is the null pointer. -/
structure BootSource where
  root : Nat
  page : Nat → Nat

/-- The memory, the static variables of `_get_free_l2`, the number of single
pages asked for, and the table base register. -/
structure InitState where
  memory : Memory
  p : Nat
  n : Nat
  calls : Nat
  ttbr0 : BitVec 32

/-- At startup the static variables are zero. -/
def InitState.startup (memory : Memory) (ttbr0 : BitVec 32) : InitState := ⟨memory, 0, 0, 0, ttbr0⟩

/-- `GFP_ZERO`: the memory that a request returns is cleared. -/
def clear (memory : Memory) (base length : Nat) : Memory :=
  fun address => if base ≤ address ∧ address < base + length then 0#32 else memory address

/-- The number of boot pages that `_get_free_l2` asks for. -/
def l2Pages : Nat := if pageSize ≥ 256 * 4 then 1 else 256 * 4 / pageSize

variable (source : BootSource)

/-- `_get_free_l2`: a free table, or null. -/
def _getFreeL2 (state : InitState) : Nat × InitState :=
  let state :=
    if state.n = 0 then
      let p := source.page state.calls
      if p ≠ 0 then
        { state with
          memory := clear state.memory p (l2Pages * pageSize)
          p := p
          n := pageSize * l2Pages / (256 * 4)
          calls := state.calls + 1 }
      else { state with p := p, calls := state.calls + 1 }
    else state
  if state.n ≠ 0 then (state.p, { state with n := state.n - 1, p := state.p + 4 * 256 })
  else (0, state)

/-- The loop of `init_page_tables` over the first-level descriptors, with the
number that are left.  There is no state when a request has failed. -/
def linkLoop : Nat → Nat → InitState → Option InitState
  | 0, _itor, state => some state
  | count + 1, itor, state =>
      let (l2, state) := _getFreeL2 source state
      if l2 = 0 then none
      else
        linkLoop count ((itor + 4) % 2 ^ 32)
          { state with
            memory := Function.update state.memory itor
              (vmsav7BuildPagetable (BitVec.ofNat 32 l2) pagetableDomain0 pagetablePrivilegedExecute
                pagetableSecure) }

/-- `_init_page_tables_l2`.  A length that is not a multiple of a page never
becomes zero, so the loop does not end. -/
def _initPageTablesL2 (ptRoot : Nat) (memory : Memory)
    (phyMemBase virtMemBase phyMemLength : BitVec 32) :
    Option Memory :=
  if phyMemLength = 0#32 then some memory
  else if phyMemLength.toNat < pageSize then none
  else
    let pt := memory (ptRoot + 4 * firstIndex virtMemBase)
    let sp := (pt &&& 0xfffffc00#32).toNat
    _initPageTablesL2 ptRoot
      (Function.update memory (sp + 4 * secondIndex virtMemBase)
        (vmsav7BuildSmallpage phyMemBase smallpageMemtypeSharedNormalWriteback
          smallpageAccessPrivilegedFull smallpageGlobal smallpageExecute))
      (phyMemBase + BitVec.ofNat 32 pageSize) (virtMemBase + BitVec.ofNat 32 pageSize)
      (phyMemLength - BitVec.ofNat 32 pageSize)
termination_by phyMemLength.toNat
decreasing_by
  rename_i long
  have page : (BitVec.ofNat 32 pageSize).toNat = 4096 := rfl
  have fits : BitVec.ofNat 32 pageSize ≤ phyMemLength := by
    rw [BitVec.le_def, page]
    exact Nat.le_of_not_lt long
  rw [BitVec.toNat_sub_of_le fits, page]
  change ¬ phyMemLength.toNat < 4096 at long
  omega

/-- How often `itor`, a 32-bit pointer to words, is advanced until it is no
longer different from the end. -/
def turns (begin end_ : Nat) : Nat := (2 ^ 32 - begin + end_) % 2 ^ 32 / 4

/-- `init_page_tables`: the result, and the state in which the MMU is
switched on. -/
def initPageTables (state : InitState) (phyMemBase virtMemBase phyMemLength : BitVec 32) :
    Option (Int × InitState) :=
  let ptRoot := source.root
  let state := { state with memory := clear state.memory ptRoot (4 * pageSize) }
  let virtMemLast := virtMemBase + phyMemLength - 1#32
  let begin := ptRoot + 4 * firstIndex virtMemBase
  let end_ := ptRoot + 4 * firstIndex virtMemLast + 4
  match linkLoop source (turns begin end_) begin state with
  | none => some (-1, state)
  | some state =>
      (_initPageTablesL2 ptRoot state.memory phyMemBase virtMemBase phyMemLength).map fun memory =>
        (0, { state with memory := memory, ttbr0 := BitVec.ofNat 32 ptRoot })

end VMSAv7
end ShovelOS
