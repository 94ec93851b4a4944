import ShovelOS.VMSAv7.VmMap

namespace ShovelOS
namespace VMSAv7

open TwoLevelTable
open SlabCache (gfpZero)

/-!
# The range of a `vm_map`

`vm_map` enters its pages one after the other and asks for a table when it
comes to a megabyte that has none.  When the table is refused it returns at
once, and the pages entered so far stay in the tables.

Its loop is described here for every range, also for one that is not aligned
or that wraps at the end of the address space.  A call that succeeds has
entered all of its pages.
-/

section Turns

variable (config : VmConfig) (kmalloc : Kmalloc) (root : Nat)
  (mmuFlags gfpFlags virt phy : BitVec 32)
variable (memory : Memory)

def pageOf (start : BitVec 32) (i : Nat) : BitVec 32 := start + BitVec.ofNat 32 (pageSize * i)

/-- The memory after the first pages have been entered. -/
def afterPages : Nat → Memory
  | 0 => memory
  | i + 1 => afterTurn config kmalloc root gfpFlags (afterPages i) (firstIndex (pageOf virt i))
      (secondIndex (pageOf virt i)) (_vmsav7BuildSmallpage (pageOf phy i) mmuFlags)

/-- The table for a page of the range, when the pages before it have been
entered. -/
def tableFor (i : Nat) : Nat × Memory :=
  nextTable kmalloc root gfpFlags
    (afterPages config kmalloc root mmuFlags gfpFlags virt phy memory i)
    (firstIndex (pageOf virt i))

/-- In each memory in which a call asks `kmalloc` for a table it does what it is
relied on for: that is for a page whose megabyte has none, when all pages
before it have been entered. -/
def Delivers (size : BitVec 32) : Prop :=
  ∀ i, i < pageCount size →
    (∀ before, before < i →
      (tableFor config kmalloc root mmuFlags gfpFlags virt phy memory before).1 ≠ 0) →
    Lacks (afterPages config kmalloc root mmuFlags gfpFlags virt phy memory i) root
      (firstIndex (pageOf virt i)) →
    Supplied kmalloc root gfpFlags
      (afterPages config kmalloc root mmuFlags gfpFlags virt phy memory i)

/-- `kmalloc` refuses a table for this page, and for no page before it. -/
def RefusedAt (i : Nat) : Prop :=
  (tableFor config kmalloc root mmuFlags gfpFlags virt phy memory i).1 = 0 ∧
    ∀ before, before < i →
      (tableFor config kmalloc root mmuFlags gfpFlags virt phy memory before).1 ≠ 0

end Turns

variable {config : VmConfig} {kmalloc : Kmalloc} {root : Nat}
  {mmuFlags gfpFlags virt phy : BitVec 32}
variable {memory : Memory}

/-! ## The loop -/

theorem pageOf_zero (start : BitVec 32) : pageOf start 0 = start := BitVec.add_zero start

theorem pageOf_succ (start : BitVec 32) (i : Nat) :
    pageOf start i + BitVec.ofNat 32 pageSize = pageOf start (i + 1) := by
  rw [pageOf, pageOf, BitVec.add_assoc, ← BitVec.ofNat_add, Nat.mul_succ]

theorem lt_pageCount_iff (size : BitVec 32) (i : Nat) :
    i < pageCount size ↔ pageSize * i < size.toNat := by
  rw [pageCount, pageSize]
  omega

/-- What is left of the size after some pages that are not the last. -/
theorem toNat_left {size : BitVec 32} {i : Nat} (inRange : i < pageCount size) :
    (size - BitVec.ofNat 32 (pageSize * i)).toNat = size.toNat - pageSize * i := by
  have below := (lt_pageCount_iff size i).mp inRange
  have value : (BitVec.ofNat 32 (pageSize * i)).toNat = pageSize * i :=
    Nat.mod_eq_of_lt (Nat.lt_trans below size.isLt)
  rw [BitVec.toNat_sub_of_le (by rw [BitVec.le_def, value]; exact Nat.le_of_lt below), value]

theorem left_ne_zero {size : BitVec 32} {i : Nat} (inRange : i < pageCount size) :
    size - BitVec.ofNat 32 (pageSize * i) ≠ 0#32 := by
  have left := toNat_left inRange
  have below := (lt_pageCount_iff size i).mp inRange
  intro none
  rw [none] at left
  change 0 = _ at left
  omega

/-- One turn: an error, the end, or the next page. -/
theorem vmMapLoop_turn {size : BitVec 32} (some_ : size ≠ 0#32) :
    vmMapLoop config kmalloc root mmuFlags gfpFlags virt phy size memory =
      if (nextTable kmalloc root gfpFlags memory (firstIndex virt)).1 = 0 then
        (-1, (nextTable kmalloc root gfpFlags memory (firstIndex virt)).2)
      else if pageSize < size.toNat then
        vmMapLoop config kmalloc root mmuFlags gfpFlags (virt + BitVec.ofNat 32 pageSize)
          (phy + BitVec.ofNat 32 pageSize) (size - BitVec.ofNat 32 pageSize)
          (afterTurn config kmalloc root gfpFlags memory (firstIndex virt) (secondIndex virt)
            (_vmsav7BuildSmallpage phy mmuFlags))
      else (0, afterTurn config kmalloc root gfpFlags memory (firstIndex virt) (secondIndex virt)
        (_vmsav7BuildSmallpage phy mmuFlags)) := by
  rw [vmMapLoop, if_neg some_]
  rfl

/-- The loop, when it has come to a page of the range. -/
theorem vmMapLoop_reaches {size : BitVec 32} (i : Nat) (inRange : i < pageCount size)
    (obtained : ∀ before, before < i →
      (tableFor config kmalloc root mmuFlags gfpFlags virt phy memory before).1 ≠ 0) :
    vmMapLoop config kmalloc root mmuFlags gfpFlags virt phy size memory =
      vmMapLoop config kmalloc root mmuFlags gfpFlags (pageOf virt i) (pageOf phy i)
        (size - BitVec.ofNat 32 (pageSize * i))
        (afterPages config kmalloc root mmuFlags gfpFlags virt phy memory i) := by
  induction i with
  | zero =>
      rw [pageOf_zero, pageOf_zero, Nat.mul_zero]
      change _ = vmMapLoop config kmalloc root mmuFlags gfpFlags virt phy (size - 0#32) memory
      rw [BitVec.sub_zero]
  | succ i inductionHypothesis =>
      have before : i < pageCount size := Nat.lt_of_succ_lt inRange
      have left := toNat_left before
      have more := (lt_pageCount_iff size (i + 1)).mp inRange
      rw [Nat.mul_succ] at more
      have long : pageSize < (size - BitVec.ofNat 32 (pageSize * i)).toNat := by
        rw [left]
        omega
      have shorter : size - BitVec.ofNat 32 (pageSize * i) - BitVec.ofNat 32 pageSize =
          size - BitVec.ofNat 32 (pageSize * (i + 1)) := by
        rw [BitVec.sub_sub, ← BitVec.ofNat_add, Nat.mul_succ]
      have table := obtained i (Nat.lt_succ_self i)
      rw [tableFor] at table
      rw [inductionHypothesis before
        (fun earlier isEarlier => obtained earlier (Nat.lt_succ_of_lt isEarlier)),
        vmMapLoop_turn (left_ne_zero before), if_neg table, if_pos long, pageOf_succ,
        pageOf_succ, shorter]
      rfl

/-- The loop fails at the first page for which a table is refused. -/
theorem vmMapLoop_refused {size : BitVec 32} {i : Nat} (inRange : i < pageCount size)
    (refused : RefusedAt config kmalloc root mmuFlags gfpFlags virt phy memory i) :
    vmMapLoop config kmalloc root mmuFlags gfpFlags virt phy size memory =
      (-1, (tableFor config kmalloc root mmuFlags gfpFlags virt phy memory i).2) := by
  have table := refused.1
  rw [tableFor] at table
  rw [vmMapLoop_reaches i inRange refused.2, vmMapLoop_turn (left_ne_zero inRange), if_pos table]
  rfl

/-- The loop succeeds if no table is refused. -/
theorem vmMapLoop_succeeds {size : BitVec 32}
    (obtained : ∀ i, i < pageCount size →
      (tableFor config kmalloc root mmuFlags gfpFlags virt phy memory i).1 ≠ 0) :
    vmMapLoop config kmalloc root mmuFlags gfpFlags virt phy size memory =
      (0, afterPages config kmalloc root mmuFlags gfpFlags virt phy memory (pageCount size)) := by
  cases counted : pageCount size with
  | zero =>
      have none : size = 0#32 := by
        apply BitVec.eq_of_toNat_eq
        change size.toNat = 0
        rw [pageCount, pageSize] at counted
        omega
      rw [vmMapLoop, if_pos none]
      rfl
  | succ last =>
      have inRange : last < pageCount size := by omega
      have table := obtained last inRange
      rw [tableFor] at table
      have short : ¬ pageSize < (size - BitVec.ofNat 32 (pageSize * last)).toNat := by
        have notMore := mt (lt_pageCount_iff size (last + 1)).mpr (by omega)
        rw [Nat.mul_succ] at notMore
        rw [toNat_left inRange]
        omega
      rw [vmMapLoop_reaches last inRange (fun before isBefore => obtained before (by omega)),
        vmMapLoop_turn (left_ne_zero inRange), if_neg table, if_neg short]
      rfl

theorem refused_or_obtained (config : VmConfig) (kmalloc : Kmalloc) (root : Nat)
    (mmuFlags gfpFlags virt phy : BitVec 32) (memory : Memory) (count : Nat) :
    (∃ i, i < count ∧ RefusedAt config kmalloc root mmuFlags gfpFlags virt phy memory i) ∨
      ∀ i, i < count →
        (tableFor config kmalloc root mmuFlags gfpFlags virt phy memory i).1 ≠ 0 := by
  induction count with
  | zero => exact Or.inr fun i below => absurd below (Nat.not_lt_zero i)
  | succ count inductionHypothesis =>
      rcases inductionHypothesis with ⟨i, below, refused⟩ | obtained
      · exact Or.inl ⟨i, Nat.lt_succ_of_lt below, refused⟩
      · by_cases here : (tableFor config kmalloc root mmuFlags gfpFlags virt phy memory count).1 = 0
        · exact Or.inl ⟨count, Nat.lt_succ_self count, here, obtained⟩
        · refine Or.inr fun i below => ?_
          rcases Nat.lt_or_eq_of_le (Nat.le_of_lt_succ below) with before | rfl
          · exact obtained i before
          · exact here

/-! ## The walks -/

theorem page_ne {start : BitVec 32} {i k : Nat} (before : i < k) (inSpace : k < 2 ^ 20) :
    (pageOf start i).toNat / pageSize ≠ (pageOf start k).toNat / pageSize := by
  rw [pageOf, pageOf, BitVec.toNat_add, BitVec.toNat_add, BitVec.toNat_ofNat, BitVec.toNat_ofNat,
    pageSize]
  have isWord := start.isLt
  omega

theorem walk_congr {memory memory' : Memory} (ttbr0 : BitVec 32)
    (wellFormed : WellFormed memory (tableRoot ttbr0))
    (wellFormed' : WellFormed memory' (tableRoot ttbr0))
    (same : ∀ i j, i < 4096 → j < 256 → translation (lookup tables memory' (tableRoot ttbr0) i j) =
      translation (lookup tables memory (tableRoot ttbr0) i j)) (virt : BitVec 32) :
    walk memory' ttbr0 virt = walk memory ttbr0 virt := by
  rw [walk_eq wellFormed', walk_eq wellFormed]
  exact same _ _ (firstIndex_lt virt) (secondIndex_lt virt)

theorem walk_of_page {memory : Memory} {ttbr0 : BitVec 32}
    (wellFormed : WellFormed memory (tableRoot ttbr0)) {virt other : BitVec 32}
    (samePage : other.toNat / pageSize = virt.toNat / pageSize) :
    walk memory ttbr0 other = walk memory ttbr0 virt := by
  rw [← firstIndex_secondIndex, ← firstIndex_secondIndex] at samePage
  have second := secondIndex_lt other
  have second' := secondIndex_lt virt
  have sameFirst : firstIndex other = firstIndex virt := by omega
  have sameSecond : secondIndex other = secondIndex virt := by omega
  rw [walk_eq wellFormed, walk_eq wellFormed, sameFirst, sameSecond]

/-- Pages that have been entered: each has its descriptor, and the walk of
every address in another page is what it was. -/
structure Entered (memory memory' : Memory) (ttbr0 mmuFlags virt phy : BitVec 32)
    (count : Nat) : Prop where
  inOrder : TablesInOrder memory' (tableRoot ttbr0)
  entered : ∀ i, i < count → walk memory' ttbr0 (pageOf virt i) =
    .smallPage (_vmsav7BuildSmallpage (pageOf phy i) mmuFlags)
  kept : ∀ other : BitVec 32,
    (∀ i, i < count → other.toNat / pageSize ≠ (pageOf virt i).toNat / pageSize) →
    walk memory' ttbr0 other = walk memory ttbr0 other

theorem Entered.succ (sameBase : config.virtualMemoryBaseAddress = config.physicalMemoryBaseAddress)
    {ttbr0 : BitVec 32} {count : Nat} {memory' : Memory}
    (supplied : Lacks memory' (tableRoot ttbr0) (firstIndex (pageOf virt count)) →
      Supplied kmalloc (tableRoot ttbr0) gfpFlags memory')
    (entered : Entered memory memory' ttbr0 mmuFlags virt phy count) (inSpace : count < 2 ^ 20)
    (obtained : (nextTable kmalloc (tableRoot ttbr0) gfpFlags memory'
      (firstIndex (pageOf virt count))).1 ≠ 0) :
    Entered memory (afterTurn config kmalloc (tableRoot ttbr0) gfpFlags memory'
        (firstIndex (pageOf virt count)) (secondIndex (pageOf virt count))
        (_vmsav7BuildSmallpage (pageOf phy count) mmuFlags))
      ttbr0 mmuFlags virt phy (count + 1) := by
  rcases map_page sameBase supplied entered.inOrder (firstIndex_lt (pageOf virt count))
    (secondIndex_lt (pageOf virt count)) (mapAttributes mmuFlags)
      (pageOf phy count) obtained rfl with
    ⟨inOrder, translations⟩
  change TablesInOrder (afterTurn config kmalloc (tableRoot ttbr0) gfpFlags memory'
    (firstIndex (pageOf virt count)) (secondIndex (pageOf virt count))
    (_vmsav7BuildSmallpage (pageOf phy count) mmuFlags)) _ at inOrder
  have here : ∀ other : BitVec 32, (firstIndex other = firstIndex (pageOf virt count) ∧
        secondIndex other = secondIndex (pageOf virt count)) ↔
      other.toNat / pageSize = (pageOf virt count).toNat / pageSize := by
    intro other
    rw [← firstIndex_secondIndex, ← firstIndex_secondIndex]
    have second := secondIndex_lt other
    have second' := secondIndex_lt (pageOf virt count)
    omega
  have walked : ∀ other : BitVec 32,
        walk (afterTurn config kmalloc (tableRoot ttbr0) gfpFlags memory'
        (firstIndex (pageOf virt count)) (secondIndex (pageOf virt count))
        (_vmsav7BuildSmallpage (pageOf phy count) mmuFlags)) ttbr0 other =
      if other.toNat / pageSize = (pageOf virt count).toNat / pageSize then
        .smallPage (_vmsav7BuildSmallpage (pageOf phy count) mmuFlags)
      else walk memory' ttbr0 other := by
    intro other
    rw [walk_eq inOrder.wellFormed, walk_eq entered.inOrder.wellFormed,
      ← if_congr (here other) rfl rfl]
    exact translations _ _ (firstIndex_lt other) (secondIndex_lt other)
  refine ⟨inOrder, fun i below => ?_, fun other elsewhere => ?_⟩
  · rcases Nat.lt_or_eq_of_le (Nat.le_of_lt_succ below) with before | rfl
    · rw [walked, if_neg (page_ne before inSpace), entered.entered i before]
    · rw [walked, if_pos rfl]
  · rw [walked, if_neg (elsewhere count (Nat.lt_succ_self count)),
      entered.kept other fun i before => elsewhere i (Nat.lt_succ_of_lt before)]

theorem pageCount_le (size : BitVec 32) : pageCount size ≤ 2 ^ 20 := by
  have isWord := size.isLt
  rw [pageCount, pageSize]
  omega

/-- The pages in front of the first refusal are entered. -/
theorem entered_afterPages
    (sameBase : config.virtualMemoryBaseAddress = config.physicalMemoryBaseAddress)
    {ttbr0 size : BitVec 32}
    (delivers : Delivers config kmalloc (tableRoot ttbr0) mmuFlags gfpFlags virt phy memory size)
    (inOrder : TablesInOrder memory (tableRoot ttbr0)) (count : Nat)
    (inRange : count ≤ pageCount size)
    (obtained : ∀ i, i < count →
      (tableFor config kmalloc (tableRoot ttbr0) mmuFlags gfpFlags virt phy memory i).1 ≠ 0) :
    Entered memory
      (afterPages config kmalloc (tableRoot ttbr0) mmuFlags gfpFlags virt phy memory count)
      ttbr0 mmuFlags virt phy count := by
  induction count with
  | zero => exact ⟨inOrder, fun i below => absurd below (Nat.not_lt_zero i), fun _ _ => rfl⟩
  | succ count inductionHypothesis =>
      have earlier := fun i below => obtained i (Nat.lt_succ_of_lt below)
      have entered := inductionHypothesis (Nat.le_of_succ_le inRange) earlier
      exact entered.succ sameBase (delivers count inRange earlier)
        (Nat.lt_of_lt_of_le inRange (pageCount_le size)) (obtained count (Nat.lt_succ_self count))

/-! ## The call -/

theorem smallpageBaseaddr_pageBase (page : Nat) :
    smallpageBaseaddr (pageBase page) = pageBase page := by
  apply BitVec.eq_of_toNat_eq
  have mask : smallpageBaseaddr (pageBase page) =
      pageBase page &&& ~~~(BitVec.ofNat 32 (2 ^ 12) - 1#32) := rfl
  rw [mask, Machine.toNat_and_not_mask (by decide)]
  apply Nat.div_mul_cancel
  rw [pageBase, BitVec.toNat_ofNat, Nat.dvd_mod_iff (by decide)]
  exact Nat.dvd_mul_right _ _

theorem pageBase_add (page i : Nat) :
    pageBase page + BitVec.ofNat 32 (pageSize * i) = pageBase (page + i) := by
  rw [pageBase, pageBase, ← BitVec.ofNat_add, Nat.mul_add]

/-- With the tables in the RAM, `vm_map` is its loop. -/
theorem vmMap_eq_loop {ttbr0 : BitVec 32}
    (inRam : config.physicalMemoryBaseAddress.toNat ≤ ttbr0.toNat ∧
      ttbr0.toNat < config.physicalMemoryBaseAddress.toNat + config.physicalMemoryLength.toNat)
    (virt phy size mmuFlags gfpFlags : BitVec 32) (memory : Memory) :
    vmMap config kmalloc ttbr0 virt phy size mmuFlags gfpFlags memory =
      vmMapLoop config kmalloc (tableRoot ttbr0) mmuFlags gfpFlags virt phy size memory := by
  have ramEnd : (config.physicalMemoryBaseAddress + config.physicalMemoryLength).toNat =
      config.physicalMemoryBaseAddress.toNat + config.physicalMemoryLength.toNat := by
    rw [BitVec.toNat_add]
    exact Nat.mod_eq_of_lt config.end_lt
  unfold vmMap
  dsimp only
  rw [if_neg (by rw [BitVec.lt_def, BitVec.le_def, ramEnd]; omega)]
  rfl

theorem vmMap_mapped (sameBase : config.virtualMemoryBaseAddress = config.physicalMemoryBaseAddress)
    {ttbr0 size : BitVec 32} {memory' : Memory}
    (delivers : Delivers config kmalloc (tableRoot ttbr0) mmuFlags gfpFlags virt phy memory size)
    (inRam : config.physicalMemoryBaseAddress.toNat ≤ ttbr0.toNat ∧
      ttbr0.toNat < config.physicalMemoryBaseAddress.toNat + config.physicalMemoryLength.toNat)
    (inOrder : TablesInOrder memory (tableRoot ttbr0)) (phyAligned : pageSize ∣ phy.toNat)
    (returned : vmMap config kmalloc ttbr0 virt phy size mmuFlags gfpFlags memory = (0, memory')) :
    Mapped memory memory' ttbr0 virt phy size mmuFlags := by
  rw [vmMap_eq_loop inRam] at returned
  rcases refused_or_obtained config kmalloc (tableRoot ttbr0) mmuFlags gfpFlags virt phy memory
    (pageCount size) with ⟨i, inRange, refused⟩ | obtained
  · rw [vmMapLoop_refused inRange refused] at returned
    have result : (-1 : Int) = 0 := congrArg Prod.fst returned
    exact absurd result (by decide)
  · rw [vmMapLoop_succeeds obtained] at returned
    have entered :=
      entered_afterPages sameBase delivers inOrder (pageCount size) (Nat.le_refl _) obtained
    rw [show afterPages _ _ _ _ _ _ _ _ _ = memory' from congrArg Prod.snd returned] at entered
    refine ⟨fun i inRange => ⟨_, entered.entered i inRange, ?_⟩, entered.kept⟩
    have aligned : smallpageBaseaddr (pageOf phy i) = pageOf phy i := by
      rw [pageOf, eq_pageBase phyAligned, pageBase_add]
      exact smallpageBaseaddr_pageBase _
    exact fields_mapAttributes mmuFlags aligned

/-- `vm_map` and `vm_unmap` change the mapping of the pages of their range,
and of no other page, whenever they return success. -/
theorem vm_map_refines
    (sameBase : config.virtualMemoryBaseAddress = config.physicalMemoryBaseAddress)
    {ttbr0 : BitVec 32} {memory : Memory}
    (inRam : config.physicalMemoryBaseAddress.toNat ≤ ttbr0.toNat ∧
      ttbr0.toNat < config.physicalMemoryBaseAddress.toNat + config.physicalMemoryLength.toNat)
    (inOrder : TablesInOrder memory (tableRoot ttbr0)) {virt phy size : BitVec 32}
    (phyAligned : pageSize ∣ phy.toNat) :
    (∀ mmuFlags gfpFlags memory',
      Delivers config kmalloc (tableRoot ttbr0) mmuFlags gfpFlags virt phy memory size →
      vmMap config kmalloc ttbr0 virt phy size mmuFlags gfpFlags memory = (0, memory') →
      Mapped memory memory' ttbr0 virt phy size mmuFlags) ∧
    ∀ memory', Delivers config kmalloc (tableRoot ttbr0) mmuNoaccess 0#32 virt 0#32 memory size →
      vmUnmap config kmalloc ttbr0 virt size memory = (0, memory') →
      Mapped memory memory' ttbr0 virt 0#32 size mmuNoaccess := by
  constructor
  · intro mmuFlags gfpFlags memory' delivers returned
    exact vmMap_mapped sameBase delivers inRam inOrder phyAligned returned
  · intro memory' delivers returned
    exact vmMap_mapped sameBase delivers inRam inOrder (Nat.dvd_zero _) returned

/-- A single page is mapped as soon as its megabyte has a table. -/
theorem vmMap_onePage {ttbr0 virt size gfpFlags : BitVec 32} {memory : Memory}
    (inRam : ¬ (ttbr0 < config.physicalMemoryBaseAddress ∨
      config.physicalMemoryBaseAddress + config.physicalMemoryLength ≤ ttbr0))
    (some_ : size ≠ 0#32) (short : size.toNat ≤ pageSize)
    (obtained : (nextTable kmalloc (tableRoot ttbr0) gfpFlags memory (firstIndex virt)).1 ≠ 0)
    (phy mmuFlags : BitVec 32) :
    ∃ memory', vmMap config kmalloc ttbr0 virt phy size mmuFlags gfpFlags memory =
      (0, memory') := by
  unfold vmMap
  dsimp only
  rw [if_neg inRam, vmMapLoop, if_neg some_]
  exact ⟨_, (if_neg obtained).trans (if_neg (by omega))⟩

def beaglexmVm : VmConfig where
  virtualMemoryBaseAddress := 0x80200000#32
  physicalMemoryBaseAddress := 0x80200000#32
  physicalMemoryLength := 0xFE00000#32
  end_lt := by decide

/-- No table is at `0x80300000`. -/
def BlockUnused (memory : Memory) : Prop :=
  ∀ i, i < 4096 → tables.child (memory (slot tables 0x80200000 i)) ≠ some 0x80300000

instance (memory : Memory) : Decidable (BlockUnused memory) :=
  Nat.decidableBallLT 4096 fun i _ => tables.child (memory (slot tables 0x80200000 i)) ≠
    some 0x80300000

/-- A `kmalloc` with one block at `0x80300000`, which it clears and hands out
until a table is there. -/
def oneBlock : Kmalloc := fun _size _gfpFlags memory =>
  if BlockUnused memory then
    (0x80300000, fun address =>
      if 0x80300000 ≤ address ∧ address < 0x80300000 + 1024 then 0#32 else memory address)
  else (0, memory)

theorem BlockUnused.fresh {memory : Memory} (unused : BlockUnused memory) :
    Fresh tables memory 0x80200000 0x80300000 where
  offRoot := Or.inr (by decide)
  offLeaves := by
    intro i other rootIndex leads
    have aligned := aligned_of_child leads
    have different : other ≠ 0x80300000 := by
      rintro rfl
      exact unused i rootIndex leads
    change 0x80300000 + 1024 ≤ other ∨ other + 1024 ≤ 0x80300000
    omega

theorem oneBlock_cases (size : Nat) (gfpFlags : BitVec 32) (memory : Memory) :
    (BlockUnused memory ∧ oneBlock size gfpFlags memory = (0x80300000, fun address =>
      if 0x80300000 ≤ address ∧ address < 0x80300000 + 1024 then 0#32 else memory address)) ∨
    oneBlock size gfpFlags memory = (0, memory) := by
  by_cases unused : BlockUnused memory
  · exact Or.inl ⟨unused, if_pos unused⟩
  · exact Or.inr (if_neg unused)

theorem supplied_oneBlock (gfpFlags : BitVec 32) (memory : Memory) :
    Supplied oneBlock 0x80200000 gfpFlags memory := by
  rcases oneBlock_cases 1024 (gfpFlags ||| gfpZero) memory with ⟨unused, granted⟩ | refused
  · constructor <;> rw [granted]
    · constructor
      · intro i rootIndex
        have outside := slot_bounds tables 0x80200000 rootIndex
        change 0x80200000 ≤ _ ∧ _ + 4 ≤ 0x80200000 + 4 * 4096 at outside
        exact if_neg (by omega)
      · intro i other rootIndex leads j leafIndex
        have apart := unused.fresh.offLeaves i other rootIndex leads
        have outside := slot_bounds tables other leafIndex
        change 0x80300000 + 1024 ≤ other ∨ other + 1024 ≤ 0x80300000 at apart
        change other ≤ _ ∧ _ + 4 ≤ other + 4 * 256 at outside
        exact if_neg (by omega)
    · exact ⟨0x200c00, rfl⟩
    · omega
    · exact fun _obtained => unused.fresh
    · intro _obtained j leafIndex
      have inside := slot_bounds tables 0x80300000 leafIndex
      change 0x80300000 ≤ _ ∧ _ + 4 ≤ 0x80300000 + 4 * 256 at inside
      change (if 0x80300000 ≤ slot tables 0x80300000 j ∧
        slot tables 0x80300000 j < 0x80300000 + 1024
        then 0#32 else _) = 0#32
      rw [if_pos (by omega)]
  · constructor <;> rw [refused]
    · exact SameTables.refl _ _
    · exact Nat.dvd_zero _
    · omega
    · exact fun obtained => absurd rfl obtained
    · exact fun obtained => absurd rfl obtained

theorem delivers_oneBlock {mmuFlags gfpFlags virt phy size : BitVec 32} {memory : Memory} :
    Delivers beaglexmVm oneBlock (tableRoot 0x80200000#32) mmuFlags gfpFlags virt phy memory size :=
  fun _page _inRange _obtained _lacks => supplied_oneBlock gfpFlags _

theorem child_zero : tables.child 0#32 = none := by
  change child 0#32 = none
  unfold child
  rw [if_neg (by decide)]

theorem tablesInOrder_zero (root : Nat) : TablesInOrder (fun _address => 0#32) root where
  wellFormed :=
    { entries := fun _ _ => Or.inl rfl
      separated :=
        { rootApart := by
            intro i leaf _rootIndex leads
            cases child_zero.symm.trans leads
          leavesApart := by
            intro i i' leaf leaf' _rootIndex _rootIndex' _different leads
            cases child_zero.symm.trans leads } }
  notNull := by
    intro i leaf _rootIndex leads
    cases child_zero.symm.trans leads

/-- The beagleboard maps a page of device memory, and another of no access,
in a megabyte that has no table. -/
theorem vm_map_refines_beaglexm :
    (∃ memory', vmMap beaglexmVm oneBlock 0x80200000#32 0x49020000#32 0x49020000#32 0x1000#32
      mmuDevice 0#32
        (fun _address => 0#32) = (0, memory') ∧
      Mapped (fun _address => 0#32) memory' 0x80200000#32 0x49020000#32 0x49020000#32 0x1000#32
        mmuDevice) ∧
    ∃ memory', vmUnmap beaglexmVm oneBlock 0x80200000#32 0x49020000#32 0x1000#32
      (fun _address => 0#32) =
        (0, memory') ∧
      Mapped (fun _address => 0#32) memory' 0x80200000#32 0x49020000#32 0#32 0x1000#32
        mmuNoaccess := by
  have unused : BlockUnused (fun _address => 0#32) := by
    intro i _rootIndex leads
    cases child_zero.symm.trans leads
  have obtained : (nextTable oneBlock (tableRoot 0x80200000#32) 0#32 (fun _address => 0#32)
      (firstIndex 0x49020000#32)).1 ≠ 0 := by
    have granted : (oneBlock 1024 (0#32 ||| gfpZero) (fun _address => 0#32)).1 = 0x80300000 :=
      congrArg Prod.fst (if_pos unused)
    rw [nextTable, if_pos (by decide), granted]
    decide
  have inRam : ¬ (0x80200000#32 < beaglexmVm.physicalMemoryBaseAddress ∨
      beaglexmVm.physicalMemoryBaseAddress + beaglexmVm.physicalMemoryLength ≤ 0x80200000#32) := by
        decide
  have onePage := vmMap_onePage inRam (show (0x1000#32 : BitVec 32) ≠ 0#32 by decide)
    (show (0x1000#32).toNat ≤ pageSize by decide) obtained
  have sameBase : beaglexmVm.virtualMemoryBaseAddress = beaglexmVm.physicalMemoryBaseAddress := rfl
  rcases vm_map_refines sameBase (show _ ≤ (0x80200000#32).toNat ∧ _ by decide)
    (tablesInOrder_zero _)
    (show pageSize ∣ (0x49020000#32).toNat by decide) with ⟨maps, unmaps⟩
  rcases onePage 0x49020000#32 mmuDevice with ⟨mapped, mapsPage⟩
  rcases onePage 0#32 mmuNoaccess with ⟨unmapped, unmapsPage⟩
  exact ⟨⟨mapped, mapsPage, maps mmuDevice 0#32 mapped delivers_oneBlock mapsPage⟩,
    ⟨unmapped, unmapsPage, unmaps unmapped delivers_oneBlock unmapsPage⟩⟩

end VMSAv7
end ShovelOS
