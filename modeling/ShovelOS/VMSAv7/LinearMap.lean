import ShovelOS.VMSAv7.InitPageTables

namespace ShovelOS
namespace VMSAv7

open TwoLevelTable

/-!
# The first page tables are a linear map

The loop over the first level gives each megabyte of the range an empty
table.  The tables are numbered in the order in which they are cut out of the
boot pages, which fixes where they are, and tables of different numbers do
not overlap.  The loop over the pages then fills in one page after the other.
-/

variable (source : BootSource)

/-- What the boot pages are: below the end of the address space, apart from
each other, and aligned, the first block to the 16 KiB that are asked for. -/
structure BootSource.Delivers : Prop where
  rootAligned : 4 * pageSize ∣ source.root
  rootEnd : source.root + 4 * pageSize ≤ 2 ^ 32
  pageAligned : ∀ k, pageSize ∣ source.page k
  pageEnd : ∀ k, source.page k + pageSize ≤ 2 ^ 32
  rootApart : ∀ k, source.page k ≠ 0 → Apart (source.page k) pageSize source.root (4 * pageSize)
  pagesApart : ∀ k k', k ≠ k' → source.page k ≠ 0 → source.page k' ≠ 0 →
    Apart (source.page k) pageSize (source.page k') pageSize

/-- Where the table of a number is. -/
def tableAt (number : Nat) : Nat := source.page (number / 4) + 1024 * (number % 4)

theorem tableAt_end (number : Nat) :
    source.page (number / 4) ≤ tableAt source number ∧
      tableAt source number + 1024 ≤ source.page (number / 4) + pageSize := by
  have below := Nat.mod_lt number (by decide : 4 > 0)
  unfold tableAt pageSize
  omega

variable {source}

theorem tableAt_aligned (delivers : source.Delivers) (number : Nat) :
    1024 ∣ tableAt source number :=
  Nat.dvd_add (Nat.dvd_trans (by decide) (delivers.pageAligned _)) (Nat.dvd_mul_right _ _)

theorem toNat_tableAt (delivers : source.Delivers) (number : Nat) :
    (BitVec.ofNat 32 (tableAt source number)).toNat = tableAt source number := by
  have last := (tableAt_end source number).2
  have pageEnd := delivers.pageEnd (number / 4)
  rw [BitVec.toNat_ofNat]
  exact Nat.mod_eq_of_lt (by omega)

theorem tableAt_rootApart (delivers : source.Delivers) {number : Nat}
    (obtained : source.page (number / 4) ≠ 0) :
    Apart (tableAt source number) (tables.width * tables.leafEntries) source.root
      (tables.width * tables.rootEntries) := by
  have apart := delivers.rootApart _ obtained
  have bounds := tableAt_end source number
  change Apart (tableAt source number) 1024 source.root 16384
  unfold Apart pageSize at *
  omega

theorem tableAt_apart (delivers : source.Delivers) {number number' : Nat}
    (different : number ≠ number')
    (obtained : source.page (number / 4) ≠ 0) (obtained' : source.page (number' / 4) ≠ 0) :
    Apart (tableAt source number) (tables.width * tables.leafEntries) (tableAt source number')
      (tables.width * tables.leafEntries) := by
  change Apart (tableAt source number) 1024 (tableAt source number') 1024
  by_cases samePage : number / 4 = number' / 4
  · -- Two tables of one page are a multiple of their size apart.
    unfold Apart tableAt
    rw [samePage]
    omega
  · have apart := delivers.pagesApart _ _ samePage obtained obtained'
    have bounds := tableAt_end source number
    have bounds' := tableAt_end source number'
    unfold Apart at *
    omega

/-! ## Cutting tables out of pages -/

/-- After `count` tables the static variables name the next one in the last
page, and every table of the pages is empty unless it is in use already. -/
structure Carved (source : BootSource) (state : InitState) (count : Nat) : Prop where
  calls : state.calls = (count + 3) / 4
  n : state.n = (4 - count % 4) % 4
  p : count % 4 ≠ 0 → state.p = tableAt source count

/-- The first level has the first `count` tables from the index `first` on,
and all tables that were cut are empty. -/
structure Linked (source : BootSource) (memory : Memory) (first count cut : Nat) : Prop where
  root : ∀ i, i < 4096 → memory (slot tables source.root i) =
    if first ≤ i ∧ i < first + count then
      vmsav7BuildPagetable (BitVec.ofNat 32 (tableAt source (i - first))) pagetableDomain0
        pagetablePrivilegedExecute pagetableSecure
    else 0#32
  empty : ∀ number, number < cut → ∀ j, j < 256 →
    memory (slot tables (tableAt source number) j) = 0#32

theorem clear_of_apart {memory : Memory} {base length address : Nat}
    (outside : address < base ∨ base + length ≤ address) :
    clear memory base length address = memory address :=
  if_neg (by omega)

/-- The tables of a page that has been asked for are empty, and the first
level is apart from it. -/
theorem linked_clear (delivers : source.Delivers) {memory : Memory} {first count : Nat}
    (linked : Linked source memory first count (4 * ((count + 3) / 4))) (exhausted : count % 4 = 0)
    (obtained : source.page (count / 4) ≠ 0) :
    Linked source (clear memory (source.page (count / 4)) pageSize) first count
      (4 * ((count + 4) / 4)) := by
  have page : pageSize = 4096 := rfl
  exact
    { root := by
        intro i inTable
        rw [← linked.root i inTable]
        apply clear_of_apart
        have apart := delivers.rootApart _ obtained
        have bounds := slot_bounds tables source.root inTable
        change _ ∧ _ + 4 ≤ _ + 4 * 4096 at bounds
        unfold Apart at apart
        omega
      empty := by
        intro number isCut j inTable
        by_cases new : number / 4 = count / 4
        · -- The tables of the new page lie in the range that was cleared.
          have bounds := tableAt_end source number
          have slotBounds := slot_bounds tables (tableAt source number) inTable
          change _ ∧ _ + 4 ≤ _ + 4 * 256 at slotBounds
          rw [new] at bounds
          exact if_pos (by omega)
        · have old := linked.empty number (by omega) j inTable
          unfold clear
          rw [old, ite_self] }

/-- The next table is the one of the next number.  A page is asked for at
every fourth one. -/
theorem _getFreeL2_spec (delivers : source.Delivers) {state : InitState} {first count : Nat}
    (carved : Carved source state count)
    (linked : Linked source state.memory first count (4 * ((count + 3) / 4)))
    (obtained : source.page (count / 4) ≠ 0) :
    ∃ state', _getFreeL2 source state = (tableAt source count, state') ∧
      Carved source state' (count + 1) ∧
      Linked source state'.memory first count (4 * ((count + 4) / 4)) ∧
      state'.ttbr0 = state.ttbr0 := by
  by_cases exhausted : count % 4 = 0
  · -- The tables of the last page are used up, so a page is asked for.
    have n : state.n = 0 := by rw [carved.n, exhausted]
    have calls : state.calls = count / 4 := by rw [carved.calls]; omega
    have here : tableAt source count = source.page (count / 4) := by
      rw [tableAt, exhausted, Nat.mul_zero, Nat.add_zero]
    refine ⟨{ state with
        memory := clear state.memory (source.page (count / 4)) pageSize
        p := source.page (count / 4) + 4 * 256
        n := 3
        calls := count / 4 + 1 }, ?_, ?_, ?_, rfl⟩
    · unfold _getFreeL2
      simp only [n, calls, if_true]
      rw [if_pos obtained, here]
      rfl
    · exact
        { calls := by
            change count / 4 + 1 = _
            omega
          n := by
            change 3 = _
            omega
          p := by
            intro _more
            change source.page (count / 4) + 4 * 256 = _
            rw [tableAt, show (count + 1) / 4 = count / 4 by omega]
            omega }
    · exact linked_clear delivers linked exhausted obtained
  · have n : state.n ≠ 0 := by rw [carved.n]; omega
    have cut : 4 * ((count + 4) / 4) = 4 * ((count + 3) / 4) := by omega
    refine ⟨{ state with n := state.n - 1, p := state.p + 4 * 256 }, ?_, ?_, ?_, rfl⟩
    · unfold _getFreeL2
      simp only [if_neg n, ← carved.p exhausted]
      rw [if_pos n]
    · exact
        { calls := by
            change state.calls = _
            rw [carved.calls]
            omega
          n := by
            change state.n - 1 = _
            rw [carved.n]
            omega
          p := by
            intro more
            change state.p + 4 * 256 = _
            rw [carved.p exhausted, tableAt, tableAt, show (count + 1) / 4 = count / 4 by omega]
            omega }
    · rw [cut]
      exact linked

/-! ## The first level -/

/-- The next table is put into the first level. -/
theorem linked_succ (delivers : source.Delivers) {memory : Memory} {first count cut : Nat}
    (linked : Linked source memory first count cut) (inRoot : first + count < 4096)
    (obtained : ∀ number, number < cut → source.page (number / 4) ≠ 0) :
    Linked source (Function.update memory (slot tables source.root (first + count))
      (vmsav7BuildPagetable (BitVec.ofNat 32 (tableAt source count)) pagetableDomain0
        pagetablePrivilegedExecute pagetableSecure)) first (count + 1) cut where
  root := by
    intro i inTable
    rw [root_update_root]
    by_cases here : i = first + count
    · rw [if_pos here, if_pos (by omega), here, Nat.add_sub_cancel_left]
    · rw [if_neg here, linked.root i inTable]
      congr 1
      rw [eq_iff_iff]
      omega
  empty := by
    intro number isCut j inTable
    rw [Function.update_of_ne, linked.empty number isCut j inTable]
    exact slot_ne_of_apart (tableAt_rootApart delivers (obtained number isCut)) inTable inRoot

theorem linkLoop_spec (delivers : source.Delivers) {first : Nat} (left : Nat) {count itor : Nat}
    {state : InitState} (carved : Carved source state count)
    (linked : Linked source state.memory first count (4 * ((count + 3) / 4)))
    (inRoot : first + count + left ≤ 4096)
    (itorEq : itor = slot tables source.root (first + count) % 2 ^ 32)
    (obtained : ∀ k, k < (count + left + 3) / 4 → source.page k ≠ 0) :
    ∃ state', linkLoop source left itor state = some state' ∧
      Linked source state'.memory first (count + left) (4 * ((count + left + 3) / 4)) := by
  induction left generalizing count itor state with
  | zero => exact ⟨state, rfl, linked⟩
  | succ left inductionHypothesis =>
      rcases _getFreeL2_spec delivers carved linked (obtained _ (by omega)) with
        ⟨state', free, carved', linked', _ttbr0⟩
      have inMemory : slot tables source.root (first + count) % 2 ^ 32 =
          slot tables source.root (first + count) := by
        have bounds := slot_bounds tables source.root (show first + count < 4096 by omega)
        have rootEnd := delivers.rootEnd
        change _ ∧ _ + 4 ≤ _ + 4 * 4096 at bounds
        change _ + 4 * 4096 ≤ _ at rootEnd
        exact Nat.mod_eq_of_lt (by omega)
      have notNull : tableAt source count ≠ 0 := by
        have bounds := tableAt_end source count
        have page := obtained (count / 4) (by omega)
        omega
      have linked'' := linked_succ delivers linked' (by omega)
        (fun number isCut => obtained _ (by omega))
      rw [linkLoop, free]
      dsimp only
      rw [if_neg notNull, itorEq, inMemory]
      rw [show count + (left + 1) = count + 1 + left by omega]
      exact inductionHypothesis ⟨carved'.calls, carved'.n, carved'.p⟩ linked'' (by omega)
        (by unfold slot; congr 1) (fun k below => obtained k (by omega))

/-- The tables of the first level do not overlap. -/
theorem wellFormed_of_linked (delivers : source.Delivers) {memory : Memory} {first count cut : Nat}
    (linked : Linked source memory first count cut)
    (obtained : ∀ number, number < count → source.page (number / 4) ≠ 0) :
    WellFormed memory source.root ∧
      ∀ i, i < 4096 → child (memory (slot tables source.root i)) =
        if first ≤ i ∧ i < first + count then some (tableAt source (i - first)) else none := by
  have named : ∀ i, i < 4096 → child (memory (slot tables source.root i)) =
      if first ≤ i ∧ i < first + count then some (tableAt source (i - first)) else none := by
    intro i inTable
    rw [linked.root i inTable]
    by_cases inRange : first ≤ i ∧ i < first + count
    · have aligned : 1024 ∣ (BitVec.ofNat 32 (tableAt source (i - first))).toNat := by
        rw [toNat_tableAt delivers]
        exact tableAt_aligned delivers _
      rw [if_pos inRange, if_pos inRange, child_buildPagetable (and_baseaddr_of_dvd aligned),
        toNat_tableAt delivers]
    · rw [if_neg inRange, if_neg inRange]
      rfl
  -- A table that the first level names has the number of its megabyte.
  have numbered : ∀ i leaf, i < 4096 → child (memory (slot tables source.root i)) = some leaf →
      (first ≤ i ∧ i < first + count) ∧ leaf = tableAt source (i - first) := by
    intro i leaf inTable leads
    rw [named i inTable] at leads
    by_cases inRange : first ≤ i ∧ i < first + count
    · rw [if_pos inRange] at leads
      cases leads
      exact ⟨inRange, rfl⟩
    · rw [if_neg inRange] at leads
      cases leads
  refine ⟨⟨?_, ?_, ?_⟩, named⟩
  · intro i inTable
    by_cases isTable : memory (slot tables source.root i) &&& 3#32 = 1#32
    · exact Or.inr isTable
    · left
      have unnamed : child (memory (slot tables source.root i)) = none := if_neg isTable
      rw [linked.root i inTable, if_neg]
      intro inRange
      rw [named i inTable, if_pos inRange] at unnamed
      cases unnamed
  · intro i leaf inTable leads
    rcases numbered i leaf inTable leads with ⟨inRange, rfl⟩
    exact tableAt_rootApart delivers (obtained _ (by omega))
  · intro i i' leaf leaf' inTable inTable' different leads leads'
    rcases numbered i leaf inTable leads with ⟨inRange, rfl⟩
    rcases numbered i' leaf' inTable' leads' with ⟨inRange', rfl⟩
    exact tableAt_apart delivers (by omega) (obtained _ (by omega)) (obtained _ (by omega))

/-- After the first loop the megabytes of the range have empty tables, and
the others have none. -/
theorem lookup_of_linked (delivers : source.Delivers) {memory : Memory} {first count cut : Nat}
    (linked : Linked source memory first count cut) (enough : count ≤ cut)
    (obtained : ∀ number, number < count → source.page (number / 4) ≠ 0) {i j : Nat}
    (rootIndex : i < 4096) (leafIndex : j < 256) :
    lookup tables memory source.root i j =
      if first ≤ i ∧ i < first + count then some 0#32 else none := by
  have named := (wellFormed_of_linked delivers linked obtained).2 i rootIndex
  change tables.child (memory (slot tables source.root i)) = _ at named
  unfold lookup
  rw [named]
  by_cases inRange : first ≤ i ∧ i < first + count
  · rw [if_pos inRange, if_pos inRange, Option.map_some, linked.empty _ (by omega) j leafIndex]
  · rw [if_neg inRange, if_neg inRange]
    rfl

/-! ## The pages -/

/-- The attributes that `_init_page_tables_l2` gives to the RAM. -/
def ramAttributes : Attributes where
  memType := smallpageMemtypeSharedNormalWriteback
  access := smallpageAccessPrivilegedFull
  isGlobal := smallpageGlobal
  executeNever := smallpageExecute
  memType_within := by decide
  access_within := by decide
  isGlobal_within := smallpageGlobal_within
  executeNever_within := by decide

def pageBase (page : Nat) : BitVec 32 := BitVec.ofNat 32 (pageSize * page)

theorem pageBase_succ (page : Nat) :
    pageBase page + BitVec.ofNat 32 pageSize = pageBase (page + 1) := by
  rw [pageBase, pageBase, ← BitVec.ofNat_add, Nat.mul_succ]

theorem toNat_pageBase {page : Nat} (below : page < 2 ^ 20) :
    (pageBase page).toNat = pageSize * page := by
  rw [pageBase, BitVec.toNat_ofNat, pageSize]
  exact Nat.mod_eq_of_lt (by omega)

theorem indices_pageBase {page : Nat} (below : page < 2 ^ 20) :
    firstIndex (pageBase page) = page / 256 ∧ secondIndex (pageBase page) = page % 256 := by
  rw [firstIndex_eq, secondIndex_eq, toNat_pageBase below, pageSize]
  omega

/-- A range is its first page and the range after it. -/
theorem entry_of_range {Entry : Type} (entry : Nat → Entry) (old : Entry) (frame page count i : Nat)
    {j : Nat} (leafIndex : j < 256) :
    (if page + 1 ≤ 256 * i + j ∧ 256 * i + j < page + 1 + count then
        entry (frame + 1 + (256 * i + j - (page + 1)))
      else if i = page / 256 ∧ j = page % 256 then entry frame else old) =
      if page ≤ 256 * i + j ∧ 256 * i + j < page + (count + 1) then
        entry (frame + (256 * i + j - page))
      else old := by
  by_cases here : 256 * i + j = page
  · rw [if_neg (by omega), if_pos (by omega), if_pos (by omega), here, Nat.sub_self, Nat.add_zero]
  · have other : ¬ (i = page / 256 ∧ j = page % 256) := by omega
    rw [if_neg other]
    by_cases later : page + 1 ≤ 256 * i + j ∧ 256 * i + j < page + 1 + count
    · rw [if_pos later, if_pos (by omega),
        show frame + 1 + (256 * i + j - (page + 1)) = frame + (256 * i + j - page) by omega]
    · rw [if_neg later, if_neg (by omega)]

/-- The second loop fills in the pages of the range and leaves all others. -/
theorem _initPageTablesL2_spec {root : Nat} (left : Nat) {memory : Memory} (frame : Nat)
    {page : Nat}
    (wellFormed : WellFormed memory root) (small : left < 2 ^ 20) (inSpace : page + left ≤ 2 ^ 20)
    (present : ∀ other, page ≤ other → other < page + left →
      (child (memory (slot tables root (other / 256)))).isSome) :
    ∃ memory', _initPageTablesL2 root memory (pageBase frame) (pageBase page)
        (BitVec.ofNat 32 (pageSize * left)) = some memory' ∧
      WellFormed memory' root ∧
      ∀ i j, i < 4096 → j < 256 → lookup tables memory' root i j =
        if page ≤ 256 * i + j ∧ 256 * i + j < page + left then
          some (ramAttributes.smallpage (pageBase (frame + (256 * i + j - page))))
        else lookup tables memory root i j := by
  induction left generalizing memory frame page with
  | zero =>
      have none : BitVec.ofNat 32 (pageSize * 0) = 0#32 := rfl
      refine ⟨memory, ?_, wellFormed, ?_⟩
      · rw [_initPageTablesL2, if_pos none]
      · intro i j _rootIndex _leafIndex
        rw [if_neg (by omega)]
  | succ left inductionHypothesis =>
      have below : page < 2 ^ 20 := by omega
      have rootIndex : page / 256 < 4096 := by omega
      have leafIndex : page % 256 < 256 := Nat.mod_lt _ (by decide)
      rcases Option.isSome_iff_exists.mp (present page (Nat.le_refl _) (by omega)) with
        ⟨leaf, leads⟩
      have leafEq : (memory (slot tables root (page / 256)) &&& 0xfffffc00#32).toNat = leaf := by
        unfold child at leads
        split at leads
        · exact Option.some.inj leads
        · cases leads
      have length : (BitVec.ofNat 32 (pageSize * (left + 1))).toNat = pageSize * (left + 1) := by
        rw [BitVec.toNat_ofNat, pageSize]
        exact Nat.mod_eq_of_lt (by omega)
      have some_ : BitVec.ofNat 32 (pageSize * (left + 1)) ≠ 0#32 := by
        intro zero
        rw [zero, pageSize] at length
        change 0 = _ at length
        omega
      have rest : BitVec.ofNat 32 (pageSize * (left + 1)) - BitVec.ofNat 32 pageSize =
          BitVec.ofNat 32 (pageSize * left) := by
        rw [Nat.mul_succ, BitVec.ofNat_add, BitVec.add_sub_cancel]
      rcases indices_pageBase below with ⟨first, second⟩
      -- The word of the first page is written.
      have wellFormed' : WellFormed (Function.update memory (slot tables leaf (page % 256))
          (ramAttributes.smallpage (pageBase frame))) root :=
        wellFormed.update_leaf rootIndex leafIndex leads _
      have rootSame :=
        fun i (inTable : i < 4096) => root_update_leaf wellFormed.separated rootIndex leafIndex
        leads (ramAttributes.smallpage (pageBase frame)) inTable
      have present' : ∀ other, page + 1 ≤ other → other < page + 1 + left →
          (child (Function.update memory (slot tables leaf (page % 256))
            (ramAttributes.smallpage (pageBase frame))
              (slot tables root (other / 256)))).isSome := by
        intro other after before
        rw [rootSame _ (by omega)]
        exact present other (by omega) (by omega)
      rcases inductionHypothesis (frame + 1) wellFormed' (by omega) (by omega) present' with
        ⟨memory', filled, wellFormed'', lookups⟩
      refine ⟨memory', ?_, wellFormed'', ?_⟩
      · rw [_initPageTablesL2, if_neg some_, if_neg (by rw [length, pageSize]; omega)]
        dsimp only
        rw [first, second, rest, pageBase_succ, pageBase_succ]
        change _initPageTablesL2 root (Function.update memory
          ((memory (slot tables root (page / 256)) &&& 0xfffffc00#32).toNat + 4 * (page % 256)) _)
            _ _ _ = _
        rw [leafEq]
        exact filled
      · intro i j inRoot inLeaf
        rw [lookups i j inRoot inLeaf,
          lookup_update_leaf wellFormed.separated rootIndex leafIndex leads _
          inRoot inLeaf]
        exact entry_of_range (fun frame => some (ramAttributes.smallpage (pageBase frame)))
          _ frame page left i
          inLeaf

/-! ## The whole map -/

/-- The number of megabytes that a range touches. -/
def megabytes (virtMemBase phyMemLength : BitVec 32) : Nat :=
  (virtMemBase.toNat + phyMemLength.toNat - 1) / 2 ^ 20 - virtMemBase.toNat / 2 ^ 20 + 1

/-- The number of single boot pages that `init_page_tables` asks for. -/
def requests (virtMemBase phyMemLength : BitVec 32) : Nat :=
  (megabytes virtMemBase phyMemLength + 3) / 4

theorem eq_pageBase {address : BitVec 32} (aligned : pageSize ∣ address.toNat) :
    address = pageBase (address.toNat / pageSize) := by
  rw [pageBase, Nat.mul_div_cancel' aligned, BitVec.ofNat_toNat, BitVec.setWidth_eq]

theorem tableRoot_of_delivers (delivers : source.Delivers) :
    tableRoot (BitVec.ofNat 32 source.root) = source.root := by
  have rootEnd := delivers.rootEnd
  have value : (BitVec.ofNat 32 source.root).toNat = source.root := by
    rw [BitVec.toNat_ofNat]
    exact Nat.mod_eq_of_lt (by rw [pageSize] at rootEnd; omega)
  have mask : tableRoot (BitVec.ofNat 32 source.root) =
      (BitVec.ofNat 32 source.root &&& ~~~(BitVec.ofNat 32 (2 ^ 14) - 1#32)).toNat := rfl
  rw [mask, Machine.toNat_and_not_mask (by decide), value]
  exact Nat.div_mul_cancel delivers.rootAligned

/-- Before the first loop the first level is cleared. -/
theorem linked_startup (source : BootSource) (memory : Memory) (first : Nat) :
    Linked source (clear memory source.root (4 * pageSize)) first 0 (4 * ((0 + 3) / 4)) where
  root := by
    intro i inTable
    have bounds := slot_bounds tables source.root inTable
    change _ ∧ _ + 4 ≤ _ + 4 * 4096 at bounds
    rw [if_neg (by omega)]
    exact if_pos (by rw [pageSize]; omega)
  empty := by
    intro number isCut
    omega

/-- The first loop takes a turn for each megabyte. -/
theorem turns_eq {virtMemBase phyMemLength : BitVec 32} (positive : 0 < phyMemLength.toNat)
    (virtFits : virtMemBase.toNat + phyMemLength.toNat ≤ 2 ^ 32) {root : Nat}
    (rootEnd : root + 4 * pageSize ≤ 2 ^ 32) :
    turns (root + 4 * firstIndex virtMemBase)
        (root + 4 * firstIndex (virtMemBase + phyMemLength - 1#32) + 4) =
      megabytes virtMemBase phyMemLength := by
  have last : (virtMemBase + phyMemLength - 1#32).toNat =
      virtMemBase.toNat + phyMemLength.toNat - 1 := by
    rw [BitVec.toNat_sub, BitVec.toNat_add]
    change (2 ^ 32 - 1 + (virtMemBase.toNat + phyMemLength.toNat) % 2 ^ 32) % 2 ^ 32 = _
    omega
  change root + 4 * 4096 ≤ _ at rootEnd
  rw [turns, firstIndex_eq, firstIndex_eq, last, megabytes]
  omega

theorem megabytes_le {virtMemBase phyMemLength : BitVec 32}
    (virtFits : virtMemBase.toNat + phyMemLength.toNat ≤ 2 ^ 32) :
    firstIndex virtMemBase + megabytes virtMemBase phyMemLength ≤ 4096 := by
  rw [firstIndex_eq, megabytes]
  omega

/-- The first loop starts at the descriptor of the first megabyte. -/
theorem begin_eq (delivers : source.Delivers) (virtMemBase : BitVec 32) :
    source.root + 4 * firstIndex virtMemBase =
      slot tables source.root (firstIndex virtMemBase + 0) % 2 ^ 32 := by
  have bounds := slot_bounds tables source.root (firstIndex_lt virtMemBase)
  have rootEnd := delivers.rootEnd
  change _ ∧ _ + 4 ≤ _ + 4 * 4096 at bounds
  change _ + 4 * 4096 ≤ _ at rootEnd
  rw [Nat.add_zero, Nat.mod_eq_of_lt (by omega)]
  rfl

theorem linkLoop_startup (delivers : source.Delivers) (memory : Memory) (ttbr0 : BitVec 32)
    {virtMemBase phyMemLength : BitVec 32}
    (virtFits : virtMemBase.toNat + phyMemLength.toNat ≤ 2 ^ 32)
    (obtained : ∀ k, k < requests virtMemBase phyMemLength → source.page k ≠ 0) :
    ∃ state, linkLoop source (megabytes virtMemBase phyMemLength)
        (source.root + 4 * firstIndex virtMemBase)
        ⟨clear memory source.root (4 * pageSize), 0, 0, 0, ttbr0⟩ = some state ∧
      Linked source state.memory (firstIndex virtMemBase) (megabytes virtMemBase phyMemLength)
        (4 * ((megabytes virtMemBase phyMemLength + 3) / 4)) := by
  have carved : Carved source ⟨clear memory source.root (4 * pageSize), 0, 0, 0, ttbr0⟩ 0 :=
    ⟨rfl, rfl, fun more => absurd rfl more⟩
  have bound := megabytes_le virtFits
  have spec := linkLoop_spec delivers (megabytes virtMemBase phyMemLength) carved
    (linked_startup source memory (firstIndex virtMemBase)) (by omega)
      (begin_eq delivers virtMemBase)
    (fun k below => obtained k (by rw [requests]; omega))
  rwa [Nat.zero_add] at spec

/-- The second loop fills in the range when the first has linked its
megabytes. -/
theorem _initPageTablesL2_linked (delivers : source.Delivers) {memory : Memory} {cut : Nat}
    {phyMemBase virtMemBase phyMemLength : BitVec 32} (phyAligned : pageSize ∣ phyMemBase.toNat)
    (virtAligned : pageSize ∣ virtMemBase.toNat) (lengthAligned : pageSize ∣ phyMemLength.toNat)
    (positive : 0 < phyMemLength.toNat)
    (virtFits : virtMemBase.toNat + phyMemLength.toNat ≤ 2 ^ 32)
    (linked : Linked source memory (firstIndex virtMemBase)
      (megabytes virtMemBase phyMemLength) cut)
    (obtained : ∀ number, number < megabytes virtMemBase phyMemLength →
      source.page (number / 4) ≠ 0) :
    ∃ memory', _initPageTablesL2 source.root memory phyMemBase virtMemBase phyMemLength =
      some memory' ∧
      WellFormed memory' source.root ∧
      ∀ i j, i < 4096 → j < 256 → lookup tables memory' source.root i j =
        if virtMemBase.toNat / pageSize ≤ 256 * i + j ∧
            256 * i + j < virtMemBase.toNat / pageSize + phyMemLength.toNat / pageSize then
          some (ramAttributes.smallpage (pageBase (phyMemBase.toNat / pageSize +
            (256 * i + j - virtMemBase.toNat / pageSize))))
        else lookup tables memory source.root i j := by
  rcases wellFormed_of_linked delivers linked obtained with ⟨wellFormed, named⟩
  rcases phyAligned with ⟨frame, phyEq⟩
  rcases virtAligned with ⟨page, virtEq⟩
  rcases lengthAligned with ⟨left, lengthEq⟩
  have pagePos : 0 < pageSize := by decide
  have phyIs := eq_pageBase (Dvd.intro _ phyEq.symm)
  have virtIs := eq_pageBase (Dvd.intro _ virtEq.symm)
  have lengthIs : phyMemLength = BitVec.ofNat 32 (pageSize * (phyMemLength.toNat / pageSize)) :=
    eq_pageBase (Dvd.intro _ lengthEq.symm)
  rw [phyEq, Nat.mul_div_cancel_left _ pagePos] at phyIs
  rw [virtEq, Nat.mul_div_cancel_left _ pagePos] at virtIs
  rw [lengthEq, Nat.mul_div_cancel_left _ pagePos] at lengthIs
  rw [phyEq, virtEq, lengthEq, Nat.mul_div_cancel_left _ pagePos, Nat.mul_div_cancel_left _ pagePos,
    Nat.mul_div_cancel_left _ pagePos, phyIs, virtIs, lengthIs]
  have lengthLt := phyMemLength.isLt
  rw [virtEq, lengthEq, pageSize] at virtFits
  rw [lengthEq, pageSize] at positive lengthLt
  apply _initPageTablesL2_spec left frame wellFormed (by omega) (by omega)
  intro other after before
  rw [named _ (by omega), if_pos]
  · rfl
  · rw [firstIndex_eq, megabytes, virtEq, lengthEq, pageSize]
    omega

/-- A linear map of the pages, with empty tables or none elsewhere, is a
linear map of the addresses. -/
theorem walk_linear (delivers : source.Delivers) {memory : Memory} {first count : Nat}
    {phyMemBase virtMemBase phyMemLength : BitVec 32} (phyAligned : pageSize ∣ phyMemBase.toNat)
    (virtAligned : pageSize ∣ virtMemBase.toNat) (lengthAligned : pageSize ∣ phyMemLength.toNat)
    (phyFits : phyMemBase.toNat + phyMemLength.toNat ≤ 2 ^ 32)
    (wellFormed : WellFormed memory source.root)
    (lookups : ∀ i j, i < 4096 → j < 256 → lookup tables memory source.root i j =
      if virtMemBase.toNat / pageSize ≤ 256 * i + j ∧
          256 * i + j < virtMemBase.toNat / pageSize + phyMemLength.toNat / pageSize then
        some (ramAttributes.smallpage (pageBase (phyMemBase.toNat / pageSize +
          (256 * i + j - virtMemBase.toNat / pageSize))))
      else if first ≤ i ∧ i < first + count then some 0#32 else none) (virt : BitVec 32) :
    if virtMemBase.toNat ≤ virt.toNat ∧ virt.toNat < virtMemBase.toNat + phyMemLength.toNat then
      ∃ descriptor, walk memory (BitVec.ofNat 32 source.root) virt = .smallPage descriptor ∧
        (physicalAddress descriptor virt).toNat =
          phyMemBase.toNat + (virt.toNat - virtMemBase.toNat)
    else walk memory (BitVec.ofNat 32 source.root) virt = .fault := by
  have root := tableRoot_of_delivers delivers
  have walked := walk_eq (by rw [root]; exact wellFormed) virt
  rw [root, lookups _ _ (firstIndex_lt virt) (secondIndex_lt virt),
    firstIndex_secondIndex] at walked
  rcases phyAligned with ⟨frame, phyEq⟩
  rcases virtAligned with ⟨page, virtEq⟩
  rcases lengthAligned with ⟨left, lengthEq⟩
  have pagePos : 0 < pageSize := by decide
  rw [phyEq, virtEq, lengthEq, Nat.mul_div_cancel_left _ pagePos, Nat.mul_div_cancel_left _ pagePos,
    Nat.mul_div_cancel_left _ pagePos] at walked
  rw [phyEq, lengthEq, pageSize] at phyFits
  rw [virtEq, lengthEq, phyEq]
  have pageNumber := Nat.div_add_mod virt.toNat pageSize
  have offset := Nat.mod_lt virt.toNat pagePos
  have size : pageSize = 4096 := rfl
  by_cases inRange : page ≤ virt.toNat / pageSize ∧ virt.toNat / pageSize < page + left
  · rw [if_pos inRange] at walked
    rw [size] at inRange pageNumber offset ⊢
    rw [if_pos (by omega)]
    refine ⟨_, walked.trans (secondLevel_smallpage _ _), ?_⟩
    rw [toNat_physicalAddress, toNat_pageBase (by rw [size]; omega),
      Nat.mul_div_cancel_left _ pagePos, size]
    omega
  · rw [if_neg inRange] at walked
    rw [size] at inRange pageNumber offset ⊢
    rw [if_neg (by omega), walked]
    split <;> rfl

/-- The range is mapped linearly, and no other address is mapped. -/
theorem init_page_tables_linear (delivers : source.Delivers) (memory : Memory) (ttbr0 : BitVec 32)
    {phyMemBase virtMemBase phyMemLength : BitVec 32} (phyAligned : pageSize ∣ phyMemBase.toNat)
    (virtAligned : pageSize ∣ virtMemBase.toNat) (lengthAligned : pageSize ∣ phyMemLength.toNat)
    (positive : 0 < phyMemLength.toNat) (phyFits : phyMemBase.toNat + phyMemLength.toNat ≤ 2 ^ 32)
    (virtFits : virtMemBase.toNat + phyMemLength.toNat ≤ 2 ^ 32)
    (obtained : ∀ k, k < requests virtMemBase phyMemLength → source.page k ≠ 0) :
    ∃ final, initPageTables source (InitState.startup memory ttbr0) phyMemBase virtMemBase
      phyMemLength =
        some (0, final) ∧
      ∀ virt : BitVec 32,
        if virtMemBase.toNat ≤ virt.toNat ∧ virt.toNat < virtMemBase.toNat + phyMemLength.toNat then
          ∃ descriptor, walk final.memory final.ttbr0 virt = .smallPage descriptor ∧
            (physicalAddress descriptor virt).toNat =
              phyMemBase.toNat + (virt.toNat - virtMemBase.toNat)
        else walk final.memory final.ttbr0 virt = .fault := by
  have inRequests : ∀ number, number < megabytes virtMemBase phyMemLength →
      source.page (number / 4) ≠ 0 := by
    intro number below
    apply obtained
    rw [requests]
    omega
  rcases linkLoop_startup delivers memory ttbr0 virtFits obtained with ⟨linkedState, ran, linked⟩
  rcases _initPageTablesL2_linked delivers phyAligned virtAligned lengthAligned positive
    virtFits linked
    inRequests with ⟨filledMemory, filled, wellFormed, lookups⟩
  refine ⟨{ linkedState with memory := filledMemory, ttbr0 := BitVec.ofNat 32 source.root }, ?_, ?_⟩
  · rw [← turns_eq positive virtFits delivers.rootEnd] at ran
    simp only [initPageTables, InitState.startup, ran, filled, Option.map_some]
  · intro virt
    exact walk_linear delivers phyAligned virtAligned lengthAligned phyFits wellFormed
      (fun i j rootIndex leafIndex => by
        rw [lookups i j rootIndex leafIndex,
          lookup_of_linked delivers linked (by omega) inRequests rootIndex leafIndex]) virt

/-- Boot pages from the beginning of the beagleboard's RAM on. -/
def beaglexmSource : BootSource where
  root := 0x80200000
  page := fun k => if k < 64 then 0x80204000 + pageSize * k else 0

theorem page_beaglexmSource {k : Nat} (obtained : beaglexmSource.page k ≠ 0) :
    k < 64 ∧ beaglexmSource.page k = 0x80204000 + 4096 * k := by
  by_cases below : k < 64
  · exact ⟨below, if_pos below⟩
  · exact absurd (if_neg below) obtained

theorem delivers_beaglexmSource : beaglexmSource.Delivers where
  rootAligned := by decide
  rootEnd := by decide
  pageAligned := by
    intro k
    change pageSize ∣ if k < 64 then 0x80204000 + pageSize * k else 0
    split
    · exact Nat.dvd_add (by decide) (Nat.dvd_mul_right _ _)
    · exact Nat.dvd_zero _
  pageEnd := by
    intro k
    change (if k < 64 then 0x80204000 + 4096 * k else 0) + 4096 ≤ 2 ^ 32
    split <;> omega
  rootApart := by
    intro k obtained
    have page := page_beaglexmSource obtained
    change beaglexmSource.page k + 4096 ≤ 0x80200000 ∨ 0x80200000 + 4 * 4096 ≤ beaglexmSource.page k
    omega
  pagesApart := by
    intro k k' different obtained obtained'
    have page := page_beaglexmSource obtained
    have page' := page_beaglexmSource obtained'
    change beaglexmSource.page k + 4096 ≤ beaglexmSource.page k' ∨
      beaglexmSource.page k' + 4096 ≤ beaglexmSource.page k
    omega

/-- The beagleboard maps its RAM at its own addresses. -/
theorem init_page_tables_linear_beaglexm :
    ∃ final, initPageTables beaglexmSource (InitState.startup (fun _address => 0xdeadbeef#32) 0#32)
        0x80200000#32 0x80200000#32 0xFE00000#32 = some (0, final) ∧
      ∀ virt : BitVec 32,
        if (0x80200000#32).toNat ≤ virt.toNat ∧
            virt.toNat < (0x80200000#32).toNat + (0xFE00000#32).toNat then
          ∃ descriptor, walk final.memory final.ttbr0 virt = .smallPage descriptor ∧
            (physicalAddress descriptor virt).toNat =
              (0x80200000#32).toNat + (virt.toNat - (0x80200000#32).toNat)
        else walk final.memory final.ttbr0 virt = .fault :=
  init_page_tables_linear delivers_beaglexmSource _ _ (by decide) (by decide) (by decide)
    (by decide)
    (by decide) (by decide) (by
      intro k below
      change k < 64 at below
      change (if k < 64 then 0x80204000 + pageSize * k else 0) ≠ 0
      rw [if_pos below]
      omega)

end VMSAv7
end ShovelOS
