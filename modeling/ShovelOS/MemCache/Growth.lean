import ShovelOS.MemCache.Moves

namespace ShovelOS
namespace SlabCache

open LinkedList Bitmap

/-!
# Getting pages and slabs

A request for pages is refused, or adds a region to the ones held and leaves
every slab structure outside that region alone.  When `mem_cache_alloc` runs
out of slabs it asks `_more_slabs` for one, which takes a page and threads a
list through the slab structures in it.
-/

variable {m : Machine}

/-! ## A request for pages -/

/-- What is true after the page allocator has handed out a region. -/
structure Granted (world after : World m) (pages : Nat) (flags : BitVec 32) (address : Nat) : Prop
    where
  notNull : address ≠ 0
  aligned : m.pageSize ∣ address
  inside : address + pages * m.pageSize ≤ m.wordLimit
  fresh : ∀ other ∈ world.held.regions, Region.Apart m ⟨address, pages⟩ other
  held : after.held.regions = ⟨address, pages⟩ :: world.held.regions
  log : after.log = .granted address pages :: world.log
  outside : ∀ slab, ¬(address ≤ slab ∧ slab < address + pages * m.pageSize) →
    after.slab slab = world.slab slab
  cleared : flags &&& gfpZero ≠ 0#32 → ∀ slab, address ≤ slab →
    slab < address + pages * m.pageSize → after.slab slab = Slab.zero m

/-- A request is refused or granted as the page allocator answers. -/
theorem getFreePages_answer (allocator : PageAllocator m) (world : World m) (pages : Nat)
    (flags : BitVec 32) :
    (allocator world.held pages flags = none ∧
      getFreePages allocator world pages flags =
        (0, { world with log := .refused pages :: world.log })) ∨
    ∃ grant after, allocator world.held pages flags = some grant ∧
      getFreePages allocator world pages flags = (grant.address, after) ∧
      Granted world after pages flags grant.address := by
  unfold getFreePages
  cases allocator world.held pages flags with
  | none => exact Or.inl ⟨rfl, rfl⟩
  | some grant =>
      refine Or.inr ⟨grant, _, rfl, rfl, ?_⟩
      by_cases plain : flags &&& gfpZero = 0#32
      · rw [if_pos plain]
        exact ⟨grant.notNull, grant.aligned, grant.inside, grant.apart, rfl, rfl,
          fun _slab _outside => rfl, fun zero => absurd plain zero⟩
      · rw [if_neg plain]
        exact ⟨grant.notNull, grant.aligned, grant.inside, grant.apart, rfl, rfl,
          fun _slab outside => if_neg outside, fun _zero _slab lower upper => if_pos ⟨lower, upper⟩⟩

theorem getFreePages_cases (allocator : PageAllocator m) (world : World m) (pages : Nat)
    (flags : BitVec 32) :
    (allocator world.held pages flags = none ∧
      getFreePages allocator world pages flags =
        (0, { world with log := .refused pages :: world.log })) ∨
      ∃ address after, getFreePages allocator world pages flags = (address, after) ∧
        Granted world after pages flags address := by
  rcases getFreePages_answer allocator world pages flags with
    refused | ⟨grant, after, _, answered, granted⟩
  · exact Or.inl refused
  · exact Or.inr ⟨grant.address, after, answered, granted⟩

theorem Granted.keeps {world after : World m} {pages pagesPerSlab address : Nat}
    {flags : BitVec 32} {obtained : List Nat} (granted : Granted world after pages flags address)
    (owns : Owns pagesPerSlab world obtained) : Keeps obtained world after where
  sameSlab := fun slab isSlab =>
    granted.outside slab (owns.slab_outside_fresh isSlab granted.fresh)
  stillHeld := by
    intro region isHeld
    rw [granted.held]
    exact List.mem_cons_of_mem _ isHeld

/-! ## The list through a page -/

/-- The `LINK` loop links so many slabs in a row, each to the next in
memory, and changes nothing else. -/
theorem linkSlabs_spec (turns : Nat) (growth : Growth m) {slab : Nat} (first : growth.last = slab) :
    (linkSlabs turns growth).firstSlab = growth.firstSlab ∧
      (linkSlabs turns growth).obtained = growth.obtained ∧
      OnlyNext growth.world (linkSlabs turns growth).world ∧
      (∀ i, i < turns → ((linkSlabs turns growth).world.slab (slab + i * slabBytes m)).next =
        slab + (i + 1) * slabBytes m) ∧
      ∀ other, (∀ i, i < turns → other ≠ slab + i * slabBytes m) →
        (linkSlabs turns growth).world.slab other = growth.world.slab other := by
  induction turns generalizing growth slab with
  | zero =>
      exact ⟨rfl, rfl, OnlyNext.refl _, fun i below => absurd below (Nat.not_lt_zero i),
        fun other _apart => rfl⟩
  | succ turns inductionHypothesis =>
      let linked : Growth m := { growth with
        world := growth.world.setNext slab (slab + slabBytes m)
        lastSlab := .next slab }
      have unfolded : linkSlabs (turns + 1) growth = linkSlabs turns linked := by
        rw [linkSlabs, first]
      have second : linked.last = slab + slabBytes m :=
        World.setNext_self growth.world slab _
      rcases inductionHypothesis linked second with
        ⟨sameFirst, sameObtained, onlyNext, links, others⟩
      have positive := slabBytes_pos m
      have apart : ∀ i, i < turns → slab ≠ slab + slabBytes m + i * slabBytes m := by
        intro i _below
        omega
      rw [unfolded]
      refine ⟨sameFirst, sameObtained,
        (OnlyNext.setNext growth.world slab _).trans onlyNext, ?_, ?_⟩
      · intro i below
        cases i with
        | zero =>
            rw [Nat.zero_mul, Nat.add_zero, others slab apart, Nat.zero_add, Nat.one_mul]
            exact second
        | succ i =>
            have next := links i (Nat.lt_of_succ_lt_succ below)
            rw [Nat.succ_mul, Nat.add_comm (i * slabBytes m), ← Nat.add_assoc, next]
            rw [Nat.add_assoc, Nat.succ_mul (i + 1), Nat.add_comm ((i + 1) * slabBytes m)]
      · intro other different
        have notFirst : other ≠ slab := by
          have notZero := different 0 (Nat.succ_pos _)
          rwa [Nat.zero_mul, Nat.add_zero] at notZero
        rw [others other]
        · exact World.setNext_of_ne growth.world _ notFirst
        · intro i below
          have notLater := different (i + 1) (Nat.succ_lt_succ below)
          rw [Nat.succ_mul] at notLater
          omega

/-- Equally spaced nodes that each point to the next one form a chain. -/
theorem chain_of_row {next : Nat → Nat} {size count base : Nat} (positive : 0 < count)
    (notNull : base ≠ 0)
    (links : ∀ i, i + 1 < count → next (base + i * size) = base + (i + 1) * size)
    (ends : next (base + (count - 1) * size) = 0) :
    Chain 0 next base ((List.range count).map (fun i => base + i * size)) := by
  induction count generalizing base with
  | zero => exact absurd positive (Nat.lt_irrefl 0)
  | succ count inductionHypothesis =>
      have shifted : (List.range (count + 1)).map (fun i => base + i * size) =
          base :: (List.range count).map (fun i => base + size + i * size) := by
        rw [List.range_succ_eq_map, List.map_cons, List.map_map, Nat.zero_mul, Nat.add_zero]
        congr 1
        apply List.map_congr_left
        intro i _isMember
        simp only [Function.comp_apply, Nat.succ_mul]
        omega
      rw [shifted]
      refine ⟨rfl, notNull, ?_⟩
      cases count with
      | zero =>
          rw [Nat.zero_add, Nat.sub_self, Nat.zero_mul, Nat.add_zero] at ends
          exact ends
      | succ count =>
          have second := links 0 (by omega)
          rw [Nat.zero_mul, Nat.add_zero, Nat.zero_add, Nat.one_mul] at second
          rw [second]
          apply inductionHypothesis (Nat.succ_pos _) (by omega)
          · intro i below
            have link := links (i + 1) (by omega)
            rw [Nat.succ_mul i, Nat.succ_mul (i + 1), Nat.succ_mul i] at link
            rw [Nat.succ_mul, show base + size + i * size = base + (i * size + size) by omega, link]
            omega
          · rw [Nat.add_sub_cancel, Nat.succ_mul] at ends
            rw [Nat.add_sub_cancel,
                show base + size + count * size = base + (count * size + size) by
              omega]
            exact ends

/-- What is true after a page of slab structures has been obtained. -/
structure Grown (world after : World m) (base : Nat) : Prop where
  notNull : base ≠ 0
  fresh : ∀ other ∈ world.held.regions, Region.Apart m ⟨base, 1⟩ other
  held : after.held.regions = ⟨base, 1⟩ :: world.held.regions
  log : after.log = .granted base 1 :: world.log
  old : ∀ slab, ¬(base ≤ slab ∧ slab < base + m.pageSize) → after.slab slab = world.slab slab
  page : ∀ slab ∈ slabsOfPage m base, (after.slab slab).page = 0
  bitmap : ∀ slab ∈ slabsOfPage m base, (after.slab slab).bitmap = fun _word => 0#m.wordTBits
  allocatedChunks : ∀ slab ∈ slabsOfPage m base, (after.slab slab).allocatedChunks = 0
  chain : Chain 0 (fun slab => (after.slab slab).next) base (slabsOfPage m base)

theorem gfpZero_or (flags : BitVec 32) : (flags ||| gfpZero) &&& gfpZero ≠ 0#32 := by
  intro none
  have bit := congrArg (fun x : BitVec 32 => x.getLsbD 2) none
  simp [gfpZero] at bit

/-- The links of the page that `_more_slabs` takes for one slab. -/
theorem grown_of_granted {world taken : World m} {flags : BitVec 32} {base : Nat}
    (granted : Granted world taken 1 (flags ||| gfpZero) base) :
    Grown world
      (linkSlabs (slabsPerPage m - 1) ⟨base, .head (), taken, [base]⟩ : Growth m).world base := by
  have positive := slabsPerPage_pos m
  rcases linkSlabs_spec (slabsPerPage m - 1) (⟨base, .head (), taken, [base]⟩ : Growth m) rfl with
    ⟨_sameFirst, _sameObtained, onlyNext, links, others⟩
  have zero : ∀ slab ∈ slabsOfPage m base, taken.slab slab = Slab.zero m := by
    intro slab onPage
    rcases slabsOfPage_inside onPage with ⟨lower, upper⟩
    exact granted.cleared (gfpZero_or flags) slab lower (by rwa [Nat.one_mul])
  have onPage : ∀ i, i < slabsPerPage m → base + i * slabBytes m ∈ slabsOfPage m base :=
    fun i below => mem_slabsOfPage.mpr ⟨i, below, rfl⟩
  refine ⟨granted.notNull, granted.fresh, ?_, ?_, ?_, ?_, ?_, ?_, ?_⟩
  · rw [onlyNext.held]
    exact granted.held
  · rw [onlyNext.log]
    exact granted.log
  · intro slab outside
    rw [others slab]
    · apply granted.outside
      rwa [Nat.one_mul]
    · intro i below same
      apply outside
      rw [same]
      exact slabsOfPage_inside (onPage i (by omega))
  · intro slab isSlab
    rw [onlyNext.page]
    exact congrArg Slab.page (zero slab isSlab)
  · intro slab isSlab
    rw [onlyNext.bitmap]
    exact congrArg Slab.bitmap (zero slab isSlab)
  · intro slab isSlab
    rw [onlyNext.allocatedChunks]
    exact congrArg Slab.allocatedChunks (zero slab isSlab)
  · apply chain_of_row positive granted.notNull
    · intro i below
      exact links i (by omega)
    · rw [others]
      · exact congrArg Slab.next (zero _ (onPage _ (by omega)))
      · intro i below same
        have spaced := Nat.eq_of_mul_eq_mul_right (slabBytes_pos m) (Nat.add_left_cancel same)
        omega

/-- `_more_slabs` for one slab is refused, or takes one page. -/
theorem _moreSlabs_one (allocator : PageAllocator m) (flags : BitVec 32) (world : World m) :
    (allocator world.held 1 (flags ||| gfpZero) = none ∧
      _moreSlabs allocator 1 flags world =
        some ⟨0, { world with log := .refused 1 :: world.log }, []⟩) ∨
      ∃ base after, _moreSlabs allocator 1 flags world = some ⟨base, after, [base]⟩ ∧
        Grown world after base := by
  unfold _moreSlabs
  rw [pages_for_one_slab, growPages]
  rcases getFreePages_cases allocator world 1 (flags ||| gfpZero) with
    ⟨isNone, refused⟩ | ⟨base, taken, answered, granted⟩
  · refine Or.inl ⟨isNone, ?_⟩
    dsimp only
    rw [refused]
    rfl
  · refine Or.inr ⟨base, _, ?_, grown_of_granted granted⟩
    dsimp only
    rw [answered]
    dsimp only [Growth.setLast]
    rw [if_neg granted.notNull, growPages]
    rcases linkSlabs_spec (slabsPerPage m - 1) (⟨base, .head (), taken, [base]⟩ : Growth m) rfl with
      ⟨sameFirst, sameObtained, _rest⟩
    rw [sameFirst, sameObtained]

/-! ## The invariant across growth -/

variable {cache : MemCache} {world after : World m} {obtained live : List Nat}
  {nodes : ListName → List Nat} {base : Nat}

theorem isSlab_cons {slab : Nat} :
    IsSlab m (base :: obtained) slab ↔ slab ∈ slabsOfPage m base ∨ IsSlab m obtained slab := by
  unfold IsSlab
  simp only [List.mem_cons, exists_eq_or_imp]

namespace Grown

theorem old_slab (grown : Grown world after base) {pagesPerSlab : Nat}
    (owns : Owns pagesPerSlab world obtained) {slab : Nat} (isSlab : IsSlab m obtained slab) :
    after.slab slab = world.slab slab := by
  apply grown.old
  have outside := owns.slab_outside_fresh isSlab grown.fresh
  rwa [Nat.one_mul] at outside

theorem not_old (grown : Grown world after base) {pagesPerSlab : Nat}
    (owns : Owns pagesPerSlab world obtained) {slab : Nat} (onPage : slab ∈ slabsOfPage m base) :
    ¬IsSlab m obtained slab := by
  intro isSlab
  have outside := owns.slab_outside_fresh isSlab grown.fresh
  rw [Nat.one_mul] at outside
  exact outside (slabsOfPage_inside onPage)

theorem isSet_new (grown : Grown world after base) {slab : Nat} (onPage : slab ∈ slabsOfPage m base)
    (i : Nat) : isSet (after.slab slab).bitmap i = false := by
  rw [grown.bitmap slab onPage, isSet, BitVec.getLsbD_zero]

theorem owns (grown : Grown world after base) {pagesPerSlab : Nat} (positive : 1 ≤ pagesPerSlab)
    (owns : Owns pagesPerSlab world obtained) : Owns pagesPerSlab after (base :: obtained) where
  nodup := by
    refine List.nodup_cons.mpr ⟨fun isMember => ?_, owns.nodup⟩
    have apart := grown.fresh _ (owns.slabPage base isMember).2
    rw [Region.Apart] at apart
    have pagePositive := m.pageSize_pos
    dsimp only at apart
    omega
  slabPage := by
    intro page isMember
    rw [grown.held]
    rcases List.mem_cons.mp isMember with rfl | isOld
    · exact ⟨grown.notNull, List.mem_cons_self⟩
    · exact ⟨(owns.slabPage page isOld).1, List.mem_cons_of_mem _ (owns.slabPage page isOld).2⟩
  chunkPages := by
    intro slab isSlab attached
    rcases isSlab_cons.mp isSlab with isNew | isOld
    · exact absurd (grown.page slab isNew) attached
    · rw [grown.old_slab owns isOld] at attached ⊢
      rcases owns.chunkPages slab isOld attached with ⟨isHeld, aligned, inside⟩
      rw [grown.held]
      exact ⟨List.mem_cons_of_mem _ isHeld, aligned, inside⟩
  unshared := by
    intro slab other isSlab alsoSlab attached same
    rcases isSlab_cons.mp isSlab with isNew | isOld
    · exact absurd (grown.page slab isNew) attached
    · rcases isSlab_cons.mp alsoSlab with alsoNew | alsoOld
      · rw [same] at attached
        exact absurd (grown.page other alsoNew) attached
      · rw [grown.old_slab owns isOld] at attached same
        rw [grown.old_slab owns alsoOld] at same
        exact owns.unshared slab other isOld alsoOld attached same
  separate := by
    intro slab isSlab attached isMember
    rcases isSlab_cons.mp isSlab with isNew | isOld
    · exact absurd (grown.page slab isNew) attached
    · rw [grown.old_slab owns isOld] at attached isMember
      rcases List.mem_cons.mp isMember with isBase | alsoOld
      · have apart := grown.fresh _ (owns.chunkPages slab isOld attached).1
        have pagePositive := m.pageSize_pos
        have slabPositive : 0 < pagesPerSlab * m.pageSize := Nat.mul_pos positive pagePositive
        rw [Region.Apart] at apart
        dsimp only at apart
        omega
      · exact owns.separate slab isOld attached alsoOld

/-- The slabs of the new page become the free list. -/
theorem consistent (grown : Grown world after base) (sizes : Sizes m cache)
    (consistent : Consistent cache world obtained nodes) (noFree : nodes .free = []) :
    Consistent { cache with freeSlabs := base } after (base :: obtained)
      (Function.update nodes .free (slabsOfPage m base)) where
  owns := grown.owns sizes.one_le_pagesPerSlab consistent.owns
  holds := by
    apply consistent.holds.fill grown.chain (slabsOfPage_nodup base)
    · intro name notFree
      cases name with
      | full => rfl
      | partly => rfl
      | free => exact absurd rfl notFree
    · intro name slab onList
      exact congrArg Slab.next (grown.old_slab consistent.owns (consistent.isSlab onList))
    · intro name slab onList onPage
      exact grown.not_old consistent.owns onPage (consistent.isSlab onList)
  covers := by
    intro slab
    rw [isSlab_cons, ← consistent.covers slab]
    constructor
    · rintro ⟨name, onList⟩
      by_cases isFree : name = .free
      · subst isFree
        rw [Function.update_self] at onList
        exact Or.inl onList
      · rw [Function.update_of_ne isFree] at onList
        exact Or.inr ⟨name, onList⟩
    · rintro (onPage | ⟨name, onList⟩)
      · refine ⟨.free, ?_⟩
        rw [Function.update_self]
        exact onPage
      · have notFree : name ≠ .free := by
          intro isFree
          rw [isFree, noFree] at onList
          cases onList
        refine ⟨name, ?_⟩
        rw [Function.update_of_ne notFree]
        exact onList
  within := by
    intro slab isSlab i set
    rcases isSlab_cons.mp isSlab with isNew | isOld
    · rw [grown.isSet_new isNew] at set
      cases set
    · rw [grown.old_slab consistent.owns isOld] at set
      exact consistent.within slab isOld i set
  counted := by
    intro slab isSlab
    rcases isSlab_cons.mp isSlab with isNew | isOld
    · rw [grown.allocatedChunks slab isNew, eq_comm]
      have none : ∀ i, isSet (after.slab slab).bitmap i = true → i < 0 := by
        intro i set
        rw [grown.isSet_new isNew] at set
        cases set
      have bounded : count (after.slab slab).bitmap (bitmapBits m) ≤ 0 := count_le none
      exact Nat.le_zero.mp bounded
    · rw [grown.old_slab consistent.owns isOld]
      exact consistent.counted slab isOld
  attached := by
    intro name notFree slab onList
    rw [Function.update_of_ne notFree] at onList
    rw [grown.old_slab consistent.owns (consistent.isSlab onList)]
    exact consistent.attached name notFree slab onList

theorem sorted (grown : Grown world after base)
    (consistent : Consistent cache world obtained nodes) (sorted : Sorted cache world nodes) :
    Sorted { cache with freeSlabs := base } after
      (Function.update nodes .free (slabsOfPage m base)) := by
  intro name slab onList
  by_cases isFree : name = .free
  · subst isFree
    rw [Function.update_self] at onList
    exact grown.allocatedChunks slab onList
  · rw [Function.update_of_ne isFree] at onList
    rw [grown.old_slab consistent.owns (consistent.isSlab onList)]
    exact sorted name slab onList

theorem records (grown : Grown world after base)
    (consistent : Consistent cache world obtained nodes)
    (records : Records cache world obtained live) :
    Records { cache with freeSlabs := base } after (base :: obtained) live where
  nodup := records.nodup
  mem_iff := by
    intro mem
    rw [records.mem_iff]
    constructor
    · rintro ⟨slab, index, isSlab, found⟩
      refine ⟨slab, index, isSlab_cons.mpr (Or.inr isSlab), ?_⟩
      rw [grown.old_slab consistent.owns isSlab]
      exact found
    · rintro ⟨slab, index, isSlab, set, address⟩
      rcases isSlab_cons.mp isSlab with isNew | isOld
      · rw [grown.isSet_new isNew] at set
        cases set
      · rw [grown.old_slab consistent.owns isOld] at set address
        exact ⟨slab, index, isOld, set, address⟩

theorem books (grown : Grown world after base)
    (books : Books cache world obtained live nodes) (noFree : nodes .free = []) :
    Books { cache with freeSlabs := base } after (base :: obtained) live
      (Function.update nodes .free (slabsOfPage m base)) where
  sizes := by
    have same : SameSizes cache { cache with freeSlabs := base } := ⟨rfl, rfl, rfl⟩
    exact same.sizes books.sizes
  inBitmap := by
    intro slab isSlab i set
    rcases isSlab_cons.mp isSlab with isNew | isOld
    · rw [grown.isSet_new isNew] at set
      cases set
    · rw [grown.old_slab books.consistent.owns isOld] at set
      exact books.inBitmap slab isOld i set
  consistent := grown.consistent books.sizes books.consistent noFree
  sorted := grown.sorted books.consistent books.sorted
  records := grown.records books.consistent books.records

end Grown

end SlabCache
end ShovelOS
