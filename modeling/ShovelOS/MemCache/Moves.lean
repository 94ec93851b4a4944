import ShovelOS.MemCache.Invariant

namespace ShovelOS
namespace SlabCache

open LinkedList Bitmap

/-!
# Moving slabs and changing them

`moveSlab` and `pluckSlab` are both the move of a node between linked lists.
They change no more than list heads and `next` pointers.  The other changes
are to the page, the bitmap or the counter of one slab.
-/

variable {m : Machine}

/-! ## What a store through a link changes -/

/-- The fields of a cache that no call changes. -/
structure SameSizes (cache other : MemCache) : Prop where
  pagesPerSlab : other.pagesPerSlab = cache.pagesPerSlab
  chunkSz : other.chunkSz = cache.chunkSz
  gfpFlags : other.gfpFlags = cache.gfpFlags

namespace SameSizes

variable {cache other third : MemCache}

theorem refl (cache : MemCache) : SameSizes cache cache := ⟨rfl, rfl, rfl⟩

theorem trans (first : SameSizes cache other) (second : SameSizes other third) :
    SameSizes cache third :=
  ⟨second.pagesPerSlab.trans first.pagesPerSlab, second.chunkSz.trans first.chunkSz,
    second.gfpFlags.trans first.gfpFlags⟩

theorem chunksPerSlab (same : SameSizes cache other) :
    other.chunksPerSlab m = cache.chunksPerSlab m := by
  rw [MemCache.chunksPerSlab, same.pagesPerSlab, same.chunkSz, MemCache.chunksPerSlab]

theorem shape (same : SameSizes cache other) (shape : Shape m cache) : Shape m other where
  one_le_pagesPerSlab := by
    rw [same.pagesPerSlab]
    exact shape.one_le_pagesPerSlab
  noOverflow := by
    rw [same.pagesPerSlab]
    exact shape.noOverflow
  powerOfTwo := by
    rw [same.chunkSz]
    exact shape.powerOfTwo
  dvd_pageSize := by
    rw [same.chunkSz]
    exact shape.dvd_pageSize
  bitmapFits := by
    rw [same.pagesPerSlab, same.chunkSz]
    exact shape.bitmapFits

theorem sizes (same : SameSizes cache other) (sizes : Sizes m cache) : Sizes m other where
  one_le_pagesPerSlab := by
    rw [same.pagesPerSlab]
    exact sizes.one_le_pagesPerSlab
  noOverflow := by
    rw [same.pagesPerSlab]
    exact sizes.noOverflow
  chunkSz_pos := by
    rw [same.chunkSz]
    exact sizes.chunkSz_pos
  chunkSz_le := by
    rw [same.pagesPerSlab, same.chunkSz]
    exact sizes.chunkSz_le

theorem hasBits_iff (same : SameSizes cache other) : HasBits m other ↔ HasBits m cache := by
  rw [HasBits, same.pagesPerSlab, same.chunkSz, HasBits]

end SameSizes

/-- The worlds differ in `next` pointers only. -/
structure OnlyNext (world other : World m) : Prop where
  page : ∀ slab, (other.slab slab).page = (world.slab slab).page
  bitmap : ∀ slab, (other.slab slab).bitmap = (world.slab slab).bitmap
  allocatedChunks : ∀ slab, (other.slab slab).allocatedChunks = (world.slab slab).allocatedChunks
  held : other.held = world.held
  log : other.log = world.log

namespace OnlyNext

theorem refl (world : World m) : OnlyNext world world :=
  ⟨fun _slab => rfl, fun _slab => rfl, fun _slab => rfl, rfl, rfl⟩

theorem trans {world other third : World m} (first : OnlyNext world other)
    (second : OnlyNext other third) : OnlyNext world third :=
  ⟨fun slab => (second.page slab).trans (first.page slab),
    fun slab => (second.bitmap slab).trans (first.bitmap slab),
    fun slab => (second.allocatedChunks slab).trans (first.allocatedChunks slab),
    second.held.trans first.held, second.log.trans first.log⟩

/-- A field that a change of one slab keeps is kept in every slab. -/
theorem modify_field {α : Type*} (field : Slab m → α) (world : World m) (slab : Nat)
    (change : Slab m → Slab m) (kept : field (change (world.slab slab)) = field (world.slab slab))
    (other : Nat) : field ((world.modify slab change).slab other) = field (world.slab other) := by
  by_cases same : other = slab
  · rw [same, World.modify_self]
    exact kept
  · rw [World.modify_of_ne world change same]

theorem setNext (world : World m) (slab value : Nat) : OnlyNext world (world.setNext slab value) :=
  ⟨modify_field Slab.page world slab _ rfl, modify_field Slab.bitmap world slab _ rfl,
    modify_field Slab.allocatedChunks world slab _ rfl, rfl, rfl⟩

theorem writeLink (cache : MemCache) (world : World m) (link : Link ListName Nat) (value : Nat) :
    OnlyNext world (writeLink cache world link value).2 := by
  cases link with
  | head name => exact refl world
  | next slab => exact setNext world slab value

theorem moveSlab (cache : MemCache) (world : World m) (link : Link ListName Nat) (slab : Nat)
    (target : ListName) : OnlyNext world (moveSlab cache world link slab target).2 := by
  unfold SlabCache.moveSlab
  dsimp only
  apply trans _ (writeLink _ _ (.head target) slab)
  apply trans _ (writeLink _ _ (.next slab) _)
  exact writeLink cache world link _

theorem pluckSlab (cache : MemCache) (world : World m) :
    OnlyNext world (pluckSlab cache world).2 :=
  setNext world cache.freeSlabs 0

end OnlyNext

namespace SameSizes

theorem setHead (cache : MemCache) (name : ListName) (slab : Nat) :
    SameSizes cache (cache.setHead name slab) := by
  cases name <;> exact ⟨rfl, rfl, rfl⟩

theorem writeLink (cache : MemCache) (world : World m) (link : Link ListName Nat) (value : Nat) :
    SameSizes cache (writeLink cache world link value).1 := by
  cases link with
  | head name => exact setHead cache name value
  | next slab => exact refl cache

theorem moveSlab (cache : MemCache) (world : World m) (link : Link ListName Nat) (slab : Nat)
    (target : ListName) : SameSizes cache (moveSlab cache world link slab target).1 := by
  unfold SlabCache.moveSlab
  dsimp only
  apply trans _ (writeLink _ _ (.head target) slab)
  apply trans _ (writeLink _ _ (.next slab) _)
  exact writeLink cache world link _

theorem pluckSlab (cache : MemCache) (world : World m) :
    SameSizes cache (pluckSlab cache world).1 := ⟨rfl, rfl, rfl⟩

end SameSizes

/-! ## The moves as moves between linked lists -/

theorem head_setHead (cache : MemCache) (name : ListName) (slab : Nat) :
    (cache.setHead name slab).head = Function.update cache.head name slab := by
  funext other
  cases name <;> cases other <;> rfl

theorem next_setNext (world : World m) (slab value : Nat) :
    (fun other => ((world.setNext slab value).slab other).next) =
      Function.update (fun other => (world.slab other).next) slab value := by
  funext other
  by_cases same : other = slab
  · subst same
    simp only [World.setNext, World.modify, Function.update_self]
  · simp only [World.setNext, World.modify, Function.update_of_ne same]

/-- A store through a link of the cache is one through a link of the lists. -/
theorem lists_writeLink (cache : MemCache) (world : World m) (link : Link ListName Nat)
    (value : Nat) :
    lists (writeLink cache world link value).1 (writeLink cache world link value).2 =
      (lists cache world).write link value := by
  cases link with
  | head name =>
      simp only [writeLink, lists, Lists.write]
      rw [head_setHead]
  | next slab =>
      simp only [writeLink, lists, Lists.write]
      rw [next_setNext]

theorem lists_moveSlab (cache : MemCache) (world : World m) (link : Link ListName Nat) (slab : Nat)
    (target : ListName) :
    lists (moveSlab cache world link slab target).1 (moveSlab cache world link slab target).2 =
      (lists cache world).moveTo link slab target := by
  unfold moveSlab Lists.moveTo
  dsimp only
  rw [lists_writeLink, lists_writeLink, lists_writeLink]
  have unlinked := lists_writeLink cache world link (world.slab slab).next
  have head : (writeLink cache world link (world.slab slab).next).1.head target =
      ((lists cache world).write link (world.slab slab).next).head target :=
    congrArg (fun l : Lists ListName Nat => l.head target) unlinked
  rw [head]
  rfl

/-- Plucking the first free slab when there is no partial one moves it. -/
theorem lists_pluckSlab (cache : MemCache) (world : World m) (noPartial : cache.partialSlabs = 0) :
    lists (pluckSlab cache world).1 (pluckSlab cache world).2 =
      (lists cache world).moveTo (.head .free) cache.freeSlabs .partly := by
  unfold pluckSlab lists Lists.moveTo
  simp only [Lists.write]
  rw [next_setNext]
  congr 1
  · funext name
    cases name <;> simp [MemCache.head]
  · simp [MemCache.head, noPartial]

/-! ## The invariant across a move -/

variable {cache other : MemCache} {world after : World m} {obtained live : List Nat}
  {nodes : ListName → List Nat}

/-- A slab that goes to another list with its contents unchanged. -/
theorem Consistent.move (consistent : Consistent cache world obtained nodes)
    {name target : ListName} {before rest : List Nat} {slab : Nat}
    (split : nodes name = before ++ slab :: rest) (sameSizes : SameSizes cache other)
    (onlyNext : OnlyNext world after)
    (relinked : lists other after =
      (lists cache world).moveTo (linkAfter (.head name) before) slab target)
    (hasPages : (world.slab slab).page ≠ 0) :
    Consistent other after obtained (moved nodes name (before ++ rest) slab target) where
  owns := by
    rw [sameSizes.pagesPerSlab]
    apply consistent.owns.congr (fun slab _isSlab => onlyNext.page slab)
    intro region isHeld
    rw [onlyNext.held]
    exact isHeld
  holds := by
    rw [relinked]
    exact consistent.holds.moveTo split target
  covers := by
    have wasListed : slab ∈ nodes name := mem_of_split split
    intro later
    by_cases same : later = slab
    · subst same
      exact iff_of_true ⟨target, mem_moved_self name target _ later⟩ (consistent.isSlab wasListed)
    · rw [← consistent.covers later]
      exact exists_congr (fun list => mem_moved_of_ne split same)
  within := by
    intro later isSlab
    rw [onlyNext.bitmap, sameSizes.chunksPerSlab]
    exact consistent.within later isSlab
  counted := by
    intro later isSlab
    rw [onlyNext.bitmap, onlyNext.allocatedChunks]
    exact consistent.counted later isSlab
  attached := by
    intro list notFree later onList
    rw [onlyNext.page]
    by_cases same : later = slab
    · rw [same]
      exact hasPages
    · exact consistent.attached list notFree later ((mem_moved_of_ne split same).mp onList)

/-- After the move every slab is where it belongs, when the others were and
the moved one belongs on its new list. -/
theorem Sorted.move {name target : ListName} {before rest : List Nat} {slab : Nat}
    (consistent : Consistent cache world obtained nodes)
    (split : nodes name = before ++ slab :: rest) (sameSizes : SameSizes cache other)
    (onlyNext : OnlyNext world after)
    (others : ∀ list, ∀ later ∈ nodes list, later ≠ slab →
      BelongsOn (cache.chunksPerSlab m) (world.slab later).allocatedChunks list)
    (belongs : BelongsOn (cache.chunksPerSlab m) (world.slab slab).allocatedChunks target) :
    Sorted other after (moved nodes name (before ++ rest) slab target) := by
  intro list later onList
  rw [onlyNext.allocatedChunks, sameSizes.chunksPerSlab]
  by_cases same : later = slab
  · subst same
    have listed := onList
    have holds := consistent.holds.moveTo split target
    have isTarget : list = target :=
      holds.name_unique listed (mem_moved_self name target (before ++ rest) later)
    rw [isTarget]
    exact belongs
  · exact others list later ((mem_moved_of_ne split same).mp onList) same

theorem Records.relink (records : Records cache world obtained live)
    (sameSizes : SameSizes cache other) (onlyNext : OnlyNext world after) :
    Records other after obtained live where
  nodup := records.nodup
  mem_iff := by
    intro mem
    rw [records.mem_iff, sameSizes.chunkSz]
    simp only [onlyNext.bitmap, onlyNext.page]

/-- `moveSlab` puts a slab with pages where its counter asks for it. -/
theorem moveSlab_spec (consistent : Consistent cache world obtained nodes)
    {name target : ListName} {before rest : List Nat} {slab : Nat}
    (split : nodes name = before ++ slab :: rest) (hasPages : (world.slab slab).page ≠ 0)
    (others : ∀ list, ∀ later ∈ nodes list, later ≠ slab →
      BelongsOn (cache.chunksPerSlab m) (world.slab later).allocatedChunks list)
    (belongs : BelongsOn (cache.chunksPerSlab m) (world.slab slab).allocatedChunks target) :
    Consistent (moveSlab cache world (linkAfter (.head name) before) slab target).1
        (moveSlab cache world (linkAfter (.head name) before) slab target).2 obtained
        (moved nodes name (before ++ rest) slab target) ∧
      Sorted (moveSlab cache world (linkAfter (.head name) before) slab target).1
        (moveSlab cache world (linkAfter (.head name) before) slab target).2
        (moved nodes name (before ++ rest) slab target) := by
  have sameSizes := SameSizes.moveSlab cache world (linkAfter (.head name) before) slab target
  have onlyNext := OnlyNext.moveSlab cache world (linkAfter (.head name) before) slab target
  constructor
  · exact consistent.move split sameSizes onlyNext (lists_moveSlab _ _ _ _ _) hasPages
  · exact Sorted.move consistent split sameSizes onlyNext others belongs

/-! ## The invariant across a change of one slab -/

theorem lists_modify (cache : MemCache) (world : World m) (slab : Nat) (change : Slab m → Slab m)
    (sameNext : (change (world.slab slab)).next = (world.slab slab).next) :
    lists cache (world.modify slab change) = lists cache world := by
  unfold lists
  congr 1
  funext later
  exact OnlyNext.modify_field Slab.next world slab change sameNext later

/-- A change of bitmap and counter that keeps them in step. -/
theorem Consistent.modify (consistent : Consistent cache world obtained nodes) {slab : Nat}
    {change : Slab m → Slab m} (sameNext : (change (world.slab slab)).next = (world.slab slab).next)
    (samePage : (change (world.slab slab)).page = (world.slab slab).page)
    (within : ∀ i, isSet (change (world.slab slab)).bitmap i = true → i < cache.chunksPerSlab m)
    (counted : (change (world.slab slab)).allocatedChunks =
      count (change (world.slab slab)).bitmap (bitmapBits m)) :
    Consistent cache (world.modify slab change) obtained nodes where
  owns := consistent.owns.congr
    (fun later _isSlab => OnlyNext.modify_field Slab.page world slab change samePage later)
    (fun _region isHeld => isHeld)
  holds := by
    rw [lists_modify cache world slab change sameNext]
    exact consistent.holds
  covers := consistent.covers
  within := by
    intro later isSlab
    by_cases same : later = slab
    · rw [same, World.modify_self]
      exact within
    · rw [World.modify_of_ne world change same]
      exact consistent.within later isSlab
  counted := by
    intro later isSlab
    by_cases same : later = slab
    · rw [same, World.modify_self]
      exact counted
    · rw [World.modify_of_ne world change same]
      exact consistent.counted later isSlab
  attached := by
    intro name notFree later onList
    rw [OnlyNext.modify_field Slab.page world slab change samePage later]
    exact consistent.attached name notFree later onList

/-! ## The invariant across a change of a page pointer -/

/-- The page pointer of one slab changes.  The other regions of the cache
are still held, and a page that is attached is shared with nothing. -/
theorem Owns.setPage {pagesPerSlab address slab : Nat} {other : World m}
    (owns : Owns pagesPerSlab world obtained)
    (sameSlab : ∀ later, IsSlab m obtained later → other.slab later = world.slab later)
    (slabPages : ∀ base ∈ obtained, ⟨base, 1⟩ ∈ other.held.regions)
    (chunkPages : ∀ later, IsSlab m obtained later → later ≠ slab → (world.slab later).page ≠ 0 →
      ⟨(world.slab later).page, pagesPerSlab⟩ ∈ other.held.regions)
    (isRegion : address ≠ 0 → ⟨address, pagesPerSlab⟩ ∈ other.held.regions ∧
      m.pageSize ∣ address ∧ address + pagesPerSlab * m.pageSize ≤ m.wordLimit)
    (unshared : address ≠ 0 → ∀ later, IsSlab m obtained later → (world.slab later).page ≠ address)
    (separate : address ≠ 0 → address ∉ obtained) :
    Owns pagesPerSlab (other.modify slab (fun s => { s with page := address })) obtained := by
  have pageOf : ∀ later, IsSlab m obtained later →
      ((other.modify slab (fun s => { s with page := address })).slab later).page =
        if later = slab then address else (world.slab later).page := by
    intro later isSlab
    by_cases same : later = slab
    · rw [if_pos same, same, World.modify_self]
    · rw [if_neg same, World.modify_of_ne _ _ same, sameSlab later isSlab]
  constructor
  · exact owns.nodup
  · exact fun base isMember => ⟨(owns.slabPage base isMember).1, slabPages base isMember⟩
  · intro later isSlab attached
    rw [pageOf later isSlab] at attached ⊢
    by_cases same : later = slab
    · rw [if_pos same] at attached ⊢
      exact isRegion attached
    · rw [if_neg same] at attached ⊢
      exact ⟨chunkPages later isSlab same attached, (owns.chunkPages later isSlab attached).2⟩
  · intro later second isSlab alsoSlab attached samePage
    rw [pageOf later isSlab] at attached samePage
    rw [pageOf second alsoSlab] at samePage
    by_cases same : later = slab
    · by_cases alsoSame : second = slab
      · rw [same, alsoSame]
      · rw [if_pos same] at attached samePage
        rw [if_neg alsoSame] at samePage
        exact absurd samePage.symm (unshared attached second alsoSlab)
    · rw [if_neg same] at attached samePage
      by_cases alsoSame : second = slab
      · rw [if_pos alsoSame] at samePage
        rw [samePage] at attached
        exact absurd samePage (unshared attached later isSlab)
      · rw [if_neg alsoSame] at samePage
        exact owns.unshared later second isSlab alsoSlab attached samePage
  · intro later isSlab attached
    rw [pageOf later isSlab] at attached ⊢
    by_cases same : later = slab
    · rw [if_pos same] at attached ⊢
      exact separate attached
    · rw [if_neg same] at attached ⊢
      exact owns.separate later isSlab attached

/-- No bit of a free slab is set. -/
theorem Books.clear_of_free (books : Books cache world obtained live nodes) {slab : Nat}
    (onList : slab ∈ nodes .free) (i : Nat) : isSet (world.slab slab).bitmap i = false := by
  have isSlab := books.consistent.isSlab onList
  have none : (world.slab slab).allocatedChunks = 0 := books.sorted .free slab onList
  rw [books.consistent.counted slab isSlab] at none
  exact (count_eq_zero_iff (books.inBitmap slab isSlab) (Nat.le_refl _)).mp none i

/-- Pages may come to a free slab and go from it, since no chunk of it is in
use. -/
theorem Books.setPage (books : Books cache world obtained live nodes) {other : World m}
    {address slab : Nat}
    (sameSlab : ∀ later, IsSlab m obtained later → other.slab later = world.slab later)
    (onList : slab ∈ nodes .free)
    (owns : Owns cache.pagesPerSlab (other.modify slab (fun s => { s with page := address }))
      obtained) :
    Books cache (other.modify slab (fun s => { s with page := address })) obtained live nodes := by
  have consistent := books.consistent
  have next : ∀ later, IsSlab m obtained later →
      ((other.modify slab (fun s => { s with page := address })).slab later).next =
        (world.slab later).next := by
    intro later isSlab
    rw [← sameSlab later isSlab]
    exact OnlyNext.modify_field Slab.next other slab (fun s => { s with page := address }) rfl later
  have bitmap : ∀ later, IsSlab m obtained later →
      ((other.modify slab (fun s => { s with page := address })).slab later).bitmap =
        (world.slab later).bitmap := by
    intro later isSlab
    rw [← sameSlab later isSlab]
    exact OnlyNext.modify_field Slab.bitmap other slab (fun s => { s with page := address })
      rfl later
  have counter : ∀ later, IsSlab m obtained later →
      ((other.modify slab (fun s => { s with page := address })).slab later).allocatedChunks =
        (world.slab later).allocatedChunks := by
    intro later isSlab
    rw [← sameSlab later isSlab]
    exact OnlyNext.modify_field Slab.allocatedChunks other slab
      (fun s => { s with page := address })
      rfl later
  have page : ∀ later, IsSlab m obtained later → later ≠ slab →
      ((other.modify slab (fun s => { s with page := address })).slab later).page =
        (world.slab later).page := by
    intro later isSlab different
    rw [World.modify_of_ne _ _ different, sameSlab later isSlab]
  refine ⟨books.sizes, books.inBitmap.congr bitmap, ⟨owns, ?_, consistent.covers, ?_, ?_, ?_⟩, ?_,
    books.records.nodup, ?_⟩
  · refine Holds.congr consistent.holds (fun _name => rfl) ?_
    exact fun name later isMember => next later (consistent.isSlab isMember)
  · intro later isSlab
    rw [bitmap later isSlab]
    exact consistent.within later isSlab
  · intro later isSlab
    rw [bitmap later isSlab, counter later isSlab]
    exact consistent.counted later isSlab
  · intro name notFree later isMember
    have different : later ≠ slab := by
      intro same
      rw [same] at isMember
      exact notFree (consistent.holds.name_unique isMember onList)
    rw [page later (consistent.isSlab isMember) different]
    exact consistent.attached name notFree later isMember
  · intro name later isMember
    rw [counter later (consistent.isSlab isMember)]
    exact books.sorted name later isMember
  · intro mem
    rw [books.records.mem_iff]
    refine exists_congr
      (fun later => exists_congr (fun index => and_congr_right (fun isSlab => ?_)))
    rw [bitmap later isSlab]
    apply and_congr_right
    intro set
    have different : later ≠ slab := by
      intro same
      rw [same, books.clear_of_free onList index] at set
      cases set
    rw [page later isSlab different]

end SlabCache
end ShovelOS
