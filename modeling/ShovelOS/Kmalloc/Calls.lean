import ShovelOS.Kmalloc.Pools

namespace ShovelOS
namespace Kmalloc

open SlabCache LinkedList Bitmap

/-!
# The calls of kmalloc and kfree

Both calls keep the pools in order.  `kmalloc` opens the pool if need be and
adds a chunk to it.  `kfree` stops at the first pool that accepts the address,
and the pools before it have not changed.  An address is live in one pool at
most, since the pools use different regions, and this pool accepts it unless it
lies in the last page of the address space.
-/

variable {m : Machine} {heap : Heap m} {obtained live : Pool → List Nat}

/-! ## The sizes of the pools -/

theorem pools_chunkSize (pool : Pool) : (_pools pool).chunkSize = 2 ^ (pool.val + 5) := by
  revert pool
  decide

theorem pools_pages (pool : Pool) : (_pools pool).pages = 1 := by
  revert pool
  decide

/-- The chunk sizes of the pools divide the page size. -/
theorem pools_shape (isPageSize : m.pageSize = 4096) (pool : Pool) (gfpFlags : BitVec 32)
    (fits : bitmapWords m (_pools pool).pages (_pools pool).chunkSize ≤ maxBitmapWords m) :
    Shape m ⟨(_pools pool).pages, (_pools pool).chunkSize, gfpFlags, 0, 0, 0⟩ where
  one_le_pagesPerSlab := Nat.le_of_eq (pools_pages pool).symm
  noOverflow := by
    have large := m.two_pow_32_le_wordLimit
    dsimp only
    rw [pools_pages, isPageSize]
    omega
  powerOfTwo := ⟨pool.val + 5, pools_chunkSize pool⟩
  dvd_pageSize := by
    dsimp only
    rw [pools_chunkSize, isPageSize]
    exact Nat.pow_dvd_pow 2 (show pool.val + 5 ≤ 12 by omega)
  bitmapFits := fits

/-- The pool that is chosen has chunks that are large enough. -/
theorem le_of_poolFor {size : Nat} {gfpFlags : BitVec 32} {pool : Pool}
    (chosen : poolFor size gfpFlags = some pool) : size ≤ (_pools pool).chunkSize := by
  have suits := List.find?_some chosen
  rw [decide_eq_true_eq] at suits
  exact suits.2

/-! ## Opening a pool -/

/-- `mem_cache_new` fails, or makes a cache with empty lists. -/
theorem memCacheNew_cases {root : RootMemCache} (notNull : root.memCache ≠ 0) {chunkSz : Nat}
    (positive : chunkSz ≠ 0) (pagesPerSlab : Nat) (gfpFlags : BitVec 32) :
    ∃ new, memCacheNew m root pagesPerSlab chunkSz gfpFlags = some new ∧
      new.root.memCache = root.memCache ∧
      (new.err ≠ 0 ∨ new.err = 0 ∧
        new.memCache = some ⟨pagesPerSlab, chunkSz, gfpFlags, 0, 0, 0⟩ ∧
        bitmapWords m pagesPerSlab chunkSz ≤ maxBitmapWords m) := by
  have failed : (-1 : Int) ≠ 0 := by decide
  unfold memCacheNew
  rw [if_neg notNull]
  by_cases room : root.cachesUsed < root.cachesTotoal
  · rw [if_pos room, if_neg positive]
    by_cases large : maxBitmapWords m < bitmapWords m pagesPerSlab chunkSz
    · rw [if_pos large]
      exact ⟨_, rfl, rfl, Or.inl failed⟩
    · rw [if_neg large]
      exact ⟨_, rfl, rfl, Or.inr ⟨rfl, rfl, Nat.le_of_not_lt large⟩⟩
  · rw [if_neg room]
    exact ⟨_, rfl, rfl, Or.inl failed⟩

namespace Sound

/-- Only the address of the page of the `mem_cache` structures matters. -/
theorem root (sound : Sound heap obtained live) {root : RootMemCache}
    (sameRoot : root.memCache = heap.root.memCache) :
    Sound { heap with root := root } obtained live where
  rootNotNull := by
    rw [sameRoot]
    exact sound.rootNotNull
  rootHeld := by
    rw [sameRoot]
    exact sound.rootHeld
  rootApart := by
    rw [sameRoot]
    exact sound.rootApart
  apart := sound.apart
  closed := sound.closed
  ofPool := sound.ofPool
  invariant := sound.invariant

end Sound

theorem openPool_spec (isPageSize : m.pageSize = 4096) (sound : Sound heap obtained live)
    (pool : Pool) : ∃ after opened, openPool heap pool = some (after, opened) ∧
      Sound after obtained live ∧
      ∀ cache, opened = some cache → after.poolsMemCache pool = some cache := by
  unfold openPool
  cases isOpen : heap.poolsMemCache pool with
  | some cache => exact ⟨heap, some cache, rfl, sound, fun _other same => isOpen.trans same⟩
  | none =>
      have positive : (_pools pool).chunkSize ≠ 0 := by
        rw [pools_chunkSize]
        exact Nat.ne_of_gt (Nat.two_pow_pos _)
      rcases memCacheNew_cases (m := m) sound.rootNotNull positive (_pools pool).pages
        (_pools pool).gfpFlags with ⟨new, isNew, sameRoot, failed | ⟨isZero, isCache, fits⟩⟩
      · dsimp only
        rw [isNew, Option.bind_eq_bind, Option.bind_some, if_pos failed]
        refine ⟨_, none, rfl, sound.root sameRoot, fun _cache same => ?_⟩
        cases same
      · dsimp only
        rw [isNew, Option.bind_eq_bind, Option.bind_some, if_neg (not_not.mpr isZero), isCache]
        refine ⟨_, _, rfl, ?_, fun cache same => ?_⟩
        · have shape := pools_shape isPageSize pool (_pools pool).gfpFlags fits
          have invariant := (Books.boot shape.sizes heap.world).invariant shape
          rcases sound.closed pool isOpen with ⟨noPages, noChunks⟩
          have opened := (sound.root sameRoot).setPool (Confined.refl 1 heap.world (obtained pool))
            ⟨pools_pages pool, rfl⟩ (by rw [noPages]; exact ⟨_, invariant⟩)
          rw [← noChunks, Function.update_eq_self, Function.update_eq_self] at opened
          exact opened
        · rw [← same]
          exact Function.update_self _ _ _

/-! ## Live chunks -/

namespace Sound

/-- A live chunk lies in a region that its pool uses, which ends at most with
the address space. -/
theorem live_region (sound : Sound heap obtained live) {pool : Pool} {mem : Nat}
    (isLive : mem ∈ live pool) : ∃ address, Uses 1 heap.world (obtained pool) ⟨address, 1⟩ ∧
      address ≠ 0 ∧ m.pageSize ∣ address ∧ address + m.pageSize ≤ m.wordLimit ∧ address ≤ mem ∧
      mem + (_pools pool).chunkSize ≤ address + m.pageSize := by
  cases isOpen : heap.poolsMemCache pool with
  | none =>
      rw [(sound.closed pool isOpen).2] at isLive
      cases isLive
  | some cache =>
      rcases sound.invariant pool cache isOpen with ⟨nodes, invariant⟩
      rcases sound.ofPool pool cache isOpen with ⟨onePage, chunkSz⟩
      rcases invariant.books.live_inside isLive with ⟨slab, isSlab, attached, _isHeld, lower, upper⟩
      have pages := invariant.consistent.owns.chunkPages slab isSlab attached
      rw [onePage, Nat.one_mul] at pages upper
      rw [chunkSz] at upper
      exact ⟨_, Or.inr ⟨slab, isSlab, attached, rfl⟩, attached, pages.2.1, pages.2.2, lower, upper⟩

/-- Live chunks are apart when they differ, and in different pools anyway. -/
theorem live_apart (sound : Sound heap obtained live) {pool other : Pool} {mem second : Nat}
    (isLive : mem ∈ live pool) (alsoLive : second ∈ live other)
    (different : pool ≠ other ∨ mem ≠ second) :
    mem + (_pools pool).chunkSize ≤ second ∨ second + (_pools other).chunkSize ≤ mem := by
  by_cases samePool : pool = other
  · subst samePool
    have notSame := different.resolve_left (not_not.mpr rfl)
    cases isOpen : heap.poolsMemCache pool with
    | none =>
        rw [(sound.closed pool isOpen).2] at isLive
        cases isLive
    | some cache =>
        rcases sound.invariant pool cache isOpen with ⟨nodes, invariant⟩
        rw [← (sound.ofPool pool cache isOpen).chunkSz]
        exact invariant.books.apart_of_ne isLive alsoLive notSame
  · rcases sound.live_region isLive with ⟨address, uses, _, _, _, lower, upper⟩
    rcases sound.live_region alsoLive with ⟨next, alsoUses, _, _, _, alsoLower, alsoUpper⟩
    have regionsDiffer : (⟨address, 1⟩ : Region) ≠ ⟨next, 1⟩ := by
      intro same
      rw [same] at uses
      exact sound.apart pool other samePool _ uses alsoUses
    have apart := Held.apart_of_ne (sound.uses_held uses) (sound.uses_held alsoUses) regionsDiffer
    rw [Region.Apart] at apart
    dsimp only at apart
    omega

/-- So a chunk is live in one pool only. -/
theorem live_pool_unique (sound : Sound heap obtained live) {pool other : Pool} {mem : Nat}
    (isLive : mem ∈ live pool) (alsoLive : mem ∈ live other) : pool = other := by
  by_contra different
  have apart := sound.live_apart isLive alsoLive (Or.inl different)
  have positive : 0 < (_pools pool).chunkSize := by
    rw [pools_chunkSize]
    exact Nat.two_pow_pos _
  have alsoPositive : 0 < (_pools other).chunkSize := by
    rw [pools_chunkSize]
    exact Nat.two_pow_pos _
  omega

theorem zero_not_live (sound : Sound heap obtained live) (pool : Pool) : 0 ∉ live pool := by
  intro isLive
  rcases sound.live_region isLive with ⟨address, _uses, notNull, _aligned, _inside, lower, _upper⟩
  exact notNull (Nat.le_zero.mp lower)

theorem live_nodup (sound : Sound heap obtained live) (pool : Pool) : (live pool).Nodup := by
  cases isOpen : heap.poolsMemCache pool with
  | none =>
      rw [(sound.closed pool isOpen).2]
      exact List.nodup_nil
  | some cache =>
      rcases sound.invariant pool cache isOpen with ⟨nodes, invariant⟩
      exact invariant.records.nodup

/-- A live chunk lies in the last pages exactly when it lies in the last page. -/
theorem inLastPages_iff (sound : Sound heap obtained live) {pool : Pool} {cache : MemCache}
    (isOpen : heap.poolsMemCache pool = some cache) {mem : Nat} (isLive : mem ∈ live pool) :
    InLastPages cache heap.world (obtained pool) mem ↔ m.wordLimit ≤ mem + m.pageSize := by
  rcases sound.invariant pool cache isOpen with ⟨nodes, invariant⟩
  rcases sound.ofPool pool cache isOpen with ⟨onePage, _chunkSz⟩
  constructor
  · rintro ⟨slab, _isSlab, _attached, last, lower, _upper⟩
    rw [onePage, Nat.one_mul] at last
    omega
  · intro atEnd
    rcases invariant.books.live_inside isLive with ⟨slab, isSlab, attached, _isHeld, lower, upper⟩
    have pages := invariant.consistent.owns.chunkPages slab isSlab attached
    have positive := invariant.shape.chunkSz_pos
    refine ⟨slab, isSlab, attached, ?_, lower, by omega⟩
    rw [onePage, Nat.one_mul] at pages upper ⊢
    -- the pages are aligned, and there is no room for another behind them
    have aligned := Nat.dvd_sub (pageSize_dvd_wordLimit m) (Nat.dvd_add pages.2.1 (Nat.dvd_refl _))
    have none := Nat.eq_zero_of_dvd_of_lt aligned (by omega)
    omega

end Sound

/-! ## kmalloc -/

theorem kmalloc_spec (isPageSize : m.pageSize = 4096) (sound : Sound heap obtained live)
    (allocator : PageAllocator m) (size : Nat) (gfpFlags : BitVec 32) :
    ∃ result, kmalloc allocator heap size gfpFlags = some result ∧
      ((poolFor size gfpFlags = none ∧ result.address = 0 ∧ result.heap = heap) ∨
        ∃ pool, poolFor size gfpFlags = some pool ∧
          Sound result.heap (Function.update obtained pool (result.obtained ++ obtained pool))
            (Function.update live pool
              (if result.address = 0 then live pool else result.address :: live pool))) := by
  unfold kmalloc
  cases chosen : poolFor size gfpFlags with
  | none => exact ⟨_, rfl, Or.inl ⟨rfl, rfl, rfl⟩⟩
  | some pool =>
      rcases openPool_spec isPageSize sound pool with ⟨after, opened, isOpened, soundAfter, isOpen⟩
      dsimp only
      rw [isOpened, Option.bind_eq_bind, Option.bind_some]
      cases opened with
      | none =>
          refine ⟨_, rfl, Or.inr ⟨pool, rfl, ?_⟩⟩
          rw [if_pos rfl, List.nil_append, Function.update_eq_self, Function.update_eq_self]
          exact soundAfter
      | some cache =>
          have isCache := isOpen cache rfl
          rcases soundAfter.invariant pool cache isCache with ⟨nodes, invariant⟩
          have ofPool := soundAfter.ofPool pool cache isCache
          have returns := (memCacheAlloc_books allocator invariant.books).resolve_right
            fun stuck => stuck.2 invariant.shape.hasBits
          rcases returns with ⟨result, returned, sameSizes, confined, ⟨final, books⟩, _refused⟩
          have shape := sameSizes.shape invariant.shape
          dsimp only
          rw [returned, Option.bind_eq_bind, Option.bind_some]
          refine ⟨_, rfl, Or.inr ⟨pool, rfl, ?_⟩⟩
          rw [ofPool.pagesPerSlab] at confined
          dsimp only
          by_cases clears : result.address ≠ 0 ∧ gfpFlags &&& gfpZero ≠ 0#32
          · rw [if_pos clears]
            have isLive : result.address ∈
                if result.address = 0 then live pool else result.address :: live pool := by
              rw [if_neg clears.1]
              exact List.mem_cons_self
            have within : size ≤ result.cache.chunkSz := by
              rw [(ofPool.sameSizes sameSizes).chunkSz]
              exact le_of_poolFor chosen
            rcases books.memset isLive within with ⟨kept, clearing⟩
            rw [(ofPool.sameSizes sameSizes).pagesPerSlab] at clearing
            exact soundAfter.setPool (confined.trans clearing) (ofPool.sameSizes sameSizes)
              ⟨final, kept.invariant shape⟩
          · rw [if_neg clears]
            exact soundAfter.setPool confined (ofPool.sameSizes sameSizes)
              ⟨final, books.invariant shape⟩

/-! ## kfree -/

/-- A cache that has rejected an address is as it was. -/
theorem setPool_self {pool : Pool} {cache : MemCache}
    (isOpen : heap.poolsMemCache pool = some cache) :
    heap.setPool pool cache heap.world = heap := by
  unfold Heap.setPool
  rw [← isOpen, Function.update_eq_self]

/-- One pool offered an address: it rejects it and has not changed, or it gives the
chunk back. -/
theorem poolFree_spec (sound : Sound heap obtained live) {mem : Nat} (notNull : mem ≠ 0)
    {pool : Pool} {cache : MemCache} (isOpen : heap.poolsMemCache pool = some cache) :
    ∃ result, memCacheFree cache heap.world mem = some result ∧
      ((result.err ≠ 0 ∧ heap.setPool pool result.cache result.world = heap ∧
          (mem ∈ live pool → m.wordLimit ≤ mem + m.pageSize)) ∨
        result.err = 0 ∧ mem ∈ live pool ∧ mem + m.pageSize < m.wordLimit ∧
          Sound (heap.setPool pool result.cache result.world) obtained
            (Function.update live pool ((live pool).erase mem))) := by
  rcases sound.invariant pool cache isOpen with ⟨nodes, invariant⟩
  have ofPool := sound.ofPool pool cache isOpen
  rcases memCacheFree_spec invariant mem with ⟨result, returned, freed⟩
  rcases invariant.settled mem with ⟨again, alsoReturned, settled⟩
  rw [returned, Option.some.injEq] at alsoReturned
  subst alsoReturned
  have accepted : result.err = 0 ↔
      mem ∈ live pool ∧ ¬InLastPages cache heap.world (obtained pool) mem := by
    rw [settled.accepted_iff, invariant.accepts_iff, or_iff_right notNull]
  refine ⟨result, returned, ?_⟩
  by_cases isAccepted : result.err = 0
  · rcases accepted.mp isAccepted with ⟨isLive, notLast⟩
    rw [sound.inLastPages_iff isOpen isLive, Nat.not_le] at notLast
    have kept := freed.invariant
    rw [if_pos isAccepted] at kept
    have confined := settled.confined
    rw [ofPool.pagesPerSlab] at confined
    have after := sound.setPool confined (ofPool.sameSizes freed.sameSizes) kept
    rw [Function.update_eq_self] at after
    exact Or.inr ⟨isAccepted, isLive, notLast, after⟩
  · rcases freed.rejected isAccepted with ⟨sameCache, sameWorld⟩
    rw [sameCache, sameWorld, setPool_self isOpen]
    refine Or.inl ⟨isAccepted, rfl, fun isLive => ?_⟩
    rw [← sound.inLastPages_iff isOpen isLive]
    exact not_not.mp fun notLast => isAccepted (accepted.mpr ⟨isLive, notLast⟩)

/-- The loop of `kfree` stops at the first pool that accepts the address. -/
theorem kfreeFrom_spec (sound : Sound heap obtained live) {mem : Nat} (notNull : mem ≠ 0)
    (pools : List Pool) : ∃ result, kfreeFrom pools heap mem = some result ∧
      ((result = ⟨-1, heap⟩ ∧ ∀ pool ∈ pools, mem ∈ live pool → m.wordLimit ≤ mem + m.pageSize) ∨
        result.err = 0 ∧ ∃ pool, mem ∈ live pool ∧ mem + m.pageSize < m.wordLimit ∧
          Sound result.heap obtained (Function.update live pool ((live pool).erase mem))) := by
  induction pools with
  | nil => exact ⟨_, rfl, Or.inl ⟨rfl, fun pool isMember => (by cases isMember)⟩⟩
  | cons pool pools inductionHypothesis =>
      rcases inductionHypothesis with ⟨last, isLast, outcome⟩
      -- when this pool rejects the address, the others decide
      have rejected : (mem ∈ live pool → m.wordLimit ≤ mem + m.pageSize) →
          (last = ⟨-1, heap⟩ ∧
            ∀ other ∈ pool :: pools, mem ∈ live other → m.wordLimit ≤ mem + m.pageSize) ∨
          last.err = 0 ∧ ∃ other, mem ∈ live other ∧ mem + m.pageSize < m.wordLimit ∧
            Sound last.heap obtained (Function.update live other ((live other).erase mem)) := by
        intro notHere
        refine outcome.imp_left fun ⟨isRejected, notLater⟩ => ⟨isRejected, ?_⟩
        exact List.forall_mem_cons.mpr ⟨notHere, notLater⟩
      unfold kfreeFrom
      cases isOpen : heap.poolsMemCache pool with
      | none =>
          refine ⟨last, isLast, rejected fun isLive => ?_⟩
          rw [(sound.closed pool isOpen).2] at isLive
          cases isLive
      | some cache =>
          rcases poolFree_spec sound notNull isOpen with
            ⟨result, returned, ⟨isRejected, same, inLast⟩ | ⟨isAccepted, isLive, notLast, after⟩⟩
          · simp only [returned, Option.bind_eq_bind, Option.bind_some, if_neg isRejected, same]
            exact ⟨last, isLast, rejected inLast⟩
          · simp only [returned, Option.bind_eq_bind, Option.bind_some, if_pos isAccepted]
            exact ⟨_, rfl, Or.inr ⟨rfl, pool, isLive, notLast, after⟩⟩

/-- `kfree` returns.  It rejects an address that is not live or lies in the last
page, and nothing has changed.  Otherwise the chunk is given back. -/
theorem kfree_spec (sound : Sound heap obtained live) (mem : Nat) :
    ∃ result, kfree heap mem = some result ∧
      ((result = ⟨-1, heap⟩ ∧ mem ≠ 0 ∧ ∀ pool, mem ∈ live pool → m.wordLimit ≤ mem + m.pageSize) ∨
        result.err = 0 ∧ Sound result.heap obtained (fun pool => (live pool).erase mem) ∧
          (mem = 0 ∨ ∃ pool, mem ∈ live pool ∧ mem + m.pageSize < m.wordLimit)) := by
  unfold kfree
  by_cases isNull : mem = 0
  · rw [if_pos isNull]
    refine ⟨_, rfl, Or.inr ⟨rfl, ?_, Or.inl isNull⟩⟩
    have unchanged : (fun pool => (live pool).erase mem) = live := by
      funext pool
      rw [isNull]
      exact List.erase_of_not_mem (sound.zero_not_live pool)
    rw [unchanged]
    exact sound
  · rw [if_neg isNull]
    rcases kfreeFrom_spec sound isNull (List.finRange 7) with
      ⟨result, returned, ⟨isRejected, inLast⟩ | ⟨isAccepted, pool, isLive, notLast, after⟩⟩
    · exact ⟨result, returned, Or.inl ⟨isRejected, isNull, fun pool =>
        inLast pool (List.mem_finRange pool)⟩⟩
    · refine ⟨result, returned, Or.inr ⟨isAccepted, ?_, Or.inr ⟨pool, isLive, notLast⟩⟩⟩
      have onlyHere : Function.update live pool ((live pool).erase mem) =
          fun pool => (live pool).erase mem := by
        funext other
        by_cases same : other = pool
        · rw [same, Function.update_self]
        · rw [Function.update_of_ne same, List.erase_of_not_mem]
          exact fun alsoLive => same (sound.live_pool_unique alsoLive isLive)
      rw [← onlyHere]
      exact after

end Kmalloc
end ShovelOS
