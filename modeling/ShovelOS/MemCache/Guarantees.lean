import ShovelOS.MemCache.Release
import ShovelOS.Library.Transition

namespace ShovelOS
namespace SlabCache

open LinkedList Bitmap

/-!
# Runs of a cache

A cache that `mem_cache_new` has accepted is driven by calls.  Each call of
`mem_cache_alloc` comes with the answers that the page allocator gives during
it, so that the list of calls covers every pattern of refusals.  A call of
`mem_cache_free` may name any address.

The state keeps the pages that `_more_slabs` has obtained and the chunks that
callers hold, as the calls return them.
-/

variable {m : Machine}

/-- A cache that `mem_cache_new` has accepted, with at least one page per
slab and a chunk size that is a power of two dividing the page size. -/
structure AcceptedCache (m : Machine) where
  root : RootMemCache
  pagesPerSlab : Nat
  chunkSz : Nat
  gfpFlags : BitVec 32
  rootAfter : RootMemCache
  cache : MemCache
  accepted : memCacheNew m root pagesPerSlab chunkSz gfpFlags = some ⟨0, rootAfter, some cache⟩
  one_le_pagesPerSlab : 1 ≤ pagesPerSlab
  noOverflow : pagesPerSlab * m.pageSize < m.wordLimit
  powerOfTwo : ∃ shift, chunkSz = 2 ^ shift
  dvd_pageSize : chunkSz ∣ m.pageSize

structure CacheState (m : Machine) where
  cache : MemCache
  world : World m
  obtained : List Nat
  live : List Nat

/-- The calls, with the page allocator that a call meets. -/
inductive Call (m : Machine) where
  | alloc (allocator : PageAllocator m)
  | free (mem : BitVec m.wordTBits)

def step (s : CacheState m) : Call m → Option (CacheState m)
  | .alloc allocator => do
      let result ← memCacheAlloc allocator s.cache s.world
      return ⟨result.cache, result.world, result.obtained ++ s.obtained,
        if result.address = 0 then s.live else result.address :: s.live⟩
  | .free mem => do
      let result ← memCacheFree s.cache s.world mem.toNat
      return ⟨result.cache, result.world, s.obtained,
        if result.err = 0 then s.live.erase mem.toNat else s.live⟩

/-- What `mem_cache_new` has accepted: the sizes asked for, with empty lists and
a bitmap that is not too large. -/
theorem memCacheNew_accepted {root rootAfter : RootMemCache} {pagesPerSlab chunkSz : Nat}
    {gfpFlags : BitVec 32} {cache : MemCache}
    (accepted : memCacheNew m root pagesPerSlab chunkSz gfpFlags =
      some ⟨0, rootAfter, some cache⟩) :
    cache = ⟨pagesPerSlab, chunkSz, gfpFlags, 0, 0, 0⟩ ∧
      bitmapWords m pagesPerSlab chunkSz ≤ maxBitmapWords m := by
  unfold memCacheNew at accepted
  split at accepted
  · cases accepted
  · split at accepted
    · split at accepted
      · cases accepted
      · split at accepted
        · cases accepted
        · rename_i fits
          have same := congrArg (fun new : Option NewCache => new.bind NewCache.memCache) accepted
          exact ⟨(Option.some.inj same).symm, Nat.le_of_not_lt fits⟩
    · cases accepted

theorem Books.boot {pagesPerSlab chunkSz : Nat} {gfpFlags : BitVec 32}
    (sizes : Sizes m ⟨pagesPerSlab, chunkSz, gfpFlags, 0, 0, 0⟩) (world : World m) :
    Books ⟨pagesPerSlab, chunkSz, gfpFlags, 0, 0, 0⟩ world [] [] (fun _name => []) := by
  have noSlab : ∀ slab, ¬IsSlab m [] slab := by
    rintro slab ⟨base, isMember, _onPage⟩
    cases isMember
  refine ⟨sizes, fun slab isSlab => absurd isSlab (noSlab slab),
    ⟨⟨List.nodup_nil, ?_, ?_, ?_, ?_⟩, ⟨?_, ?_, ?_⟩, ?_, ?_, ?_, ?_⟩, ?_, List.nodup_nil, ?_⟩
  · intro base isMember
    cases isMember
  · exact fun slab isSlab => absurd isSlab (noSlab slab)
  · exact fun slab _other isSlab => absurd isSlab (noSlab slab)
  · exact fun slab isSlab => absurd isSlab (noSlab slab)
  · intro name
    cases name <;> rfl
  · exact fun _name => List.nodup_nil
  · intro _name _other _different slab isMember
    cases isMember
  · intro slab
    refine iff_of_false ?_ (noSlab slab)
    rintro ⟨name, isMember⟩
    cases isMember
  · exact fun slab isSlab => absurd isSlab (noSlab slab)
  · exact fun slab isSlab => absurd isSlab (noSlab slab)
  · intro _name _notFree slab isMember
    cases isMember
  · intro _name slab isMember
    cases isMember
  · intro mem
    refine iff_of_false (by simp) ?_
    rintro ⟨slab, index, isSlab, _found⟩
    exact noSlab slab isSlab

namespace AcceptedCache

def boot (created : AcceptedCache m) (world : World m) : CacheState m :=
  ⟨created.cache, world, [], []⟩

theorem cache_eq (created : AcceptedCache m) :
    created.cache = ⟨created.pagesPerSlab, created.chunkSz, created.gfpFlags, 0, 0, 0⟩ ∧
      bitmapWords m created.pagesPerSlab created.chunkSz ≤ maxBitmapWords m :=
  memCacheNew_accepted created.accepted

theorem shape (created : AcceptedCache m) : Shape m created.cache := by
  rcases created.cache_eq with ⟨isCache, fits⟩
  rw [isCache]
  exact ⟨created.one_le_pagesPerSlab, created.noOverflow, created.powerOfTwo, created.dvd_pageSize,
    fits⟩

theorem invariant_boot (created : AcceptedCache m) (world : World m) :
    Invariant created.cache world [] [] (fun _name => []) := by
  have sizes := created.shape.sizes
  have isNew := created.cache_eq.1
  rw [isNew] at sizes
  have books := Books.boot sizes world
  rw [← isNew] at books
  exact books.invariant created.shape

end AcceptedCache

/-- The invariant of a run: the sizes are the ones asked for. -/
def Sound (cache : MemCache) (s : CacheState m) : Prop :=
  SameSizes cache s.cache ∧ ∃ nodes, Invariant s.cache s.world s.obtained s.live nodes

theorem Sound.step {cache : MemCache} {s : CacheState m} (sound : Sound cache s) (call : Call m) :
    ∃ next, SlabCache.step s call = some next ∧ Sound cache next := by
  rcases sound with ⟨sameSizes, nodes, invariant⟩
  cases call with
  | alloc allocator =>
      rcases memCacheAlloc_spec allocator invariant with ⟨result, returned, allocated⟩
      have stepped : SlabCache.step s (.alloc allocator) =
          some ⟨result.cache, result.world, result.obtained ++ s.obtained,
            if result.address = 0 then s.live else result.address :: s.live⟩ := by
        simp only [SlabCache.step, returned, Option.bind_eq_bind, Option.bind_some]
        rfl
      exact ⟨_, stepped, sameSizes.trans allocated.sameSizes, allocated.invariant⟩
  | free mem =>
      rcases memCacheFree_spec invariant mem.toNat with ⟨result, returned, freed⟩
      have stepped : SlabCache.step s (.free mem) =
          some ⟨result.cache, result.world, s.obtained,
            if result.err = 0 then s.live.erase mem.toNat else s.live⟩ := by
        simp only [SlabCache.step, returned, Option.bind_eq_bind, Option.bind_some]
        rfl
      exact ⟨_, stepped, sameSizes.trans freed.sameSizes, freed.invariant⟩

/-! ## The representation of a cache -/

/-- The slabs of a cache, its bitmaps and counters, and the chunks that
callers hold. -/
structure WellFormed (created : AcceptedCache m) (s : CacheState m) (nodes : ListName → List Nat) :
    Prop where
  /-- `nodes` are the slabs that the heads and the `next` pointers lead to. -/
  chain : ∀ name, Chain 0 (fun slab => (s.world.slab slab).next) (s.cache.head name) (nodes name)
  nodup : ∀ name, (nodes name).Nodup
  /-- Each slab obtained is on exactly one list, and nothing else is. -/
  onOne : ∀ slab, IsSlab m s.obtained slab → ∃! name, slab ∈ nodes name
  noOther : ∀ name, ∀ slab ∈ nodes name, IsSlab m s.obtained slab
  counted : ∀ slab, IsSlab m s.obtained slab →
    (s.world.slab slab).allocatedChunks = count (s.world.slab slab).bitmap (bitmapBits m)
  within : ∀ slab, IsSlab m s.obtained slab → ∀ i, isSet (s.world.slab slab).bitmap i = true →
    i < created.cache.chunksPerSlab m
  sorted : ∀ name, ∀ slab ∈ nodes name,
    BelongsOn (created.cache.chunksPerSlab m) (s.world.slab slab).allocatedChunks name
  /-- The chunks that callers hold do not overlap. -/
  apart : s.live.Pairwise (fun mem other =>
    mem + created.chunkSz ≤ other ∨ other + created.chunkSz ≤ mem)
  /-- Each lies inside pages of a slab, which are held. -/
  inside : ∀ mem ∈ s.live, ∃ slab, IsSlab m s.obtained slab ∧
    ⟨(s.world.slab slab).page, created.pagesPerSlab⟩ ∈ s.world.held.regions ∧
    (s.world.slab slab).page ≤ mem ∧
    mem + created.chunkSz ≤ (s.world.slab slab).page + created.pagesPerSlab * m.pageSize

theorem Sound.wellFormed {created : AcceptedCache m} {s : CacheState m}
    (sound : Sound created.cache s) : ∃ nodes, WellFormed created s nodes := by
  rcases sound with ⟨sameSizes, nodes, invariant⟩
  have consistent := invariant.consistent
  have isCache := created.cache_eq.1
  have chunkSz : s.cache.chunkSz = created.chunkSz := by
    rw [sameSizes.chunkSz, isCache]
  have pagesPerSlab : s.cache.pagesPerSlab = created.pagesPerSlab := by
    rw [sameSizes.pagesPerSlab, isCache]
  refine ⟨nodes, consistent.holds.chain, consistent.holds.nodup, ?_,
    fun name slab onList => consistent.isSlab onList, consistent.counted, ?_, ?_, ?_, ?_⟩
  · intro slab isSlab
    rcases (consistent.covers slab).mpr isSlab with ⟨name, onList⟩
    exact ⟨name, onList, fun other alsoList => consistent.holds.name_unique alsoList onList⟩
  · rw [← sameSizes.chunksPerSlab]
    exact consistent.within
  · rw [← sameSizes.chunksPerSlab]
    exact invariant.sorted
  · rw [← chunkSz]
    exact invariant.records.nodup.imp_of_mem fun isLive alsoLive different =>
      invariant.books.apart_of_ne isLive alsoLive different
  · rw [← chunkSz, ← pagesPerSlab]
    intro mem isLive
    rcases invariant.books.live_inside isLive with ⟨slab, isSlab, _attached, isHeld, lower, upper⟩
    exact ⟨slab, isSlab, isHeld, lower, upper⟩

/-- Every sequence of calls on an accepted cache, whatever the page allocator
refuses, returns and leaves the slabs well formed.  A further
`mem_cache_alloc` returns, and it returns a null address only when the last
thing that happened in it was a request that the page allocator refused. -/
theorem slabs_well_formed (created : AcceptedCache m) (world : World m) (calls : List (Call m)) :
    ∃ s, Transition.run step (created.boot world) calls = some s ∧
      (∃ nodes, WellFormed created s nodes) ∧
      ∀ allocator, ∃ result, memCacheAlloc allocator s.cache s.world = some result ∧
        (result.address = 0 →
          ∃ pages flags, Refused allocator s.cache s.world result.world pages flags) := by
  have start : Sound created.cache (created.boot world) :=
    ⟨SameSizes.refl _, _, created.invariant_boot world⟩
  rcases Transition.exists_run (fun s call sound => Sound.step sound call) start calls with
    ⟨s, reaches, sound⟩
  refine ⟨s, reaches, sound.wellFormed, fun allocator => ?_⟩
  rcases sound with ⟨_sameSizes, nodes, invariant⟩
  rcases memCacheAlloc_spec allocator invariant with ⟨result, returned, allocated⟩
  exact ⟨result, returned, allocated.refused⟩

/-! ## A small cache -/

/-- A page allocator that tries some addresses in order. -/
def chooseFrom (candidates : List Nat) : PageAllocator m :=
  fun held pages _flags =>
    candidates.findSome? (fun address =>
      if possible : address ≠ 0 ∧ m.pageSize ∣ address ∧
          address + pages * m.pageSize ≤ m.wordLimit ∧
          ∀ other ∈ held.regions, Region.Apart m ⟨address, pages⟩ other then
        some ⟨address, possible.1, possible.2.1, possible.2.2.1, possible.2.2.2⟩
      else none)

/-- A machine with 32-bit words and the smallest pages. -/
def smallMachine : Machine where
  wordTBits := 32
  pageShift := 5
  wordTBits_eq := Machine.beaglexm.wordTBits_eq
  five_le_pageShift := Nat.le_refl 5
  pageShift_lt := by decide

/-- Slabs of one page and chunks of 16 bytes. -/
def smallCache : AcceptedCache smallMachine where
  root := ⟨32, 1, 0⟩
  pagesPerSlab := 1
  chunkSz := 16
  gfpFlags := gfpKernel
  rootAfter := ⟨32, 1, 1⟩
  cache := ⟨1, 16, gfpKernel, 0, 0, 0⟩
  accepted := by decide
  one_le_pagesPerSlab := Nat.le_refl 1
  noOverflow := by decide
  powerOfTwo := ⟨4, rfl⟩
  dvd_pageSize := by decide

def emptyWorld : World smallMachine := ⟨fun _slab => Slab.zero _, ⟨[], List.Pairwise.nil⟩, []⟩

/-- Three chunks, one of them given back and its slab's pages returned. -/
def smallCalls : List (Call smallMachine) :=
  [.alloc (chooseFrom [64, 96]), .alloc (chooseFrom []), .alloc (chooseFrom [128]), .free 128#32,
    .free 128#32,
    .alloc (chooseFrom [])]

theorem slabs_well_formed_smallCalls :
    ∃ s, Transition.run step (smallCache.boot emptyWorld) smallCalls = some s ∧
      (∃ nodes, WellFormed smallCache s nodes) ∧
      ∀ allocator, ∃ result, memCacheAlloc allocator s.cache s.world = some result ∧
        (result.address = 0 →
          ∃ pages flags, Refused allocator s.cache s.world result.world pages flags) :=
  slabs_well_formed smallCache emptyWorld smallCalls

example : (Transition.run step (smallCache.boot emptyWorld) smallCalls).map (fun s =>
        (s.live, s.cache.fullSlabs, s.cache.partialSlabs, s.cache.freeSlabs,
          s.world.held.regions)) =
    some ([112, 96], 64, 0, 80, [⟨96, 1⟩, ⟨64, 1⟩]) := by
  decide +kernel

end SlabCache
end ShovelOS
