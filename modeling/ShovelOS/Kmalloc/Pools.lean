import ShovelOS.MemCache.Acceptance

namespace ShovelOS
namespace Kmalloc

open SlabCache LinkedList Bitmap

/-!
# The pools behind kmalloc

`kmalloc` takes a request to the first pool whose chunks are large enough, and
makes the memory cache of that pool when it is first asked for.  `kfree` does not
know the pool of an address, and offers it to one cache after the other.

The caches share the memory and the page allocator.  `Sound` says that each
keeps its invariant and that no region is used by two of them; a call on one
keeps it because the footprint of the call is `Confined`.
-/

variable {m : Machine}

structure KmallocPool where
  gfpFlags : BitVec 32
  chunkSize : Nat
  pages : Nat

/-- The indices of `_pools`. -/
abbrev Pool := Fin 7

def _pools : Pool → KmallocPool
  | 0 => ⟨gfpKernel, 32, 1⟩
  | 1 => ⟨gfpKernel, 64, 1⟩
  | 2 => ⟨gfpKernel, 128, 1⟩
  | 3 => ⟨gfpKernel, 256, 1⟩
  | 4 => ⟨gfpKernel, 512, 1⟩
  | 5 => ⟨gfpKernel, 1024, 1⟩
  | 6 => ⟨gfpKernel, 2048, 1⟩

/-- `root_mem_cache`, `_pools_mem_cache`, where a null pointer is `none`, and the
memory. -/
structure Heap (m : Machine) where
  root : RootMemCache
  poolsMemCache : Pool → Option MemCache
  world : World m

/-- The cache of a pool has changed, and the memory with it. -/
def Heap.setPool (heap : Heap m) (pool : Pool) (cache : MemCache) (world : World m) : Heap m :=
  { heap with
    poolsMemCache := Function.update heap.poolsMemCache pool (some cache)
    world := world }

/-- The caches after a change of one. -/
theorem Heap.setPool_open {heap : Heap m} {pool other : Pool} {cache second : MemCache}
    {world : World m} (isOpen : (heap.setPool pool cache world).poolsMemCache other = some second) :
    (other = pool ∧ second = cache) ∨ (other ≠ pool ∧ heap.poolsMemCache other = some second) := by
  change Function.update heap.poolsMemCache pool (some cache) other = some second at isOpen
  by_cases same : other = pool
  · subst same
    rw [Function.update_self] at isOpen
    exact Or.inl ⟨rfl, (Option.some.inj isOpen).symm⟩
  · rw [Function.update_of_ne same] at isOpen
    exact Or.inr ⟨same, isOpen⟩

/-- The pool at which the loop of `kmalloc` stops. -/
def poolFor (size : Nat) (gfpFlags : BitVec 32) : Option Pool :=
  (List.finRange 7).find? (fun i =>
    decide (gfpFlags &&& (_pools i).gfpFlags = (_pools i).gfpFlags ∧ size ≤ (_pools i).chunkSize))

/-- Create the `mem_cache` of a pool if it does not exist.  Without a cache
`mem_cache_new` has failed. -/
def openPool (heap : Heap m) (pool : Pool) : Option (Heap m × Option MemCache) :=
  match heap.poolsMemCache pool with
  | some cache => some (heap, some cache)
  | none => do
      let new ← memCacheNew m heap.root (_pools pool).pages (_pools pool).chunkSize
        (_pools pool).gfpFlags
      let heap := { heap with root := new.root }
      if new.err ≠ 0 then return (heap, none)
      else
        return ({ heap with
          poolsMemCache := Function.update heap.poolsMemCache pool new.memCache }, new.memCache)

/-- What `kmalloc` returns, with the pages that it has obtained for slabs. -/
structure KmallocResult (m : Machine) where
  address : Nat
  heap : Heap m
  obtained : List Nat

def kmalloc (allocator : PageAllocator m) (heap : Heap m) (size : Nat) (gfpFlags : BitVec 32) :
    Option (KmallocResult m) :=
  match poolFor size gfpFlags with
  | none => some ⟨0, heap, []⟩
  | some pool => do
      let (heap, opened) ← openPool heap pool
      match opened with
      | none => return ⟨0, heap, []⟩
      | some cache =>
          let result ← memCacheAlloc allocator cache heap.world
          let world := if result.address ≠ 0 ∧ gfpFlags &&& gfpZero ≠ 0#32
            then result.world.memset result.address size else result.world
          return ⟨result.address, heap.setPool pool result.cache world, result.obtained⟩

structure KfreeResult (m : Machine) where
  err : Int
  heap : Heap m

/-- The loop of `kfree` over the pools that are left. -/
def kfreeFrom : List Pool → Heap m → Nat → Option (KfreeResult m)
  | [], heap, _mem => some ⟨-1, heap⟩
  | pool :: pools, heap, mem =>
      match heap.poolsMemCache pool with
      | none => kfreeFrom pools heap mem
      | some cache => do
          let result ← memCacheFree cache heap.world mem
          let heap := heap.setPool pool result.cache result.world
          if result.err = 0 then return ⟨0, heap⟩ else kfreeFrom pools heap mem

def kfree (heap : Heap m) (mem : Nat) : Option (KfreeResult m) :=
  if mem = 0 then some ⟨0, heap⟩ else kfreeFrom (List.finRange 7) heap mem

/-! ## The invariant of the pools -/

/-- The cache of a pool has the sizes of the pool. -/
structure OfPool (pool : Pool) (cache : MemCache) : Prop where
  pagesPerSlab : cache.pagesPerSlab = 1
  chunkSz : cache.chunkSz = (_pools pool).chunkSize

theorem OfPool.sameSizes {pool : Pool} {cache other : MemCache} (ofPool : OfPool pool cache)
    (same : SameSizes cache other) : OfPool pool other :=
  ⟨same.pagesPerSlab.trans ofPool.pagesPerSlab, same.chunkSz.trans ofPool.chunkSz⟩

/-- Each pool has its cache in order, and shares no region with another or with
the page in which the `mem_cache` structures are. -/
structure Sound (heap : Heap m) (obtained live : Pool → List Nat) : Prop where
  rootNotNull : heap.root.memCache ≠ 0
  rootHeld : ⟨heap.root.memCache, 1⟩ ∈ heap.world.held.regions
  rootApart : ∀ pool, ¬Uses 1 heap.world (obtained pool) ⟨heap.root.memCache, 1⟩
  apart : ∀ pool other, pool ≠ other → ∀ region,
    Uses 1 heap.world (obtained pool) region → ¬Uses 1 heap.world (obtained other) region
  closed : ∀ pool, heap.poolsMemCache pool = none → obtained pool = [] ∧ live pool = []
  ofPool : ∀ pool cache, heap.poolsMemCache pool = some cache → OfPool pool cache
  invariant : ∀ pool cache, heap.poolsMemCache pool = some cache →
    ∃ nodes, Invariant cache heap.world (obtained pool) (live pool) nodes

namespace Sound

variable {heap : Heap m} {obtained live : Pool → List Nat}

theorem not_uses_nil {world : World m} {region : Region} : ¬Uses 1 world [] region := by
  rintro (⟨base, isMember, _same⟩ | ⟨slab, ⟨base, isMember, _onPage⟩, _attached, _same⟩)
  · cases isMember
  · cases isMember

theorem uses_held (sound : Sound heap obtained live) {pool : Pool} {region : Region}
    (uses : Uses 1 heap.world (obtained pool) region) : region ∈ heap.world.held.regions := by
  cases opened : heap.poolsMemCache pool with
  | none =>
      rw [(sound.closed pool opened).1] at uses
      exact absurd uses not_uses_nil
  | some cache =>
      rcases sound.invariant pool cache opened with ⟨nodes, invariant⟩
      have owns := invariant.consistent.owns
      rw [(sound.ofPool pool cache opened).pagesPerSlab] at owns
      exact owns.uses_held uses

section Frame

variable {pool : Pool} {world : World m} {obtainedAfter : List Nat}

/-- A call on one pool leaves the slabs of the others alone. -/
theorem sameSlab (sound : Sound heap obtained live)
    (confined : Confined 1 heap.world (obtained pool) world obtainedAfter) {other : Pool}
    (different : other ≠ pool) {slab : Nat} (isSlab : IsSlab m (obtained other) slab) :
    world.slab slab = heap.world.slab slab := by
  rcases Confined.uses_slab 1 heap.world isSlab with ⟨region, uses, contains⟩
  exact confined.sameSlab region (sound.uses_held uses)
    (sound.apart other pool different region uses)
    slab contains

/-- So the others use the regions that they have used. -/
theorem uses_other (sound : Sound heap obtained live)
    (confined : Confined 1 heap.world (obtained pool) world obtainedAfter) {other : Pool}
    (different : other ≠ pool) {region : Region} (uses : Uses 1 world (obtained other) region) :
    Uses 1 heap.world (obtained other) region := by
  rcases uses with ⟨base, isMember, rfl⟩ | ⟨slab, isSlab, attached, rfl⟩
  · exact Or.inl ⟨base, isMember, rfl⟩
  · rw [sound.sameSlab confined different isSlab] at attached ⊢
    exact Or.inr ⟨slab, isSlab, attached, rfl⟩

/-- Who uses a region after a call on one pool. -/
theorem uses_after (sound : Sound heap obtained live)
    (confined : Confined 1 heap.world (obtained pool) world obtainedAfter) {other : Pool}
    {region : Region}
    (uses : Uses 1 world (Function.update obtained pool obtainedAfter other) region) :
    (other = pool ∧ Uses 1 world obtainedAfter region) ∨
      (other ≠ pool ∧ Uses 1 heap.world (obtained other) region) := by
  by_cases same : other = pool
  · subst same
    rw [Function.update_self] at uses
    exact Or.inl ⟨rfl, uses⟩
  · rw [Function.update_of_ne same] at uses
    exact Or.inr ⟨same, sound.uses_other confined same uses⟩

/-- What a pool uses after a call on it, no other pool has used. -/
theorem not_uses_other (sound : Sound heap obtained live)
    (confined : Confined 1 heap.world (obtained pool) world obtainedAfter) {other : Pool}
    (different : other ≠ pool) {region : Region} (uses : Uses 1 world obtainedAfter region) :
    ¬Uses 1 heap.world (obtained other) region := by
  intro usedBefore
  rcases confined.onlyNew region uses with wasUsed | notHeld
  · exact sound.apart other pool different region usedBefore wasUsed
  · exact notHeld (sound.uses_held usedBefore)

/-- The other caches keep their invariants. -/
theorem invariant_other (sound : Sound heap obtained live)
    (confined : Confined 1 heap.world (obtained pool) world obtainedAfter) {other : Pool}
    (different : other ≠ pool) {cache : MemCache} (opened : heap.poolsMemCache other = some cache) :
    ∃ nodes, Invariant cache world (obtained other) (live other) nodes := by
  rcases sound.invariant other cache opened with ⟨nodes, invariant⟩
  have onePage := (sound.ofPool other cache opened).pagesPerSlab
  have same := fun slab (isSlab : IsSlab m (obtained other) slab) =>
    sound.sameSlab confined different isSlab
  have owns : Owns cache.pagesPerSlab world (obtained other) := by
    apply invariant.consistent.owns.of_uses
    · intro slab isSlab
      rw [same slab isSlab]
    · rw [onePage]
      intro region uses
      exact confined.stillHeld region (sound.uses_held uses)
        (sound.apart other pool different region uses)
  exact ⟨nodes, (invariant.books.of_sameSlab owns same).invariant invariant.shape⟩

theorem setPool (sound : Sound heap obtained live) {cache : MemCache} {liveAfter : List Nat}
    (confined : Confined 1 heap.world (obtained pool) world obtainedAfter)
    (ofPool : OfPool pool cache)
    (invariant : ∃ nodes, Invariant cache world obtainedAfter liveAfter nodes) :
    Sound (heap.setPool pool cache world) (Function.update obtained pool obtainedAfter)
      (Function.update live pool liveAfter) where
  rootNotNull := sound.rootNotNull
  rootHeld := confined.stillHeld _ sound.rootHeld (sound.rootApart pool)
  rootApart := by
    intro other uses
    rcases sound.uses_after confined uses with ⟨_same, isUsed⟩ | ⟨_different, wasUsed⟩
    · rcases confined.onlyNew _ isUsed with wasUsed | notHeld
      · exact sound.rootApart pool wasUsed
      · exact notHeld sound.rootHeld
    · exact sound.rootApart other wasUsed
  apart := by
    intro first second different region uses alsoUses
    rcases sound.uses_after confined uses with ⟨isFirst, isUsed⟩ | ⟨notFirst, wasUsed⟩
    · rcases sound.uses_after confined alsoUses with ⟨isSecond, _⟩ | ⟨notSecond, alsoUsed⟩
      · exact different (isFirst.trans isSecond.symm)
      · exact sound.not_uses_other confined notSecond isUsed alsoUsed
    · rcases sound.uses_after confined alsoUses with ⟨_isSecond, isUsed⟩ | ⟨_notSecond, alsoUsed⟩
      · exact sound.not_uses_other confined notFirst isUsed wasUsed
      · exact sound.apart first second different region wasUsed alsoUsed
  closed := by
    intro other isClosed
    change Function.update heap.poolsMemCache pool (some cache) other = none at isClosed
    by_cases same : other = pool
    · subst same
      rw [Function.update_self] at isClosed
      cases isClosed
    · rw [Function.update_of_ne same] at isClosed ⊢
      rw [Function.update_of_ne same]
      exact sound.closed other isClosed
  ofPool := by
    intro other second isOpen
    rcases Heap.setPool_open isOpen with ⟨rfl, rfl⟩ | ⟨_different, wasOpen⟩
    · exact ofPool
    · exact sound.ofPool other second wasOpen
  invariant := by
    intro other second isOpen
    rcases Heap.setPool_open isOpen with ⟨rfl, rfl⟩ | ⟨different, wasOpen⟩
    · rw [Function.update_self, Function.update_self]
      exact invariant
    · rw [Function.update_of_ne different, Function.update_of_ne different]
      exact sound.invariant_other confined different wasOpen

end Frame

end Sound

end Kmalloc
end ShovelOS
