import ShovelOS.MemCache.Slabs

namespace ShovelOS
namespace SlabCache

open LinkedList Bitmap

/-!
# The memory cache

`_more_slabs`, `mem_cache_new`, `mem_cache_alloc` and `mem_cache_free` with
the searches they rest on.  A function has no value where the source would
read a bitmap word behind the bitmap, follow a null slab, halt in `_BUG_ON`,
or walk a list for longer than any list of slabs can be.
-/

variable {m : Machine}

/-! ## Getting slabs -/

/-- The local variables of `_more_slabs`: `first_slab`, `last_slab`, which
points to `first_slab` or to the `next` of a slab, and the pages obtained. -/
structure Growth (m : Machine) where
  firstSlab : Nat
  lastSlab : Link Unit Nat
  world : World m
  obtained : List Nat

namespace Growth

def last (growth : Growth m) : Nat :=
  match growth.lastSlab with
  | .head _ => growth.firstSlab
  | .next slab => (growth.world.slab slab).next

def setLast (growth : Growth m) (value : Nat) : Growth m :=
  match growth.lastSlab with
  | .head _ => { growth with firstSlab := value }
  | .next slab => { growth with world := growth.world.setNext slab value }

end Growth

/-- The `LINK` loop with so many turns left. -/
def linkSlabs : Nat → Growth m → Growth m
  | 0, growth => growth
  | turns + 1, growth =>
      let slab := growth.last
      linkSlabs turns { growth with
        world := growth.world.setNext slab (slab + slabBytes m)
        lastSlab := .next slab }

/-- The clean-up loop of `_more_slabs`: free a page, and go on at the `next`
of the last slab that was in it. -/
def releaseSlabs : Nat → Nat → World m → Option (World m)
  | 0, _firstSlab, _world => none
  | fuel + 1, firstSlab, world =>
      if firstSlab = 0 then some world
      else
        let slab1 := (world.slab (firstSlab + (slabsPerPage m - 1) * slabBytes m)).next
        releaseSlabs fuel slab1 (freePages world firstSlab 1)

/-- What `_more_slabs` returns, and the pages that it obtained. -/
structure MoreSlabs (m : Machine) where
  firstSlab : Nat
  world : World m
  obtained : List Nat

/-- The loop over the pages of `_more_slabs`. -/
def growPages (allocator : PageAllocator m) (gfpFlags : BitVec 32) :
    Nat → Growth m → Option (MoreSlabs m)
  | 0, growth => some ⟨growth.firstSlab, growth.world, growth.obtained⟩
  | pages + 1, growth =>
      let (page, world) := getFreePages allocator growth.world 1 (gfpFlags ||| gfpZero)
      let growth := { growth with world := world }.setLast page
      if page = 0 then
        (releaseSlabs (growth.obtained.length + 1) growth.firstSlab growth.world).map
          (fun world => ⟨0, world, growth.obtained⟩)
      else
        growPages allocator gfpFlags pages
          (linkSlabs (slabsPerPage m - 1) { growth with obtained := page :: growth.obtained })

/-- `_more_slabs`: at least so many slabs, rounded up to whole pages.  The
source counts them in an `unsigned int`, and for 2 ^ 32 pages or more, which
words of 64 bits allow, its loop would not end. -/
def _moreSlabs (allocator : PageAllocator m) (slabs : Nat) (gfpFlags : BitVec 32)
    (world : World m) : Option (MoreSlabs m) :=
  growPages allocator gfpFlags ((slabs + (slabsPerPage m - 1)) % m.wordLimit / slabsPerPage m)
    ⟨0, .head (), world, []⟩

/-! ## Making a cache -/

structure RootMemCache where
  memCache : Nat
  cachesTotoal : Nat
  cachesUsed : Nat
  deriving DecidableEq, Repr

/-- `sizeof(struct mem_cache)`. -/
def memCacheBytes (m : Machine) : Nat := 6 * m.wordTBytes

def memCacheSetup (allocator : PageAllocator m) (root : RootMemCache) (world : World m) :
    Int × RootMemCache × World m :=
  let (page, world) := getFreePages allocator world 1 gfpKernel
  if page = 0 then (-1, { root with memCache := page }, world)
  else (0, { root with memCache := page, cachesTotoal := m.pageSize / memCacheBytes m }, world)

/-- What `mem_cache_new` returns, with the cache behind `out_mem_cache`. -/
structure NewCache where
  err : Int
  root : RootMemCache
  memCache : Option MemCache
  deriving DecidableEq, Repr

def memCacheNew (m : Machine) (root : RootMemCache) (pagesPerSlab chunkSz : Nat)
    (gfpFlags : BitVec 32) : Option NewCache :=
  if root.memCache = 0 then none
  else if root.cachesUsed < root.cachesTotoal then
    -- the size is divided by the chunk size
    if chunkSz = 0 then none
    else if maxBitmapWords m < bitmapWords m pagesPerSlab chunkSz then
      some ⟨-1, root, none⟩
    else
      some ⟨0, { root with cachesUsed := root.cachesUsed + 1 },
        some ⟨pagesPerSlab, chunkSz, gfpFlags, 0, 0, 0⟩⟩
  else some ⟨-1, root, none⟩

/-! ## Allocating a chunk -/

def _findZeroBitInWord (m : Machine) (w : BitVec m.wordTBits) (max : Nat) : Nat :=
  ((List.range max).find? (fun b => decide (w &&& m.bit b = 0#m.wordTBits))).getD m.wordTMax

/-- The body of the loop of `__find_unallocated`: the whole words of a slab's
bitmap, and then the bits of the last word that represent a chunk. -/
def unallocatedIn (cache : MemCache) (slab : Slab m) : Option (Option (Nat × Nat)) := do
  let chunks := cache.chunksPerSlab m
  let wholeWords := chunks / m.wordTBits
  let extraBits := chunks % m.wordTBits
  let clearWord ← (List.range wholeWords).findM? (fun w => do
    let word ← slab.word w
    return decide (~~~word ≠ 0#m.wordTBits))
  match clearWord with
  | some w =>
      let word ← slab.word w
      return some (w, _findZeroBitInWord m word m.wordTBits)
  | none =>
      if extraBits = 0 then return none
      else
        let word ← slab.word wholeWords
        let zb := _findZeroBitInWord m word extraBits
        return if zb = m.wordTMax then none else some (wholeWords, zb)

/-- `__find_unallocated`.  Without a result it returned -1, and the pointer
has gone past the last slab. -/
def _findUnallocated (cache : MemCache) (world : World m) (freeSlabPtr : Link ListName Nat) :
    Option (Link ListName Nat × Option (Nat × Nat)) :=
  walk 0 (lists cache world).next (fun slab => unallocatedIn cache (world.slab slab))
    world.walkFuel freeSlabPtr ((lists cache world).read freeSlabPtr)

def _chunkAddress (cache : MemCache) (slab : Slab m) (word bit : Nat) : Nat :=
  (slab.page + (word * m.wordTBits + bit) * cache.chunkSz) % m.wordLimit

/-- What `mem_cache_alloc` returns, and the pages of slabs obtained by it. -/
structure AllocResult (m : Machine) where
  address : Nat
  cache : MemCache
  world : World m
  obtained : List Nat

def Slab.take (slab : Slab m) (word bit : Nat) : Slab m :=
  { slab with
    bitmap := setBit slab.bitmap word bit
    allocatedChunks := (slab.allocatedChunks + 1) % m.wordLimit }

/-- The last part of `mem_cache_alloc`: find a chunk in the partial list and
allocate it. -/
def takeChunk (cache : MemCache) (world : World m) (obtained : List Nat) :
    Option (AllocResult m) := do
  let (freeSlabPtr, found) ← _findUnallocated cache world (.head .partly)
  let (word, bit) := found.getD (0, 0)
  let slab := (lists cache world).read freeSlabPtr
  if slab = 0 then none
  else
    let world := world.modify slab (fun s => s.take word bit)
    let (cache, world) :=
      if (world.slab slab).allocatedChunks = cache.chunksPerSlab m then
        moveSlab cache world freeSlabPtr slab .full
      else (cache, world)
    let addr := _chunkAddress cache (world.slab slab) word bit
    let world :=
      if cache.gfpFlags &&& gfpZero = 0#32 then world else world.memset addr cache.chunkSz
    return ⟨addr, cache, world, obtained⟩

/-- Attach pages to the first free slab if it has none. -/
def attachPages (allocator : PageAllocator m) (cache : MemCache) (world : World m) : World m :=
  if (world.slab cache.freeSlabs).page = 0 then
    let (page, world) := getFreePages allocator world cache.pagesPerSlab cache.gfpFlags
    world.modify cache.freeSlabs (fun s => { s with page := page })
  else world

/-- Make the first free slab the only partial one. -/
def pluckSlab (cache : MemCache) (world : World m) : MemCache × World m :=
  let cache := { cache with partialSlabs := cache.freeSlabs }
  let cache := { cache with freeSlabs := (world.slab cache.freeSlabs).next }
  (cache, world.setNext cache.partialSlabs 0)

/-- `mem_cache_alloc` once there is a slab. -/
def allocFromSlabs (allocator : PageAllocator m) (cache : MemCache) (world : World m)
    (obtained : List Nat) : Option (AllocResult m) :=
  if cache.partialSlabs = 0 then
    let world := attachPages allocator cache world
    if (world.slab cache.freeSlabs).page = 0 then some ⟨0, cache, world, obtained⟩
    else
      let (cache, world) := pluckSlab cache world
      takeChunk cache world obtained
  else takeChunk cache world obtained

def memCacheAlloc (allocator : PageAllocator m) (cache : MemCache) (world : World m) :
    Option (AllocResult m) :=
  if cache.freeSlabs = 0 ∧ cache.partialSlabs = 0 then do
    let more ← _moreSlabs allocator 1 cache.gfpFlags world
    let cache := { cache with freeSlabs := more.firstSlab }
    if more.firstSlab = 0 then return ⟨0, cache, more.world, more.obtained⟩
    else allocFromSlabs allocator cache more.world more.obtained
  else allocFromSlabs allocator cache world []

/-! ## Freeing a chunk -/

def _pageContainsAddress (cache : MemCache) (slab : Slab m) (addr : Nat) : Bool :=
  if addr < slab.page then false
  else if (slab.page + cache.pagesPerSlab * m.pageSize) % m.wordLimit ≤ addr then false
  else true

/-- `enum far`, with the word and the bit that come with `FAR_FOUND`. -/
inductive Far where
  | found (word bit : Nat)
  | notFound
  | corrupt
  | doublefree
  deriving DecidableEq, Repr

/-- The body of the loop of `__find_allocated`.  The address is not below the
slab's page where they are subtracted. -/
def allocatedIn (cache : MemCache) (mem : Nat) (slab : Slab m) : Option (Option Far) :=
  if _pageContainsAddress cache slab mem then do
    let slabOffset := (mem - slab.page) / cache.chunkSz
    let allocWord := slabOffset / m.wordTBits
    let allocBit := slabOffset % m.wordTBits
    let word ← slab.word allocWord
    return some (if word &&& m.bit allocBit = 0#m.wordTBits then .doublefree
      else .found allocWord allocBit)
  else some none

def _findAllocated (mem : Nat) (cache : MemCache) (world : World m)
    (allocSlabPtr : Link ListName Nat) : Option (Link ListName Nat × Far) :=
  if mem &&& (cache.chunkSz + (m.wordLimit - 1)) % m.wordLimit = 0 then
    (walk 0 (lists cache world).next (fun slab => allocatedIn cache mem (world.slab slab))
      world.walkFuel allocSlabPtr ((lists cache world).read allocSlabPtr)).map
      (fun (allocSlabPtr, far) => (allocSlabPtr, far.getD .notFound))
  else some (allocSlabPtr, .corrupt)

structure FreeResult (m : Machine) where
  err : Int
  cache : MemCache
  world : World m

def Slab.giveBack (slab : Slab m) (word bit : Nat) : Slab m :=
  { slab with
    bitmap := clearBit slab.bitmap word bit
    allocatedChunks := (slab.allocatedChunks + (m.wordLimit - 1)) % m.wordLimit }

/-- Return the pages of a free slab, unless the cache is `GFP_ATOMIC`. -/
def detachPages (cache : MemCache) (world : World m) (slab : Nat) : World m :=
  if cache.gfpFlags &&& gfpAtomic = 0#32 then
    (freePages world (world.slab slab).page cache.pagesPerSlab).modify slab
      (fun s => { s with page := 0 })
  else world

/-- The last part of `mem_cache_free`: free a chunk of the slab behind a
link. -/
def freeChunk (cache : MemCache) (world : World m) (slabPtr : Link ListName Nat) (word bit : Nat) :
    MemCache × World m :=
  let slab := (lists cache world).read slabPtr
  let world := world.modify slab (fun s => s.giveBack word bit)
  if (world.slab slab).allocatedChunks = 0 then
    let (cache, world) := moveSlab cache world slabPtr slab .free
    (cache, detachPages cache world slab)
  else moveSlab cache world slabPtr slab .partly

/-- `mem_cache_free`: the partial slabs are searched first, then the full
ones. -/
def memCacheFree (cache : MemCache) (world : World m) (mem : Nat) : Option (FreeResult m) :=
  if mem = 0 then some ⟨0, cache, world⟩
  else do
    let (partialSlabPtr, far) ← _findAllocated mem cache world (.head .partly)
    match far with
    | .found word bit =>
        let (cache, world) := freeChunk cache world partialSlabPtr word bit
        return ⟨0, cache, world⟩
    | .notFound =>
        let (fullSlabPtr, far) ← _findAllocated mem cache world (.head .full)
        match far with
        | .found word bit =>
            let (cache, world) := freeChunk cache world fullSlabPtr word bit
            return ⟨0, cache, world⟩
        | .notFound | .corrupt | .doublefree => return ⟨-1, cache, world⟩
    | .corrupt | .doublefree => return ⟨-1, cache, world⟩

end SlabCache
end ShovelOS
