import ShovelOS.Machine
import ShovelOS.Library.LinkedList
import ShovelOS.Library.Bitmap

namespace ShovelOS
namespace SlabCache

open LinkedList

/-!
# The data of the memory cache

A memory cache hands out chunks of one size.  It cuts them from slabs: a
slab has `pages_per_slab` pages, a bitmap with one bit for each chunk, and a
count of the chunks in use.  The slab structures themselves lie in pages of
their own and are linked into three lists, of the slabs that are full, partly
allocated and free.

Pages come from the page allocator, which belongs to the environment.  All
that is assumed of it is in `Grant`: a region that it hands out is aligned,
lies in the address space, and is apart from every region still held.  It may
refuse any request.  `Held` keeps the regions that are held, and an
overlapping collection cannot be built.

Memory is modelled where it holds slab structures; what a client writes into
its chunk is not.  `memset` clears whatever slab structures start in its
range, so that clearing a page or a chunk is felt where it would hit one.
-/

/-- `GFP_ATOMIC`, `GFP_KERNEL` and `GFP_ZERO`. -/
def gfpAtomic : BitVec 32 := 1#32
def gfpKernel : BitVec 32 := 2#32
def gfpZero : BitVec 32 := 4#32

def kmallocSizeMin : Nat := 32

/-- `BITMAP_BYTES(page_nb, chunk_sz)`, in `size_t` arithmetic. -/
def bitmapBytes (m : Machine) (pageNb chunkSz : Nat) : Nat :=
  ((pageNb * m.pageSize + (chunkSz - 1)) % m.wordLimit / chunkSz + 7) % m.wordLimit / 8

def bitmapWords (m : Machine) (pageNb chunkSz : Nat) : Nat :=
  (bitmapBytes m pageNb chunkSz + (m.wordTBytes - 1)) % m.wordLimit / m.wordTBytes

def maxBitmapWords (m : Machine) : Nat := bitmapWords m 1 kmallocSizeMin

/-- `sizeof(struct slab)`: two pointers, the bitmap and the count. -/
def slabBytes (m : Machine) : Nat := m.wordTBytes * (maxBitmapWords m + 3)

def slabsPerPage (m : Machine) : Nat := m.pageSize / slabBytes m

variable {m : Machine}

/-- `struct slab`.  The bitmap has `MAX_BITMAP_WORDS` words. -/
structure Slab (m : Machine) where
  next : Nat
  page : Nat
  bitmap : Nat → BitVec m.wordTBits
  allocatedChunks : Nat

namespace Slab

def zero (m : Machine) : Slab m := ⟨0, 0, fun _word => 0#m.wordTBits, 0⟩

/-- A word of the bitmap; behind its end there is no value. -/
def word (slab : Slab m) (w : Nat) : Option (BitVec m.wordTBits) :=
  if w < maxBitmapWords m then some (slab.bitmap w) else none

end Slab

inductive ListName where
  | full
  | partly
  | free
  deriving DecidableEq, Repr

/-- `struct mem_cache`.  The heads of the lists are addresses of slabs, and
zero is the null pointer. -/
structure MemCache where
  pagesPerSlab : Nat
  chunkSz : Nat
  gfpFlags : BitVec 32
  fullSlabs : Nat
  partialSlabs : Nat
  freeSlabs : Nat
  deriving DecidableEq, Repr

namespace MemCache

def head (cache : MemCache) : ListName → Nat
  | .full => cache.fullSlabs
  | .partly => cache.partialSlabs
  | .free => cache.freeSlabs

def setHead (cache : MemCache) (name : ListName) (slab : Nat) : MemCache :=
  match name with
  | .full => { cache with fullSlabs := slab }
  | .partly => { cache with partialSlabs := slab }
  | .free => { cache with freeSlabs := slab }

def chunksPerSlab (m : Machine) (cache : MemCache) : Nat :=
  cache.pagesPerSlab * m.pageSize % m.wordLimit / cache.chunkSz

end MemCache

/-! ## Regions of pages -/

/-- Consecutive pages from an address on. -/
structure Region where
  address : Nat
  pages : Nat
  deriving DecidableEq, Repr

def Region.Apart (m : Machine) (region other : Region) : Prop :=
  region.address + region.pages * m.pageSize ≤ other.address ∨
    other.address + other.pages * m.pageSize ≤ region.address

instance (m : Machine) (region other : Region) : Decidable (region.Apart m other) :=
  inferInstanceAs (Decidable (_ ∨ _))

/-- The regions that have been handed out and not given back. -/
structure Held (m : Machine) where
  regions : List Region
  apart : regions.Pairwise (Region.Apart m)

namespace Held

def add (held : Held m) (region : Region) (apart : ∀ other ∈ held.regions, region.Apart m other) :
    Held m :=
  ⟨region :: held.regions, List.pairwise_cons.mpr ⟨apart, held.apart⟩⟩

def remove (held : Held m) (region : Region) : Held m :=
  ⟨held.regions.erase region, held.apart.sublist List.erase_sublist⟩

end Held

/-- A region that the page allocator hands out while others are held. -/
structure Grant (m : Machine) (held : Held m) (pages : Nat) where
  address : Nat
  notNull : address ≠ 0
  aligned : m.pageSize ∣ address
  inside : address + pages * m.pageSize ≤ m.wordLimit
  apart : ∀ other ∈ held.regions, Region.Apart m ⟨address, pages⟩ other

/-- The answers of the page allocator to a request, `none` for a refusal. -/
def PageAllocator (m : Machine) : Type :=
  (held : Held m) → (pages : Nat) → (flags : BitVec 32) → Option (Grant m held pages)

/-- What passed between a cache and the page allocator. -/
inductive PageEvent where
  | granted (address pages : Nat)
  | refused (pages : Nat)
  | released (address pages : Nat)
  deriving DecidableEq, Repr

/-- The slab structures in memory, the regions held, and the dealings with
the page allocator, the latest first. -/
structure World (m : Machine) where
  slab : Nat → Slab m
  held : Held m
  log : List PageEvent

namespace World

def modify (world : World m) (slab : Nat) (change : Slab m → Slab m) : World m :=
  { world with slab := Function.update world.slab slab (change (world.slab slab)) }

theorem modify_self (world : World m) (slab : Nat) (change : Slab m → Slab m) :
    (world.modify slab change).slab slab = change (world.slab slab) :=
  Function.update_self slab _ _

theorem modify_of_ne (world : World m) {slab other : Nat} (change : Slab m → Slab m)
    (different : other ≠ slab) : (world.modify slab change).slab other = world.slab other :=
  Function.update_of_ne different _ _

def setNext (world : World m) (slab value : Nat) : World m :=
  world.modify slab (fun s => { s with next := value })

theorem setNext_self (world : World m) (slab value : Nat) :
    ((world.setNext slab value).slab slab).next = value :=
  congrArg Slab.next (world.modify_self slab (fun s => { s with next := value }))

theorem setNext_of_ne (world : World m) {slab other : Nat} (value : Nat)
    (different : other ≠ slab) :
    (world.setNext slab value).slab other = world.slab other :=
  world.modify_of_ne (fun s => { s with next := value }) different

/-- `memset(address, 0, bytes)`. -/
def memset (world : World m) (address bytes : Nat) : World m :=
  { world with
    slab := fun slab =>
      if address ≤ slab ∧ slab < address + bytes then Slab.zero m else world.slab slab }

end World

/-- `get_free_pages`.  A null address is a refusal. -/
def getFreePages (allocator : PageAllocator m) (world : World m) (pages : Nat) (flags : BitVec 32) :
    Nat × World m :=
  match allocator world.held pages flags with
  | none => (0, { world with log := .refused pages :: world.log })
  | some grant =>
      let taken : World m := { world with
        held := world.held.add ⟨grant.address, pages⟩ grant.apart
        log := .granted grant.address pages :: world.log }
      (grant.address,
        if flags &&& gfpZero = 0#32 then taken
        else taken.memset grant.address (pages * m.pageSize))

def freePages (world : World m) (address pages : Nat) : World m :=
  { world with
    held := world.held.remove ⟨address, pages⟩
    log := .released address pages :: world.log }

/-! ## Slabs behind links -/

/-- The lists of a cache as heads and successors. -/
def lists (cache : MemCache) (world : World m) : Lists ListName Nat :=
  ⟨cache.head, fun slab => (world.slab slab).next⟩

/-- Store a pointer through a pointer to a pointer. -/
def writeLink (cache : MemCache) (world : World m) (link : Link ListName Nat) (value : Nat) :
    MemCache × World m :=
  match link with
  | .head name => (cache.setHead name value, world)
  | .next slab => (cache, world.setNext slab value)

/-- Unlink the slab behind a link and put it in front of a list:
`*link = slab->next; slab->next = target; target = slab`. -/
def moveSlab (cache : MemCache) (world : World m) (link : Link ListName Nat) (slab : Nat)
    (target : ListName) : MemCache × World m :=
  let (cache, world) := writeLink cache world link (world.slab slab).next
  let (cache, world) := writeLink cache world (.next slab) (cache.head target)
  writeLink cache world (.head target) slab

/-- More nodes than any list of slabs in the pages held can have. -/
def World.walkFuel (world : World m) : Nat := world.held.regions.length * slabsPerPage m + 1

end SlabCache
end ShovelOS
