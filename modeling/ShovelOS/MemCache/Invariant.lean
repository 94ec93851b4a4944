import ShovelOS.MemCache.Geometry
import Mathlib.Data.List.Perm.Subperm
import Mathlib.Data.List.Pairwise

namespace ShovelOS
namespace SlabCache

open LinkedList Bitmap

/-!
# The invariant of a cache

The invariant has three parts.  `Owns` is about the page allocator: the pages
of slab structures and the pages attached to slabs are held, and no two of
them are the same region.  `Consistent` adds the three lists and, for every
slab, that its bitmap has no bit behind the last chunk and that its counter
is the number of set bits.  `Sorted` says that each slab is on the list that
its counter asks for.

`alloc` and `free` change a slab first and move it afterwards, so in between
`Consistent` holds and `Sorted` does not.  `Records` ties the bitmaps to the
chunks that callers hold.
-/

variable {m : Machine}

/-! ## Regions -/

instance (m : Machine) : Std.Symm (Region.Apart m) :=
  ⟨fun _region _other apart => Or.symm apart⟩

/-- Different regions that are held are apart. -/
theorem Held.apart_of_ne {held : Held m} {region other : Region} (isHeld : region ∈ held.regions)
    (alsoHeld : other ∈ held.regions) (different : region ≠ other) : region.Apart m other :=
  held.apart.forall isHeld alsoHeld different

/-- What a cache holds of the page allocator. -/
structure Owns (pagesPerSlab : Nat) (world : World m) (obtained : List Nat) : Prop where
  nodup : obtained.Nodup
  slabPage : ∀ base ∈ obtained, base ≠ 0 ∧ ⟨base, 1⟩ ∈ world.held.regions
  chunkPages : ∀ slab, IsSlab m obtained slab → (world.slab slab).page ≠ 0 →
    ⟨(world.slab slab).page, pagesPerSlab⟩ ∈ world.held.regions ∧
      m.pageSize ∣ (world.slab slab).page ∧
      (world.slab slab).page + pagesPerSlab * m.pageSize ≤ m.wordLimit
  unshared : ∀ slab other, IsSlab m obtained slab → IsSlab m obtained other →
    (world.slab slab).page ≠ 0 → (world.slab slab).page = (world.slab other).page → slab = other
  separate : ∀ slab, IsSlab m obtained slab → (world.slab slab).page ≠ 0 →
    (world.slab slab).page ∉ obtained

/-- The regions that a cache uses: its pages of slab structures, and the pages
attached to its slabs. -/
def Uses (pagesPerSlab : Nat) (world : World m) (obtained : List Nat) (region : Region) : Prop :=
  (∃ base ∈ obtained, region = ⟨base, 1⟩) ∨
    ∃ slab, IsSlab m obtained slab ∧ (world.slab slab).page ≠ 0 ∧
      region = ⟨(world.slab slab).page, pagesPerSlab⟩

namespace Owns

variable {pagesPerSlab : Nat} {world : World m} {obtained : List Nat}

/-- Only the page pointers of the slabs and the regions in use matter. -/
theorem of_uses (owns : Owns pagesPerSlab world obtained) {other : World m}
    (samePage : ∀ slab, IsSlab m obtained slab → (other.slab slab).page = (world.slab slab).page)
    (stillHeld : ∀ region, Uses pagesPerSlab world obtained region → region ∈ other.held.regions) :
    Owns pagesPerSlab other obtained where
  nodup := owns.nodup
  slabPage := fun base isMember =>
    ⟨(owns.slabPage base isMember).1, stillHeld _ (Or.inl ⟨base, isMember, rfl⟩)⟩
  chunkPages := by
    intro slab isSlab attached
    rw [samePage slab isSlab] at attached ⊢
    exact ⟨stillHeld _ (Or.inr ⟨slab, isSlab, attached, rfl⟩),
      (owns.chunkPages slab isSlab attached).2⟩
  unshared := by
    intro slab second isSlab alsoSlab attached same
    rw [samePage slab isSlab] at attached same
    rw [samePage second alsoSlab] at same
    exact owns.unshared slab second isSlab alsoSlab attached same
  separate := by
    intro slab isSlab attached
    rw [samePage slab isSlab] at attached ⊢
    exact owns.separate slab isSlab attached

theorem uses_held (owns : Owns pagesPerSlab world obtained) {region : Region}
    (uses : Uses pagesPerSlab world obtained region) : region ∈ world.held.regions := by
  rcases uses with ⟨base, isMember, rfl⟩ | ⟨slab, isSlab, attached, rfl⟩
  · exact (owns.slabPage base isMember).2
  · exact (owns.chunkPages slab isSlab attached).1

theorem congr (owns : Owns pagesPerSlab world obtained) {other : World m}
    (samePage : ∀ slab, IsSlab m obtained slab → (other.slab slab).page = (world.slab slab).page)
    (stillHeld : ∀ region ∈ world.held.regions, region ∈ other.held.regions) :
    Owns pagesPerSlab other obtained :=
  owns.of_uses samePage (fun region uses => stillHeld region (owns.uses_held uses))

theorem slab_ne_zero (owns : Owns pagesPerSlab world obtained) {slab : Nat}
    (isSlab : IsSlab m obtained slab) : slab ≠ 0 := by
  rcases isSlab with ⟨base, isMember, onPage⟩
  have notNull := (owns.slabPage base isMember).1
  have inside := slabsOfPage_inside onPage
  omega

/-- A slab structure lies in a region that is held. -/
theorem slab_inside (owns : Owns pagesPerSlab world obtained) {slab : Nat}
    (isSlab : IsSlab m obtained slab) : ∃ base ∈ obtained, ⟨base, 1⟩ ∈ world.held.regions ∧
      base ≤ slab ∧ slab < base + m.pageSize := by
  rcases isSlab with ⟨base, isMember, onPage⟩
  exact ⟨base, isMember, (owns.slabPage base isMember).2, slabsOfPage_inside onPage⟩

/-- No slab structure starts in a region apart from everything held. -/
theorem slab_outside_fresh (owns : Owns pagesPerSlab world obtained) {slab : Nat}
    (isSlab : IsSlab m obtained slab) {region : Region}
    (fresh : ∀ other ∈ world.held.regions, region.Apart m other) :
    ¬(region.address ≤ slab ∧ slab < region.address + region.pages * m.pageSize) := by
  rcases owns.slab_inside isSlab with ⟨base, _isMember, isHeld, lower, upper⟩
  have apart := fresh _ isHeld
  rw [Region.Apart] at apart
  dsimp only at apart
  omega

/-- No slab structure starts in the pages attached to a slab. -/
theorem slab_outside_chunks (owns : Owns pagesPerSlab world obtained) {slab other : Nat}
    (isSlab : IsSlab m obtained slab) (alsoSlab : IsSlab m obtained other)
    (attached : (world.slab other).page ≠ 0) :
    ¬((world.slab other).page ≤ slab ∧
      slab < (world.slab other).page + pagesPerSlab * m.pageSize) := by
  rcases owns.slab_inside isSlab with ⟨base, isMember, isHeld, lower, upper⟩
  have different : (⟨(world.slab other).page, pagesPerSlab⟩ : Region) ≠ ⟨base, 1⟩ := by
    intro same
    apply owns.separate other alsoSlab attached
    have address : (world.slab other).page = base := congrArg Region.address same
    rw [address]
    exact isMember
  have apart := Held.apart_of_ne (owns.chunkPages other alsoSlab attached).1 isHeld different
  rw [Region.Apart] at apart
  dsimp only at apart
  omega

theorem pages_apart (owns : Owns pagesPerSlab world obtained) {slab other : Nat}
    (isSlab : IsSlab m obtained slab) (alsoSlab : IsSlab m obtained other)
    (attached : (world.slab slab).page ≠ 0) (alsoAttached : (world.slab other).page ≠ 0)
    (different : slab ≠ other) :
    Region.Apart m ⟨(world.slab slab).page, pagesPerSlab⟩
      ⟨(world.slab other).page, pagesPerSlab⟩ := by
  apply Held.apart_of_ne (owns.chunkPages slab isSlab attached).1
    (owns.chunkPages other alsoSlab alsoAttached).1
  intro sameRegion
  exact different (owns.unshared slab other isSlab alsoSlab attached
    (congrArg Region.address sameRegion))

theorem chunks_apart (owns : Owns pagesPerSlab world obtained) {chunkSz chunks : Nat}
    (fits : chunks * chunkSz ≤ pagesPerSlab * m.pageSize) {slab other index second : Nat}
    (isSlab : IsSlab m obtained slab) (alsoSlab : IsSlab m obtained other)
    (attached : (world.slab slab).page ≠ 0) (alsoAttached : (world.slab other).page ≠ 0)
    (below : index < chunks) (alsoBelow : second < chunks)
    (different : slab ≠ other ∨ index ≠ second) :
    (world.slab slab).page + index * chunkSz + chunkSz ≤ (world.slab other).page + second *
      chunkSz ∨
      (world.slab other).page + second * chunkSz + chunkSz ≤
        (world.slab slab).page + index * chunkSz := by
  have ends : ∀ i, i < chunks → i * chunkSz + chunkSz ≤ pagesPerSlab * m.pageSize := by
    intro i inRange
    rw [← Nat.succ_mul]
    exact Nat.le_trans (Nat.mul_le_mul_right _ inRange) fits
  by_cases same : slab = other
  · subst same
    have later : ∀ i j, i < j → i * chunkSz + chunkSz ≤ j * chunkSz := by
      intro i j lower
      rw [← Nat.succ_mul]
      exact Nat.mul_le_mul_right _ lower
    rcases Nat.lt_or_gt_of_ne (different.resolve_left (fun notSame => notSame rfl)) with
      lower | upper
    · have := later index second lower
      omega
    · have := later second index upper
      omega
  · have apart := owns.pages_apart isSlab alsoSlab attached alsoAttached same
    rw [Region.Apart] at apart
    dsimp only at apart
    have first := ends index below
    have last := ends second alsoBelow
    omega

/-- The address of a chunk determines the slab and the chunk. -/
theorem chunk_unique (owns : Owns pagesPerSlab world obtained) {chunkSz chunks : Nat}
    (fits : chunks * chunkSz ≤ pagesPerSlab * m.pageSize) (positive : 0 < chunkSz)
    {slab other index second : Nat}
    (isSlab : IsSlab m obtained slab) (alsoSlab : IsSlab m obtained other)
    (attached : (world.slab slab).page ≠ 0) (alsoAttached : (world.slab other).page ≠ 0)
    (below : index < chunks) (alsoBelow : second < chunks)
    (same : (world.slab slab).page + index * chunkSz =
      (world.slab other).page + second * chunkSz) : slab = other ∧ index = second := by
  by_contra notBoth
  have different : slab ≠ other ∨ index ≠ second := by
    by_cases sameSlab : slab = other
    · exact Or.inr (fun sameIndex => notBoth ⟨sameSlab, sameIndex⟩)
    · exact Or.inl sameSlab
  have apart :=
    owns.chunks_apart fits isSlab alsoSlab attached alsoAttached below alsoBelow different
  omega

end Owns

/-! ## Lists, bitmaps and counters -/

/-- The structure of a cache, apart from the choice of the list. -/
structure Consistent (cache : MemCache) (world : World m) (obtained : List Nat)
    (nodes : ListName → List Nat) : Prop where
  owns : Owns cache.pagesPerSlab world obtained
  holds : Holds 0 (lists cache world) nodes
  covers : ∀ slab, (∃ name, slab ∈ nodes name) ↔ IsSlab m obtained slab
  within : ∀ slab, IsSlab m obtained slab → ∀ i, isSet (world.slab slab).bitmap i = true →
    i < cache.chunksPerSlab m
  counted : ∀ slab, IsSlab m obtained slab →
    (world.slab slab).allocatedChunks = count (world.slab slab).bitmap (bitmapBits m)
  attached : ∀ name, name ≠ .free → ∀ slab ∈ nodes name, (world.slab slab).page ≠ 0

/-- Whether a slab with so many allocated chunks belongs on a list. -/
def BelongsOn (chunks allocated : Nat) : ListName → Prop
  | .full => allocated = chunks
  | .partly => 0 < allocated ∧ allocated < chunks
  | .free => allocated = 0

/-- Each slab is on the list that its counter asks for. -/
def Sorted (cache : MemCache) (world : World m) (nodes : ListName → List Nat) : Prop :=
  ∀ name, ∀ slab ∈ nodes name,
    BelongsOn (cache.chunksPerSlab m) (world.slab slab).allocatedChunks name

/-- The chunks that callers hold are the ones whose bits are set. -/
structure Records (cache : MemCache) (world : World m) (obtained live : List Nat) : Prop where
  nodup : live.Nodup
  mem_iff : ∀ mem, mem ∈ live ↔ ∃ slab index, IsSlab m obtained slab ∧
    isSet (world.slab slab).bitmap index = true ∧
    mem = (world.slab slab).page + index * cache.chunkSz

/-- The invariant of the calls. -/
structure Invariant (cache : MemCache) (world : World m) (obtained live : List Nat)
    (nodes : ListName → List Nat) : Prop where
  shape : Shape m cache
  consistent : Consistent cache world obtained nodes
  sorted : Sorted cache world nodes
  records : Records cache world obtained live

/-- No bit is set behind the end of a bitmap. -/
def InBitmap (world : World m) (obtained : List Nat) : Prop :=
  ∀ slab, IsSlab m obtained slab → ∀ i, isSet (world.slab slab).bitmap i = true → i < bitmapBits m

/-- The invariant without a condition on the chunk size.  The chunks need not
all have a bit, as long as those that are allocated do. -/
structure Books (cache : MemCache) (world : World m) (obtained live : List Nat)
    (nodes : ListName → List Nat) : Prop where
  sizes : Sizes m cache
  inBitmap : InBitmap world obtained
  consistent : Consistent cache world obtained nodes
  sorted : Sorted cache world nodes
  records : Records cache world obtained live

variable {cache : MemCache} {world : World m} {obtained live : List Nat}
  {nodes : ListName → List Nat}

namespace Consistent

theorem isSlab (consistent : Consistent cache world obtained nodes) {name : ListName} {slab : Nat}
    (onList : slab ∈ nodes name) : IsSlab m obtained slab :=
  (consistent.covers slab).mp ⟨name, onList⟩

theorem head_eq_zero_iff (consistent : Consistent cache world obtained nodes) (name : ListName) :
    cache.head name = 0 ↔ nodes name = [] :=
  (consistent.holds.chain name).start_eq_null_iff

/-- Every list ends before the fuel of a walk does. -/
theorem length_lt (consistent : Consistent cache world obtained nodes) (name : ListName) :
    (nodes name).length < world.walkFuel := by
  have among : nodes name ⊆ obtained.flatMap (slabsOfPage m) := by
    intro slab onList
    rcases consistent.isSlab onList with ⟨base, isMember, onPage⟩
    exact List.mem_flatMap.mpr ⟨base, isMember, onPage⟩
  have fewSlabs : (nodes name).length ≤ obtained.length * slabsPerPage m := by
    have bound := ((consistent.holds.nodup name).subperm among).length_le
    rw [List.length_flatMap, List.map_congr_left (fun base _isMember => slabsOfPage_length base),
      List.map_const', List.sum_replicate_nat] at bound
    exact bound
  have fewPages : obtained.length ≤ world.held.regions.length := by
    have distinct : (obtained.map (fun base => (⟨base, 1⟩ : Region))).Nodup :=
      consistent.owns.nodup.map (fun base other same => congrArg Region.address same)
    have held : obtained.map (fun base => (⟨base, 1⟩ : Region)) ⊆ world.held.regions := by
      intro region isMember
      rcases List.mem_map.mp isMember with ⟨base, isObtained, rfl⟩
      exact (consistent.owns.slabPage base isObtained).2
    have bound := (distinct.subperm held).length_le
    rwa [List.length_map] at bound
  exact Nat.lt_succ_of_le (Nat.le_trans fewSlabs (Nat.mul_le_mul_right _ fewPages))

end Consistent

/-- A slab with an allocated chunk has pages. -/
theorem Consistent.used_attached (consistent : Consistent cache world obtained nodes)
    (inBitmap : InBitmap world obtained)
    (unused : ∀ slab ∈ nodes .free, (world.slab slab).allocatedChunks = 0) {slab i : Nat}
    (isSlab : IsSlab m obtained slab) (set : isSet (world.slab slab).bitmap i = true) :
    (world.slab slab).page ≠ 0 := by
  rcases (consistent.covers slab).mpr isSlab with ⟨name, onList⟩
  by_cases isFree : name = .free
  · subst isFree
    have none := unused slab onList
    rw [consistent.counted slab isSlab,
      count_eq_zero_iff (inBitmap slab isSlab) (Nat.le_refl _)] at none
    rw [none i] at set
    cases set
  · exact consistent.attached name isFree slab onList

/-! ## Changes of the world that the invariant does not see -/

/-- The slab structures of a cache are as before, and every region held is
still held. -/
structure Keeps (obtained : List Nat) (world other : World m) : Prop where
  sameSlab : ∀ slab, IsSlab m obtained slab → other.slab slab = world.slab slab
  stillHeld : ∀ region ∈ world.held.regions, region ∈ other.held.regions

/-- The lists, bitmaps and counters are in the slab structures. -/
theorem Consistent.of_sameSlab {other : World m}
    (consistent : Consistent cache world obtained nodes)
    (owns : Owns cache.pagesPerSlab other obtained)
    (sameSlab : ∀ slab, IsSlab m obtained slab → other.slab slab = world.slab slab) :
    Consistent cache other obtained nodes where
  owns := owns
  holds := by
    refine Holds.congr consistent.holds (fun _name => rfl) ?_
    intro name slab onList
    change (other.slab slab).next = (world.slab slab).next
    rw [sameSlab slab (consistent.isSlab onList)]
  covers := consistent.covers
  within := by
    intro slab isSlab
    rw [sameSlab slab isSlab]
    exact consistent.within slab isSlab
  counted := by
    intro slab isSlab
    rw [sameSlab slab isSlab]
    exact consistent.counted slab isSlab
  attached := by
    intro name notFree slab onList
    rw [sameSlab slab (consistent.isSlab onList)]
    exact consistent.attached name notFree slab onList

/-- The bits are where they were when the bitmaps are the same. -/
theorem InBitmap.congr {other : World m} (inBitmap : InBitmap world obtained)
    (sameBitmap : ∀ slab, IsSlab m obtained slab →
      (other.slab slab).bitmap = (world.slab slab).bitmap) :
    InBitmap other obtained := by
  intro slab isSlab
  rw [sameBitmap slab isSlab]
  exact inBitmap slab isSlab

theorem Sorted.of_sameSlab {other : World m} (sorted : Sorted cache world nodes)
    (consistent : Consistent cache world obtained nodes)
    (sameSlab : ∀ slab, IsSlab m obtained slab → other.slab slab = world.slab slab) :
    Sorted cache other nodes := by
  intro name slab onList
  rw [sameSlab slab (consistent.isSlab onList)]
  exact sorted name slab onList

theorem Records.of_sameSlab {other : World m} (records : Records cache world obtained live)
    (sameSlab : ∀ slab, IsSlab m obtained slab → other.slab slab = world.slab slab) :
    Records cache other obtained live where
  nodup := records.nodup
  mem_iff := by
    intro mem
    rw [records.mem_iff]
    refine exists_congr (fun slab => exists_congr (fun index => and_congr_right (fun isSlab => ?_)))
    rw [sameSlab slab isSlab]

theorem Invariant.books (invariant : Invariant cache world obtained live nodes) :
    Books cache world obtained live nodes where
  sizes := invariant.shape.sizes
  inBitmap := by
    intro slab isSlab i set
    have isChunk := invariant.consistent.within slab isSlab i set
    by_contra behind
    exact invariant.shape.sizes.not_hasBits_of_chunk isChunk (Nat.le_of_not_lt behind)
      invariant.shape.hasBits
  consistent := invariant.consistent
  sorted := invariant.sorted
  records := invariant.records

theorem Books.invariant (books : Books cache world obtained live nodes) (shape : Shape m cache) :
    Invariant cache world obtained live nodes :=
  ⟨shape, books.consistent, books.sorted, books.records⟩

namespace Books

/-- The slab structures and the regions in use are all that is seen. -/
theorem of_sameSlab {other : World m} (books : Books cache world obtained live nodes)
    (owns : Owns cache.pagesPerSlab other obtained)
    (sameSlab : ∀ slab, IsSlab m obtained slab → other.slab slab = world.slab slab) :
    Books cache other obtained live nodes where
  sizes := books.sizes
  inBitmap := books.inBitmap.congr fun slab isSlab => congrArg Slab.bitmap (sameSlab slab isSlab)
  consistent := books.consistent.of_sameSlab owns sameSlab
  sorted := books.sorted.of_sameSlab books.consistent sameSlab
  records := books.records.of_sameSlab sameSlab

theorem keeps {other : World m} (books : Books cache world obtained live nodes)
    (keeps : Keeps obtained world other) : Books cache other obtained live nodes := by
  apply books.of_sameSlab _ keeps.sameSlab
  apply books.consistent.owns.congr _ keeps.stillHeld
  intro slab isSlab
  rw [keeps.sameSlab slab isSlab]

theorem attached (books : Books cache world obtained live nodes) {slab i : Nat}
    (isSlab : IsSlab m obtained slab) (set : isSet (world.slab slab).bitmap i = true) :
    (world.slab slab).page ≠ 0 :=
  books.consistent.used_attached books.inBitmap (books.sorted .free) isSlab set

/-- Chunks of a cache that callers hold are apart when they differ. -/
theorem apart_of_ne (books : Books cache world obtained live nodes) {mem other : Nat}
    (isLive : mem ∈ live) (alsoLive : other ∈ live) (different : mem ≠ other) :
    mem + cache.chunkSz ≤ other ∨ other + cache.chunkSz ≤ mem := by
  rcases (books.records.mem_iff mem).mp isLive with ⟨slab, index, isSlab, set, rfl⟩
  rcases (books.records.mem_iff other).mp alsoLive with ⟨second, next, alsoSlab, alsoSet, rfl⟩
  have consistent := books.consistent
  apply consistent.owns.chunks_apart books.sizes.chunksPerSlab_mul_le isSlab alsoSlab
    (books.attached isSlab set) (books.attached alsoSlab alsoSet)
    (consistent.within slab isSlab index set) (consistent.within second alsoSlab next alsoSet)
  by_cases sameSlab : slab = second
  · refine Or.inr (fun sameIndex => different ?_)
    rw [sameSlab, sameIndex]
  · exact Or.inl sameSlab

/-- A chunk that callers hold lies in pages of a slab, which are held. -/
theorem live_inside (books : Books cache world obtained live nodes) {mem : Nat}
    (isLive : mem ∈ live) : ∃ slab, IsSlab m obtained slab ∧ (world.slab slab).page ≠ 0 ∧
      ⟨(world.slab slab).page, cache.pagesPerSlab⟩ ∈ world.held.regions ∧
      (world.slab slab).page ≤ mem ∧
      mem + cache.chunkSz ≤ (world.slab slab).page + cache.pagesPerSlab * m.pageSize := by
  rcases (books.records.mem_iff mem).mp isLive with ⟨slab, index, isSlab, set, rfl⟩
  have hasPages := books.attached isSlab set
  have ends := books.sizes.chunk_inside (books.consistent.within slab isSlab index set)
  exact ⟨slab, isSlab, hasPages, (books.consistent.owns.chunkPages slab isSlab hasPages).1,
    by omega, by omega⟩

end Books

theorem keeps_memset {address bytes : Nat}
    (outside : ∀ slab, IsSlab m obtained slab → ¬(address ≤ slab ∧ slab < address + bytes)) :
    Keeps obtained world (world.memset address bytes) where
  sameSlab := fun slab isSlab => if_neg (outside slab isSlab)
  stillHeld := fun _region isHeld => isHeld

end SlabCache
end ShovelOS
