import ShovelOS.MemCache.Guarantees

namespace ShovelOS
namespace SlabCache

open LinkedList Bitmap

/-!
# Which addresses are accepted

The runs of a cache, seen from `mem_cache_free`.  When the chunk size is a
power of two that divides the page size, `mem_cache_free` accepts the live
chunks and nothing else.  For any other chunk size it does not accept a live
chunk whose address has a bit in common with `chunk_sz - 1`, and it may accept
an address inside one.

For all sizes there is one more exception.  When the pages of a slab end with
the address space, their end wraps to zero in `__page_contains_address`, and no
chunk of the slab is found.

`mem_cache_new` looks whether the bits suffice, but in a sum that wraps for slabs
of nearly the whole address space.  In a run of such a cache a call may come to
the end of a bitmap, where the run has no further state.
-/

variable {m : Machine} {cache : MemCache} {world : World m} {obtained live : List Nat}
  {nodes : ListName → List Nat}

/-- The address lies in the pages of a slab that end with the address space. -/
def InLastPages (cache : MemCache) (world : World m) (obtained : List Nat) (mem : Nat) : Prop :=
  ∃ slab, IsSlab m obtained slab ∧ (world.slab slab).page ≠ 0 ∧
    (world.slab slab).page + cache.pagesPerSlab * m.pageSize = m.wordLimit ∧
    (world.slab slab).page ≤ mem ∧ mem < m.wordLimit

namespace Books

/-- An accepted address does not lie in the last pages. -/
theorem not_inLastPages (books : Books cache world obtained live nodes) {mem slab index : Nat}
    (gives : GivesBack cache world obtained mem slab index) :
    ¬InLastPages cache world obtained mem := by
  rintro ⟨other, alsoSlab, alsoPages, last, alsoLower, belowLimit⟩
  have hasPages := books.attached gives.isSlab gives.set
  have inside := (books.consistent.owns.chunkPages slab gives.isSlab hasPages).2.2
  rcases (contains_iff inside).mp (books.contains gives).1 with ⟨lower, upper, notLast⟩
  have same := books.slab_unique gives.isSlab alsoSlab hasPages alsoPages lower upper alsoLower
    (by rw [last]; exact belowLimit)
  rw [same, last] at notLast
  exact Nat.lt_irrefl _ notLast

/-- A live chunk is accepted when its address passes the mask and does not lie
in the last pages. -/
theorem accepts_live_iff (books : Books cache world obtained live nodes) {mem : Nat}
    (isLive : mem ∈ live) :
    (∃ slab index, GivesBack cache world obtained mem slab index) ↔
      mem &&& (cache.chunkSz - 1) = 0 ∧ ¬InLastPages cache world obtained mem := by
  constructor
  · rintro ⟨slab, index, gives⟩
    exact ⟨gives.passes, books.not_inLastPages gives⟩
  · rintro ⟨passes, notInLast⟩
    rcases (books.records.mem_iff mem).mp isLive with ⟨slab, index, isSlab, set, rfl⟩
    have hasPages := books.attached isSlab set
    have inside := (books.consistent.owns.chunkPages slab isSlab hasPages).2.2
    have ends := books.sizes.chunk_inside (books.consistent.within slab isSlab index set)
    have positive := books.sizes.chunkSz_pos
    refine ⟨slab, index, passes, isSlab, set, Nat.le_refl _, by omega, ?_⟩
    apply Nat.lt_of_le_of_ne inside
    intro last
    exact notInLast ⟨slab, isSlab, hasPages, last, Nat.le_add_right _ _, by omega⟩

end Books

/-! ## Chunk sizes that are powers of two -/

theorem Invariant.accepts_iff (invariant : Invariant cache world obtained live nodes) (mem : Nat) :
    (∃ slab index, GivesBack cache world obtained mem slab index) ↔
      mem ∈ live ∧ ¬InLastPages cache world obtained mem := by
  constructor
  · rintro ⟨slab, index, gives⟩
    refine ⟨?_, invariant.books.not_inLastPages gives⟩
    rw [invariant.records.mem_iff]
    exact ⟨slab, index, gives.isSlab, gives.set, invariant.start_of_givesBack gives⟩
  · rintro ⟨isLive, notInLast⟩
    refine (invariant.books.accepts_live_iff isLive).mpr ⟨?_, notInLast⟩
    rcases (invariant.records.mem_iff mem).mp isLive with ⟨slab, index, isSlab, set, rfl⟩
    have hasPages := invariant.books.attached isSlab set
    have pageAligned := (invariant.consistent.owns.chunkPages slab isSlab hasPages).2.1
    rw [invariant.shape.mask_iff]
    exact Nat.dvd_add (Nat.dvd_trans invariant.shape.dvd_pageSize pageAligned)
      (Nat.dvd_mul_left _ _)

/-- In every run of a cache with such a chunk size, `mem_cache_free` accepts an
address exactly when it is a live chunk, unless this chunk lies in the last
pages of the address space.  A rejected address changes nothing. -/
theorem mem_cache_free_accepts_live_iff (created : AcceptedCache m) (world : World m)
    (calls : List (Call m)) :
    ∃ s, Transition.run step (created.boot world) calls = some s ∧
      ∀ mem : BitVec m.wordTBits, mem.toNat ≠ 0 →
        ∃ result, memCacheFree s.cache s.world mem.toNat = some result ∧
          ((result.err = 0 ↔ mem.toNat ∈ s.live) ↔
            ¬(mem.toNat ∈ s.live ∧ InLastPages s.cache s.world s.obtained mem.toNat)) ∧
          (result.err ≠ 0 → result.cache = s.cache ∧ result.world = s.world) := by
  have start : Sound created.cache (created.boot world) :=
    ⟨SameSizes.refl _, _, created.invariant_boot world⟩
  rcases Transition.exists_run (fun s call sound => Sound.step sound call) start calls with
    ⟨s, reaches, _sameSizes, nodes, invariant⟩
  refine ⟨s, reaches, fun mem notNull => ?_⟩
  rcases invariant.settled mem.toNat with ⟨result, returned, settled⟩
  refine ⟨result, returned, ?_, settled.rejected⟩
  have accepted : result.err = 0 ↔
      mem.toNat ∈ s.live ∧ ¬InLastPages s.cache s.world s.obtained mem.toNat := by
    rw [settled.accepted_iff, invariant.accepts_iff, or_iff_right notNull]
  rw [accepted]
  constructor
  · rintro agrees ⟨isLive, inLast⟩
    exact (agrees.mpr isLive).2 inLast
  · intro notInLast
    exact ⟨And.left, fun isLive => ⟨isLive, fun inLast => notInLast ⟨isLive, inLast⟩⟩⟩

/-- A chunk of a slab in the middle of the address space. -/
theorem mem_cache_free_accepts_live_iff_middle :
    ∃ s, Transition.run step (smallCache.boot emptyWorld) [.alloc (chooseFrom [64, 96])] = some s ∧
      ∃ result, memCacheFree s.cache s.world 96 = some result ∧
        ((result.err = 0 ↔ 96 ∈ s.live) ↔
          ¬(96 ∈ s.live ∧ InLastPages s.cache s.world s.obtained 96)) := by
  rcases mem_cache_free_accepts_live_iff smallCache emptyWorld [.alloc (chooseFrom [64, 96])] with
    ⟨s, reaches, accepts⟩
  rcases accepts 96#32 (by decide) with ⟨result, returned, agrees, _unchanged⟩
  exact ⟨s, reaches, result, returned, agrees⟩

/-- The chunk of a slab in the last page is live and is rejected. -/
theorem not_mem_cache_free_accepts_live_lastPage :
    ¬∀ (created : AcceptedCache smallMachine) (world : World smallMachine)
      (calls : List (Call smallMachine)),
      ∃ s, Transition.run step (created.boot world) calls = some s ∧
        ∀ mem : BitVec smallMachine.wordTBits, mem.toNat ≠ 0 →
          ∃ result, memCacheFree s.cache s.world mem.toNat = some result ∧
            (result.err = 0 ↔ mem.toNat ∈ s.live) := by
  intro claim
  rcases claim smallCache emptyWorld [.alloc (chooseFrom [64, 4294967264])] with
    ⟨s, reaches, accepts⟩
  rcases accepts 4294967264#32 (by decide) with ⟨result, returned, agrees⟩
  have values : (Transition.run step (smallCache.boot emptyWorld)
      [.alloc (chooseFrom [64, 4294967264])]).bind (fun s =>
        (memCacheFree s.cache s.world 4294967264).map (fun result =>
          (result.err, decide (4294967264 ∈ s.live)))) = some (-1, true) := by
    decide +kernel
  change memCacheFree s.cache s.world 4294967264 = some result at returned
  rw [reaches, Option.bind_some, returned, Option.map_some, Option.some.injEq, Prod.mk.injEq,
    decide_eq_true_eq] at values
  have accepted := agrees.mpr values.2
  rw [values.1] at accepted
  cases accepted

/-! ## Any chunk size -/

/-- A cache that `mem_cache_new` has accepted, whatever the chunk size: it is at
least a byte and at most a slab. -/
structure SizedCache (m : Machine) where
  root : RootMemCache
  pagesPerSlab : Nat
  chunkSz : Nat
  gfpFlags : BitVec 32
  rootAfter : RootMemCache
  cache : MemCache
  accepted : memCacheNew m root pagesPerSlab chunkSz gfpFlags = some ⟨0, rootAfter, some cache⟩
  noOverflow : pagesPerSlab * m.pageSize < m.wordLimit
  chunkSz_pos : 1 ≤ chunkSz
  chunkSz_le : chunkSz ≤ pagesPerSlab * m.pageSize

namespace SizedCache

def boot (created : SizedCache m) (world : World m) : CacheState m :=
  ⟨created.cache, world, [], []⟩

/-- Each chunk of the cache has a bit, with one for what is left over. -/
def HasBits (created : SizedCache m) : Prop :=
  bitsNeeded m created.pagesPerSlab created.chunkSz ≤ bitmapBits m

/-- `mem_cache_new` makes sure of the bits when the sum in `BITMAP_BYTES` does
not wrap. -/
theorem hasBits_of_noWrap (created : SizedCache m)
    (noWrap : created.pagesPerSlab * m.pageSize + (created.chunkSz - 1) < m.wordLimit) :
    created.HasBits :=
  bitsNeeded_le_bitmapBits created.chunkSz_pos created.noOverflow noWrap
    (memCacheNew_accepted created.accepted).2

/-- The accepted cache has the sizes asked for. -/
theorem hasBits_iff (created : SizedCache m) :
    SlabCache.HasBits m created.cache ↔ created.HasBits := by
  rw [(memCacheNew_accepted created.accepted).1]
  rfl

theorem books_boot (created : SizedCache m) (world : World m) :
    Books created.cache world [] [] (fun _name => []) := by
  rw [(memCacheNew_accepted created.accepted).1]
  apply Books.boot
  refine ⟨?_, created.noOverflow, created.chunkSz_pos, created.chunkSz_le⟩
  change 0 < created.pagesPerSlab
  apply Nat.pos_of_ne_zero
  intro noPages
  have large := created.chunkSz_le
  have positive := created.chunkSz_pos
  rw [noPages, Nat.zero_mul] at large
  omega

end SizedCache

/-- One call.  An accepted address gives back the live chunk that it lies in,
which may start in front of it. -/
def stepByChunk (s : CacheState m) : Call m → Option (CacheState m)
  | .alloc allocator => do
      let result ← memCacheAlloc allocator s.cache s.world
      return ⟨result.cache, result.world, result.obtained ++ s.obtained,
        if result.address = 0 then s.live else result.address :: s.live⟩
  | .free mem => do
      let result ← memCacheFree s.cache s.world mem.toNat
      return ⟨result.cache, result.world, s.obtained,
        if result.err = 0 then s.live.eraseP (chunkHolds s.cache.chunkSz mem.toNat) else s.live⟩

/-- The books are kept, and the sizes are the ones asked for. -/
def InOrder (cache : MemCache) (s : CacheState m) : Prop :=
  SameSizes cache s.cache ∧ ∃ nodes, Books s.cache s.world s.obtained s.live nodes

theorem InOrder.step {s : CacheState m} (inOrder : InOrder cache s) (call : Call m) :
    (∃ next, stepByChunk s call = some next ∧ InOrder cache next) ∨
      (stepByChunk s call = none ∧ ¬HasBits m cache) := by
  rcases inOrder with ⟨sameSizes, nodes, books⟩
  cases call with
  | alloc allocator =>
      simp only [stepByChunk, Option.bind_eq_bind]
      rcases memCacheAlloc_books allocator books with
        ⟨result, returned, stillSame, _confined, kept, _refused⟩ | ⟨none, fewBits⟩
      · rw [returned, Option.bind_some]
        exact Or.inl ⟨_, rfl, sameSizes.trans stillSame, kept⟩
      · rw [none]
        exact Or.inr ⟨rfl, fun bits => fewBits (sameSizes.hasBits_iff.mpr bits)⟩
  | free mem =>
      simp only [stepByChunk, Option.bind_eq_bind]
      rcases memCacheFree_books books mem.toNat with ⟨result, returned, settled⟩ |
        ⟨none, _notLive, fewBits⟩
      · rw [returned, Option.bind_some]
        exact Or.inl ⟨_, rfl, sameSizes.trans settled.sameSizes, settled.books⟩
      · rw [none]
        exact Or.inr ⟨rfl, fun bits => fewBits (sameSizes.hasBits_iff.mpr bits)⟩

/-- If the bits suffice, every list of calls is a run. -/
theorem InOrder.exists_run {s : CacheState m} (inOrder : InOrder cache s) (bits : HasBits m cache)
    (calls : List (Call m)) : ∃ final, Transition.run stepByChunk s calls = some final := by
  have enabled : ∀ (s : CacheState m) (call : Call m), InOrder cache s →
      ∃ next, stepByChunk s call = some next ∧ InOrder cache next := by
    intro s call inOrder
    exact (inOrder.step call).resolve_right fun stuck => stuck.2 bits
  rcases Transition.exists_run enabled inOrder calls with ⟨final, reaches, _inOrder⟩
  exact ⟨final, reaches⟩

theorem InOrder.run {s final : CacheState m} (inOrder : InOrder cache s) {calls : List (Call m)}
    (reaches : Transition.run stepByChunk s calls = some final) : InOrder cache final := by
  have kept : ∀ (s : CacheState m) (call : Call m) (next : CacheState m), InOrder cache s →
      stepByChunk s call = some next → InOrder cache next := by
    intro s call next inOrder stepped
    rcases inOrder.step call with ⟨other, isOther, inOrder⟩ | ⟨none, _fewBits⟩
    · rw [isOther, Option.some.injEq] at stepped
      rw [← stepped]
      exact inOrder
    · rw [none] at stepped
      cases stepped
  exact Transition.Reachable.invariant kept inOrder ⟨calls, reaches⟩

/-- In every state of a run of an accepted cache, a live chunk can be given back
exactly when its address has no bit in common with `chunk_sz - 1` and does not
lie in the last pages of the address space.  If the bits suffice, every list of
calls is a run. -/
theorem chunk_can_be_given_back_iff (created : SizedCache m) (world : World m)
    (calls : List (Call m)) :
    (created.HasBits → ∃ s, Transition.run stepByChunk (created.boot world) calls = some s) ∧
      ∀ s, Transition.run stepByChunk (created.boot world) calls = some s →
        ∀ mem ∈ s.live, ∃ result, memCacheFree s.cache s.world mem = some result ∧
          (result.err = 0 ↔ mem &&& (created.chunkSz - 1) = 0 ∧
            ¬InLastPages s.cache s.world s.obtained mem) := by
  have start : InOrder created.cache (created.boot world) :=
    ⟨SameSizes.refl _, _, created.books_boot world⟩
  refine ⟨fun bits => start.exists_run (created.hasBits_iff.mpr bits) calls, ?_⟩
  intro s reaches mem isLive
  rcases start.run reaches with ⟨sameSizes, nodes, books⟩
  have isCreated := congrArg MemCache.chunkSz (memCacheNew_accepted created.accepted).1
  rcases memCacheFree_live books isLive with ⟨result, returned, settled⟩
  refine ⟨result, returned, ?_⟩
  have notNull : mem ≠ 0 := fun isNull => books.zero_not_live (isNull ▸ isLive)
  rw [settled.accepted_iff, or_iff_right notNull, books.accepts_live_iff isLive, sameSizes.chunkSz,
    isCreated]

/-- Pages of 4096 bytes and chunks of 48. -/
def oddCache : SizedCache Machine.beaglexm where
  root := ⟨4096, 1, 0⟩
  pagesPerSlab := 1
  chunkSz := 48
  gfpFlags := gfpKernel
  rootAfter := ⟨4096, 1, 1⟩
  cache := ⟨1, 48, gfpKernel, 0, 0, 0⟩
  accepted := by decide
  noOverflow := by decide
  chunkSz_pos := by decide
  chunkSz_le := by decide

def bareWorld (m : Machine) : World m := ⟨fun _slab => Slab.zero m, ⟨[], List.Pairwise.nil⟩, []⟩

/-- The first chunk of 48 bytes. -/
theorem chunk_can_be_given_back_iff_first :
    ∃ s, Transition.run stepByChunk (oddCache.boot (bareWorld _))
      [.alloc (chooseFrom [8192, 12288])] =
        some s ∧
      ∀ mem ∈ s.live, ∃ result, memCacheFree s.cache s.world mem = some result ∧
        (result.err = 0 ↔ mem &&& 47 = 0 ∧ ¬InLastPages s.cache s.world s.obtained mem) := by
  rcases chunk_can_be_given_back_iff oddCache (bareWorld _) [.alloc (chooseFrom [8192, 12288])] with
    ⟨isRun, givesBack⟩
  rcases isRun (oddCache.hasBits_of_noWrap (by decide)) with ⟨s, reaches⟩
  exact ⟨s, reaches, givesBack s reaches⟩

/-- The second chunk of 48 bytes is live and is rejected. -/
theorem not_chunk_can_be_given_back_second :
    ¬∀ (created : SizedCache Machine.beaglexm) (world : World Machine.beaglexm)
      (calls : List (Call Machine.beaglexm)),
      ∃ s, Transition.run stepByChunk (created.boot world) calls = some s ∧
        ∀ mem ∈ s.live, ∃ result, memCacheFree s.cache s.world mem = some result ∧
        result.err = 0 := by
  intro claim
  rcases claim oddCache (bareWorld _) [.alloc (chooseFrom [8192, 12288]),
      .alloc (chooseFrom [])] with
    ⟨s, reaches, givesBack⟩
  have values : (Transition.run stepByChunk (oddCache.boot (bareWorld _))
      [.alloc (chooseFrom [8192, 12288]), .alloc (chooseFrom [])]).map (fun s =>
        (decide (12336 ∈ s.live), (memCacheFree s.cache s.world 12336).map FreeResult.err)) =
      some (true, some (-1)) := by
    decide +kernel
  rw [reaches, Option.map_some, Option.some.injEq, Prod.mk.injEq, decide_eq_true_eq] at values
  rcases givesBack 12336 values.1 with ⟨result, returned, accepted⟩
  rw [returned, Option.map_some, accepted] at values
  cases values.2

end SlabCache
end ShovelOS
