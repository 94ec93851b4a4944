import ShovelOS.MemCache.Allocation

namespace ShovelOS
namespace SlabCache

open LinkedList Bitmap

/-!
# Freeing keeps the invariant

`mem_cache_free` accepts an address only when it passes the test with the mask
and the bit of its chunk is set.  The chunk is given back, and its slab goes to
the partial list or, when no chunk of it is left in use, to the free list.  The
pages of a free slab are returned unless the cache is `GFP_ATOMIC`.

The mask is `chunk_sz - 1`.  For a power of two that divides the page size only
the starts of chunks pass it, for other sizes also addresses inside a chunk may.
-/

variable {m : Machine} {cache : MemCache} {world : World m} {obtained live : List Nat}
  {nodes : ListName → List Nat}

/-! ## Giving a chunk back -/

/-- A chunk whose bit is cleared and uncounted. -/
theorem Consistent.giveBack (consistent : Consistent cache world obtained nodes)
    (sizes : Sizes m cache) (inBitmap : InBitmap world obtained) {slab index : Nat}
    (isSlab : IsSlab m obtained slab) (set : isSet (world.slab slab).bitmap index = true) :
    Consistent cache
        (world.modify slab (fun s => s.giveBack (index / m.wordTBits) (index % m.wordTBits)))
        obtained nodes ∧
      ((world.slab slab).giveBack (index / m.wordTBits) (index % m.wordTBits)).allocatedChunks + 1 =
        (world.slab slab).allocatedChunks := by
  have within := consistent.within slab isSlab
  have counted := consistent.counted slab isSlab
  have inside : index % m.wordTBits < m.wordTBits := Nat.mod_lt _ m.wordTBits_pos
  have isIndex : index / m.wordTBits * m.wordTBits + index % m.wordTBits = index :=
    Nat.div_add_mod' index m.wordTBits
  have bounded : (world.slab slab).allocatedChunks ≤ cache.chunksPerSlab m := by
    rw [counted]
    exact count_le within
  have limit := sizes.chunksPerSlab_lt
  have cleared : count (clearBit (world.slab slab).bitmap (index / m.wordTBits)
      (index % m.wordTBits)) (bitmapBits m) + 1 = (world.slab slab).allocatedChunks := by
    rw [counted]
    apply count_clearBit inside
    · rw [isIndex]
      exact inBitmap slab isSlab index set
    · rw [isIndex]
      exact set
  have counter : ((world.slab slab).giveBack (index / m.wordTBits)
      (index % m.wordTBits)).allocatedChunks + 1 = (world.slab slab).allocatedChunks := by
    change ((world.slab slab).allocatedChunks + (m.wordLimit - 1)) % m.wordLimit + 1 = _
    rw [show (world.slab slab).allocatedChunks + (m.wordLimit - 1) =
      (world.slab slab).allocatedChunks - 1 + m.wordLimit by omega, Nat.add_mod_right,
      Nat.mod_eq_of_lt (by omega)]
    omega
  refine ⟨consistent.modify rfl rfl ?_ ?_, counter⟩
  · intro i still
    rw [Slab.giveBack, isSet_clearBit inside, Bool.and_eq_true] at still
    exact within i still.1
  · exact Nat.add_right_cancel (counter.trans cleared.symm)

theorem InBitmap.giveBack (inBitmap : InBitmap world obtained) (slab word : Nat) {bit : Nat}
    (inside : bit < m.wordTBits) :
    InBitmap (world.modify slab (fun s => s.giveBack word bit)) obtained := by
  intro later isSlab i set
  by_cases same : later = slab
  · subst same
    rw [World.modify_self, Slab.giveBack, isSet_clearBit inside, Bool.and_eq_true] at set
    exact inBitmap later isSlab i set.1
  · rw [World.modify_of_ne _ _ same] at set
    exact inBitmap later isSlab i set

theorem Records.giveBack (records : Records cache world obtained live) (sizes : Sizes m cache)
    (consistent : Consistent cache world obtained nodes) (inBitmap : InBitmap world obtained)
    (unused : ∀ slab ∈ nodes .free, (world.slab slab).allocatedChunks = 0) {slab index : Nat}
    (isSlab : IsSlab m obtained slab) (set : isSet (world.slab slab).bitmap index = true) :
    Records cache
      (world.modify slab (fun s => s.giveBack (index / m.wordTBits) (index % m.wordTBits))) obtained
      (live.erase ((world.slab slab).page + index * cache.chunkSz)) where
  nodup := records.nodup.erase _
  mem_iff := by
    have inside : index % m.wordTBits < m.wordTBits := Nat.mod_lt _ m.wordTBits_pos
    have isIndex : index / m.wordTBits * m.wordTBits + index % m.wordTBits = index :=
      Nat.div_add_mod' index m.wordTBits
    have after : ∀ i, isSet (clearBit (world.slab slab).bitmap (index / m.wordTBits)
        (index % m.wordTBits)) i = true ↔ isSet (world.slab slab).bitmap i = true ∧ i ≠ index := by
      intro i
      rw [isSet_clearBit inside, isIndex, Bool.and_eq_true, Bool.not_eq_true',
        decide_eq_false_iff_not]
    intro mem
    rw [records.nodup.mem_erase_iff, records.mem_iff]
    constructor
    · rintro ⟨different, other, second, alsoSlab, alsoSet, address⟩
      refine ⟨other, second, alsoSlab, ?_⟩
      by_cases same : other = slab
      · subst same
        rw [World.modify_self]
        refine ⟨(after second).mpr ⟨alsoSet, fun sameIndex => different ?_⟩, address⟩
        rw [address, sameIndex]
      · rw [World.modify_of_ne _ _ same]
        exact ⟨alsoSet, address⟩
    · rintro ⟨other, second, alsoSlab, alsoSet, address⟩
      by_cases same : other = slab
      · subst same
        rw [World.modify_self] at alsoSet address
        rcases (after second).mp alsoSet with ⟨wasSet, notIndex⟩
        refine ⟨fun sameAddress => notIndex ?_, other, second, alsoSlab, wasSet, address⟩
        have sameProduct := Nat.add_left_cancel (address.symm.trans sameAddress)
        exact Nat.eq_of_mul_eq_mul_right sizes.chunkSz_pos sameProduct
      · rw [World.modify_of_ne _ _ same] at alsoSet address
        refine ⟨fun sameAddress => same ?_, other, second, alsoSlab, alsoSet, address⟩
        exact (consistent.owns.chunk_unique sizes.chunksPerSlab_mul_le sizes.chunkSz_pos
          alsoSlab isSlab
          (consistent.used_attached inBitmap unused alsoSlab alsoSet)
          (consistent.used_attached inBitmap unused isSlab set)
          (consistent.within other alsoSlab second alsoSet)
          (consistent.within slab isSlab index set) (address.symm.trans sameAddress)).1

/-! ## Returning the pages of a slab -/

/-- A free slab may lose its pages. -/
theorem Books.detach (books : Books cache world obtained live nodes) {slab : Nat}
    (onList : slab ∈ nodes .free) (hasPages : (world.slab slab).page ≠ 0) :
    Books cache (detachPages cache world slab) obtained live nodes := by
  unfold detachPages
  by_cases returns : cache.gfpFlags &&& gfpAtomic = 0#32
  · rw [if_pos returns]
    have owns := books.consistent.owns
    have isSlab := books.consistent.isSlab onList
    have still : ∀ region ∈ world.held.regions,
        region.address ≠ (world.slab slab).page → region ∈ world.held.regions.erase
          ⟨(world.slab slab).page, cache.pagesPerSlab⟩ := by
      intro region isHeld different
      exact (List.mem_erase_of_ne (fun same => different (congrArg Region.address same))).mpr isHeld
    have sameSlab : ∀ later, IsSlab m obtained later →
        (freePages world (world.slab slab).page cache.pagesPerSlab).slab later = world.slab later :=
      fun _later _isSlab => rfl
    apply books.setPage sameSlab onList
    apply owns.setPage sameSlab
    · intro base isMember
      apply still _ (owns.slabPage base isMember).2
      intro same
      exact owns.separate slab isSlab hasPages (same ▸ isMember)
    · intro later alsoSlab different attached
      apply still _ (owns.chunkPages later alsoSlab attached).1
      exact fun same => different (owns.unshared later slab alsoSlab isSlab attached same)
    · exact fun notNull => absurd rfl notNull
    · exact fun notNull => absurd rfl notNull
    · exact fun notNull => absurd rfl notNull
  · rw [if_neg returns]
    exact books

/-! ## The whole call -/

/-- A slab that has room goes to the partial list or, when no chunk of it is in
use, to the free list, where it may lose its pages. -/
theorem settle_spec (sizes : Sizes m cache) (inBitmap : InBitmap world obtained)
    (consistent : Consistent cache world obtained nodes)
    (records : Records cache world obtained live)
    {name : ListName} {before rest : List Nat} {slab : Nat}
    (split : nodes name = before ++ slab :: rest) (hasPages : (world.slab slab).page ≠ 0)
    (others : ∀ list, ∀ later ∈ nodes list, later ≠ slab →
      BelongsOn (cache.chunksPerSlab m) (world.slab later).allocatedChunks list)
    (room : (world.slab slab).allocatedChunks < cache.chunksPerSlab m) :
    ∃ settled after,
      (if (world.slab slab).allocatedChunks = 0 then
        ((moveSlab cache world (linkAfter (.head name) before) slab .free).1,
          detachPages (moveSlab cache world (linkAfter (.head name) before) slab .free).1
            (moveSlab cache world (linkAfter (.head name) before) slab .free).2 slab)
        else moveSlab cache world (linkAfter (.head name) before) slab .partly) = (settled, after) ∧
      SameSizes cache settled ∧ Confined cache.pagesPerSlab world obtained after obtained ∧
      ∃ nodes, Books settled after obtained live nodes := by
  have sameSizes := SameSizes.moveSlab cache world (linkAfter (.head name) before) slab
  have onlyNext := OnlyNext.moveSlab cache world (linkAfter (.head name) before) slab
  have settled : ∀ target,
      BelongsOn (cache.chunksPerSlab m) (world.slab slab).allocatedChunks target →
        Books (moveSlab cache world (linkAfter (.head name) before) slab target).1
          (moveSlab cache world (linkAfter (.head name) before) slab target).2 obtained live
          (moved nodes name (before ++ rest) slab target) := by
    intro target belongs
    rcases moveSlab_spec consistent split hasPages others belongs with ⟨kept, sorted⟩
    exact ⟨(sameSizes target).sizes sizes,
      inBitmap.congr fun later _isSlab => (onlyNext target).bitmap later, kept, sorted,
      records.relink (sameSizes target) (onlyNext target)⟩
  have isSlab := consistent.isSlab (mem_of_split split)
  have moving : ∀ target, Confined cache.pagesPerSlab world obtained
      (moveSlab cache world (linkAfter (.head name) before) slab target).2 obtained :=
    Confined.moveSlab consistent.owns (Confined.isSlab_of_linkAfter consistent split) isSlab
  by_cases empty : (world.slab slab).allocatedChunks = 0
  · rw [if_pos empty]
    have books := settled .free empty
    have ownsAfter := books.consistent.owns
    have stillPages := hasPages
    rw [← (onlyNext .free).page slab] at stillPages
    refine ⟨_, _, rfl, sameSizes .free, ?_, _,
      books.detach (mem_moved_self name .free (before ++ rest) slab) stillPages⟩
    have detaching := Confined.detachPages ownsAfter isSlab stillPages
    rw [(sameSizes .free).pagesPerSlab] at detaching
    exact (moving .free).trans detaching
  · rw [if_neg empty]
    exact ⟨_, _, rfl, sameSizes .partly, moving .partly, _,
      settled .partly ⟨Nat.pos_of_ne_zero empty, room⟩⟩

/-- Freeing the chunk behind a link of the partial or the full list. -/
theorem freeChunk_spec (books : Books cache world obtained live nodes) {name : ListName}
    (notFree : name ≠ .free) {before rest : List Nat} {slab index : Nat}
    (split : nodes name = before ++ slab :: rest)
    (set : isSet (world.slab slab).bitmap index = true) :
    ∃ freed after, freeChunk cache world (linkAfter (.head name) before) (index / m.wordTBits)
        (index % m.wordTBits) = (freed, after) ∧ SameSizes cache freed ∧
      Confined cache.pagesPerSlab world obtained after obtained ∧
      ∃ nodes, Books freed after obtained
        (live.erase ((world.slab slab).page + index * cache.chunkSz)) nodes := by
  have onList : slab ∈ nodes name := mem_of_split split
  have isSlab := books.consistent.isSlab onList
  rcases books.consistent.giveBack books.sizes books.inBitmap isSlab set with ⟨given, counter⟩
  have records := books.records.giveBack books.sizes books.consistent books.inBitmap
    (books.sorted .free) isSlab set
  have atSlab := World.modify_self world slab
    (fun s => s.giveBack (index / m.wordTBits) (index % m.wordTBits))
  have bounded : (world.slab slab).allocatedChunks ≤ cache.chunksPerSlab m := by
    rw [books.consistent.counted slab isSlab]
    exact count_le (books.consistent.within slab isSlab)
  have hasPages := books.consistent.attached name notFree slab onList
  have others : ∀ list, ∀ later ∈ nodes list, later ≠ slab → BelongsOn (cache.chunksPerSlab m)
      ((world.modify slab (fun s => s.giveBack (index / m.wordTBits)
        (index % m.wordTBits))).slab later).allocatedChunks list := by
    intro list later isMember different
    rw [World.modify_of_ne _ _ different]
    exact books.sorted list later isMember
  unfold freeChunk
  rw [books.consistent.holds.read_linkAfter split]
  have inBitmap := books.inBitmap.giveBack slab (index / m.wordTBits)
    (Nat.mod_lt index m.wordTBits_pos)
  rcases settle_spec books.sizes inBitmap given records split
      (by rw [atSlab]; exact hasPages) others
      (by rw [atSlab]; omega) with ⟨freed, after, settles, sameSizes, settling, kept⟩
  have giving := Confined.modify books.consistent.owns isSlab
    (fun s => s.giveBack (index / m.wordTBits) (index % m.wordTBits)) rfl
  exact ⟨freed, after, settles, sameSizes, giving.trans settling, kept⟩

/-! ## The addresses that are accepted -/

/-- The address is accepted for a chunk: it passes the test with the mask and
lies in the chunk, which is allocated, and the pages of the slab do not end with
the address space. -/
structure GivesBack (cache : MemCache) (world : World m) (obtained : List Nat)
    (mem slab index : Nat) : Prop where
  passes : mem &&& (cache.chunkSz - 1) = 0
  isSlab : IsSlab m obtained slab
  set : isSet (world.slab slab).bitmap index = true
  lower : (world.slab slab).page + index * cache.chunkSz ≤ mem
  upper : mem < (world.slab slab).page + index * cache.chunkSz + cache.chunkSz
  notLast : (world.slab slab).page + cache.pagesPerSlab * m.pageSize < m.wordLimit

/-- The chunk that starts at an address has another address in it. -/
def chunkHolds (chunkSz mem start : Nat) : Bool := decide (start ≤ mem ∧ mem < start + chunkSz)

theorem chunkHolds_iff {chunkSz mem start : Nat} :
    chunkHolds chunkSz mem start = true ↔ start ≤ mem ∧ mem < start + chunkSz :=
  decide_eq_true_iff

/-- Erasing all that satisfies a test, when one element does. -/
theorem eraseP_eq_erase {l : List Nat} {test : Nat → Bool} {only : Nat}
    (unique : ∀ a ∈ l, test a = true ↔ a = only) : l.eraseP test = l.erase only := by
  induction l with
  | nil => rfl
  | cons a l inductionHypothesis =>
      have rest :=
        inductionHypothesis (fun b isMember => unique b (List.mem_cons_of_mem _ isMember))
      by_cases isOnly : a = only
      · rw [List.eraseP_cons_of_pos ((unique a List.mem_cons_self).mpr isOnly), isOnly,
          List.erase_cons_head]
      · have fails : ¬test a = true := fun holds => isOnly ((unique a List.mem_cons_self).mp holds)
        rw [List.eraseP_cons_of_neg fails, rest, List.erase_cons_tail (by simpa using isOnly)]

namespace Books

theorem slab_unique (books : Books cache world obtained live nodes) {slab other mem : Nat}
    (isSlab : IsSlab m obtained slab) (alsoSlab : IsSlab m obtained other)
    (attached : (world.slab slab).page ≠ 0) (alsoAttached : (world.slab other).page ≠ 0)
    (lower : (world.slab slab).page ≤ mem)
    (upper : mem < (world.slab slab).page + cache.pagesPerSlab * m.pageSize)
    (alsoLower : (world.slab other).page ≤ mem)
    (alsoUpper : mem < (world.slab other).page + cache.pagesPerSlab * m.pageSize) :
    slab = other := by
  by_contra different
  have apart := books.consistent.owns.pages_apart isSlab alsoSlab attached alsoAttached different
  rw [Region.Apart] at apart
  dsimp only at apart
  omega

/-- A live chunk that has the address of an allocated chunk in it is that
chunk. -/
theorem live_unique (books : Books cache world obtained live nodes) {slab index mem start : Nat}
    (isSlab : IsSlab m obtained slab) (set : isSet (world.slab slab).bitmap index = true)
    (lower : (world.slab slab).page + index * cache.chunkSz ≤ mem)
    (upper : mem < (world.slab slab).page + index * cache.chunkSz + cache.chunkSz)
    (isLive : start ∈ live) :
    chunkHolds cache.chunkSz mem start = true ↔
      start = (world.slab slab).page + index * cache.chunkSz := by
  rw [chunkHolds_iff]
  constructor
  · rintro ⟨startLower, startUpper⟩
    have alsoLive := (books.records.mem_iff _).mpr ⟨slab, index, isSlab, set, rfl⟩
    by_contra different
    have apart := books.apart_of_ne isLive alsoLive different
    omega
  · rintro rfl
    exact ⟨lower, upper⟩

/-- An allocated chunk lies in the pages of its slab, which contain its
addresses unless they end with the address space. -/
theorem contains (books : Books cache world obtained live nodes) {mem slab index : Nat}
    (gives : GivesBack cache world obtained mem slab index) :
    _pageContainsAddress cache (world.slab slab) mem = true ∧
      chunkIndex cache (world.slab slab) mem = index := by
  have hasPages := books.attached gives.isSlab gives.set
  have inside := (books.consistent.owns.chunkPages slab gives.isSlab hasPages).2.2
  have ends := books.sizes.chunk_inside (books.consistent.within slab gives.isSlab index gives.set)
  have lower := gives.lower
  have upper := gives.upper
  refine ⟨(contains_iff inside).mpr ⟨?_, ?_, gives.notLast⟩, chunkIndex_eq lower upper⟩
  · omega
  · omega

/-- A slab with a set bit is searched. -/
theorem searched (books : Books cache world obtained live nodes) {slab index : Nat}
    (isSlab : IsSlab m obtained slab) (set : isSet (world.slab slab).bitmap index = true) :
    slab ∈ nodes .partly ∨ slab ∈ nodes .full := by
  rcases (books.consistent.covers slab).mpr isSlab with ⟨name, onList⟩
  cases name with
  | full => exact Or.inr onList
  | partly => exact Or.inl onList
  | free =>
      rw [books.clear_of_free onList index] at set
      cases set

/-- What a search finds is accepted. -/
theorem givesBack_of_found (books : Books cache world obtained live nodes) {name : ListName}
    (notFree : name ≠ .free) {slab mem : Nat} (onList : slab ∈ nodes name)
    (passes : mem &&& (cache.chunkSz - 1) = 0)
    (contains : _pageContainsAddress cache (world.slab slab) mem = true)
    (set : isSet (world.slab slab).bitmap (chunkIndex cache (world.slab slab) mem) = true) :
    GivesBack cache world obtained mem slab (chunkIndex cache (world.slab slab) mem) := by
  have isSlab := books.consistent.isSlab onList
  have pages := books.consistent.owns.chunkPages slab isSlab
    (books.consistent.attached name notFree slab onList)
  rcases (contains_iff pages.2.2).mp contains with ⟨lower, _upper, notLast⟩
  rcases chunkIndex_bounds books.sizes lower with ⟨starts, ends⟩
  exact ⟨passes, isSlab, set, starts, ends, notLast⟩

/-- A search does not reject an accepted address: it finds the chunk, or the
slab is not on the list. -/
theorem found_or_notFound (books : Books cache world obtained live nodes) {name : ListName}
    (notFree : name ≠ .free) {mem slab index : Nat} {link : Link ListName Nat} {far : Far}
    (search : Searched cache world nodes name mem link far)
    (gives : GivesBack cache world obtained mem slab index) :
    (∃ word bit, far = .found word bit) ∨ (far = .notFound ∧ slab ∉ nodes name) := by
  rcases books.contains gives with ⟨contains, isIndex⟩
  cases search with
  | found _passes _split _contains _set => exact Or.inl ⟨_, _, rfl⟩
  | corrupt fails => exact absurd gives.passes fails
  | notFound outside => exact Or.inr ⟨rfl, fun onList => outside slab onList contains⟩
  | @doublefree _link other onList alsoContains clear =>
      -- the address lies in one slab only, whose bit for it is set
      have alsoSlab := books.consistent.isSlab onList
      have hasPages := books.attached gives.isSlab gives.set
      have alsoPages := books.consistent.attached name notFree other onList
      have owns := books.consistent.owns
      have first := (contains_iff (owns.chunkPages slab gives.isSlab hasPages).2.2).mp contains
      have second := (contains_iff (owns.chunkPages other alsoSlab alsoPages).2.2).mp alsoContains
      have same := books.slab_unique gives.isSlab alsoSlab hasPages alsoPages first.1 first.2.1
        second.1 second.2.1
      rw [← same, isIndex, gives.set] at clear
      cases clear

theorem not_doublefree (books : Books cache world obtained live nodes) {name : ListName}
    (notFree : name ≠ .free) {mem slab index : Nat} {link : Link ListName Nat}
    (search : Searched cache world nodes name mem link .doublefree) :
    ¬GivesBack cache world obtained mem slab index := by
  intro gives
  rcases books.found_or_notFound notFree search gives with ⟨word, bit, isFound⟩ | ⟨isNotFound, _⟩
  · cases isFound
  · cases isNotFound

/-- When neither list has the address, it is not accepted. -/
theorem not_notFound (books : Books cache world obtained live nodes) {mem slab index : Nat}
    {link second : Link ListName Nat}
    (partly : Searched cache world nodes .partly mem link .notFound)
    (full : Searched cache world nodes .full mem second .notFound) :
    ¬GivesBack cache world obtained mem slab index := by
  intro gives
  rcases books.found_or_notFound (by decide) partly gives with ⟨word, bit, isFound⟩ | ⟨_, notPartly⟩
  · cases isFound
  rcases books.found_or_notFound (by decide) full gives with ⟨word, bit, isFound⟩ | ⟨_, notFull⟩
  · cases isFound
  rcases books.searched gives.isSlab gives.set with onPartly | onFull
  · exact notPartly onPartly
  · exact notFull onFull

end Books

/-! ## The outcome of a call -/

/-- What comes of a call of `mem_cache_free`: it accepts the null address and
those for which a chunk is given back, and changes nothing when it rejects an
address. -/
structure Settled (cache : MemCache) (world : World m) (obtained live : List Nat) (mem : Nat)
    (result : FreeResult m) : Prop where
  sameSizes : SameSizes cache result.cache
  confined : Confined cache.pagesPerSlab world obtained result.world obtained
  books : ∃ nodes, Books result.cache result.world obtained
    (if result.err = 0 then live.eraseP (chunkHolds cache.chunkSz mem) else live) nodes
  accepted_iff : result.err = 0 ↔ mem = 0 ∨
    ∃ slab index, GivesBack cache world obtained mem slab index
  rejected : result.err ≠ 0 → result.cache = cache ∧ result.world = world

namespace Books

/-- No caller holds a chunk at the null address. -/
theorem zero_not_live (books : Books cache world obtained live nodes) : 0 ∉ live := by
  intro isLive
  rcases (books.records.mem_iff 0).mp isLive with ⟨slab, index, isSlab, set, address⟩
  have hasPages := books.attached isSlab set
  omega

/-- So the null address gives no chunk back. -/
theorem eraseP_zero (books : Books cache world obtained live nodes) (chunkSz : Nat) :
    live.eraseP (chunkHolds chunkSz 0) = live := by
  apply List.eraseP_of_forall_not
  intro start isLive holds
  rw [Nat.le_zero.mp (chunkHolds_iff.mp holds).1] at isLive
  exact books.zero_not_live isLive

theorem rejected (books : Books cache world obtained live nodes) {mem : Nat} (notNull : mem ≠ 0)
    (noChunk : ∀ slab index, ¬GivesBack cache world obtained mem slab index) :
    Settled cache world obtained live mem ⟨-1, cache, world⟩ := by
  refine ⟨SameSizes.refl cache, Confined.refl _ _ _, ⟨nodes, books⟩, iff_of_false ?_ ?_,
    fun _rejected => ⟨rfl, rfl⟩⟩
  · intro accepted
    cases accepted
  · rintro (isNull | ⟨slab, index, gives⟩)
    · exact notNull isNull
    · exact noChunk slab index gives

theorem found (books : Books cache world obtained live nodes) {name : ListName}
    (notFree : name ≠ .free) {before rest : List Nat} {slab mem : Nat}
    (split : nodes name = before ++ slab :: rest) (passes : mem &&& (cache.chunkSz - 1) = 0)
    (contains : _pageContainsAddress cache (world.slab slab) mem = true)
    (set : isSet (world.slab slab).bitmap (chunkIndex cache (world.slab slab) mem) = true) :
    Settled cache world obtained live mem
      ⟨0, (freeChunk cache world (linkAfter (.head name) before)
          (chunkIndex cache (world.slab slab) mem / m.wordTBits)
          (chunkIndex cache (world.slab slab) mem % m.wordTBits)).1,
        (freeChunk cache world (linkAfter (.head name) before)
          (chunkIndex cache (world.slab slab) mem / m.wordTBits)
          (chunkIndex cache (world.slab slab) mem % m.wordTBits)).2⟩ := by
  have gives := books.givesBack_of_found notFree (mem_of_split split) passes contains set
  rcases freeChunk_spec books notFree split set with
    ⟨freed, after, result, sameSizes, confined, final, kept⟩
  rw [result]
  refine ⟨sameSizes, confined, ⟨final, ?_⟩, iff_of_true rfl (Or.inr ⟨_, _, gives⟩),
    fun rejected => absurd rfl rejected⟩
  rw [if_pos rfl, eraseP_eq_erase fun start isLive =>
    books.live_unique gives.isSlab set gives.lower gives.upper isLive]
  exact kept

end Books

/-- An address in a chunk without a bit is looked up only in caches that have
such chunks. -/
theorem Books.not_hasBits (books : Books cache world obtained live nodes) {name : ListName}
    (notFree : name ≠ .free) {mem : Nat} (bitless : Bitless cache world (nodes name) mem) :
    ¬HasBits m cache := by
  rcases bitless with ⟨slab, onList, contains, behind⟩
  have pages := books.consistent.owns.chunkPages slab (books.consistent.isSlab onList)
    (books.consistent.attached name notFree slab onList)
  rcases (contains_iff pages.2.2).mp contains with ⟨lower, upper, _notLast⟩
  exact books.sizes.not_hasBits_of_offset (by omega) behind

/-- A live chunk has a bit, also in such caches. -/
theorem Books.not_live_of_bitless (books : Books cache world obtained live nodes) {name : ListName}
    (notFree : name ≠ .free) {mem : Nat} (bitless : Bitless cache world (nodes name) mem) :
    mem ∉ live := by
  intro isLive
  rcases bitless with ⟨other, onList, contains, behind⟩
  rcases (books.records.mem_iff mem).mp isLive with ⟨slab, index, isSlab, set, rfl⟩
  have alsoSlab := books.consistent.isSlab onList
  have hasPages := books.attached isSlab set
  have alsoPages := books.consistent.attached name notFree other onList
  have ends := books.sizes.chunk_inside (books.consistent.within slab isSlab index set)
  have positive := books.sizes.chunkSz_pos
  rcases (contains_iff (books.consistent.owns.chunkPages other alsoSlab alsoPages).2.2).mp
      contains with
    ⟨lower, upper, _notLast⟩
  have same :=
    books.slab_unique isSlab alsoSlab hasPages alsoPages (Nat.le_add_right _ _) (by omega)
    lower upper
  rw [← same, chunkIndex_eq (Nat.le_refl _) (by omega)] at behind
  exact Nat.not_lt.mpr behind (books.inBitmap slab isSlab index set)

/-- `mem_cache_free` keeps the books, and accepts the null address and those for
which it gives back a chunk.  It returns unless it looks for a bit that a
chunk does not have. -/
theorem memCacheFree_books (books : Books cache world obtained live nodes) (mem : Nat) :
    (∃ result, memCacheFree cache world mem = some result ∧
      Settled cache world obtained live mem result) ∨
    (memCacheFree cache world mem = none ∧ mem ∉ live ∧ ¬HasBits m cache) := by
  unfold memCacheFree
  by_cases isNull : mem = 0
  · rw [if_pos isNull]
    refine Or.inl ⟨_, rfl, SameSizes.refl cache, Confined.refl _ _ _, ⟨nodes, ?_⟩,
      iff_of_true rfl (Or.inl isNull), fun rejected => absurd rfl rejected⟩
    rw [if_pos rfl, isNull, books.eraseP_zero]
    exact books
  · rw [if_neg isNull]
    rcases _findAllocated_spec books.sizes books.consistent .partly mem with
      ⟨link, far, search, partly⟩ | ⟨stuck, bitless⟩
    · rw [search]
      cases partly with
      | found passes split contains set =>
          exact Or.inl ⟨_, rfl, books.found (by decide) split passes contains set⟩
      | corrupt fails =>
          exact Or.inl ⟨_, rfl, books.rejected isNull fun _ _ gives => fails gives.passes⟩
      | doublefree onList contains clear =>
          have isDouble : Searched cache world nodes .partly mem link .doublefree :=
            .doublefree onList contains clear
          exact Or.inl ⟨_, rfl,
            books.rejected isNull fun _ _ => books.not_doublefree (by decide) isDouble⟩
      | notFound outside =>
          simp only [Option.bind_eq_bind, Option.bind_some]
          rcases _findAllocated_spec books.sizes books.consistent .full mem with
            ⟨second, far, again, full⟩ | ⟨stuck, bitless⟩
          · rw [again]
            cases full with
            | found passes split contains set =>
                exact Or.inl ⟨_, rfl, books.found (by decide) split passes contains set⟩
            | corrupt fails =>
                exact Or.inl ⟨_, rfl, books.rejected isNull fun _ _ gives => fails gives.passes⟩
            | doublefree onList contains clear =>
                have isDouble : Searched cache world nodes .full mem second .doublefree :=
                  .doublefree onList contains clear
                exact Or.inl ⟨_, rfl,
                  books.rejected isNull fun _ _ => books.not_doublefree (by decide) isDouble⟩
            | notFound alsoOutside =>
                have notPartly : Searched cache world nodes .partly mem link .notFound :=
                  .notFound outside
                have notFull : Searched cache world nodes .full mem second .notFound :=
                  .notFound alsoOutside
                exact Or.inl ⟨_, rfl,
                  books.rejected isNull fun _ _ => books.not_notFound notPartly notFull⟩
          · rw [stuck]
            exact Or.inr ⟨rfl, books.not_live_of_bitless (by decide) bitless,
              books.not_hasBits (by decide) bitless⟩
    · rw [stuck]
      exact Or.inr ⟨rfl, books.not_live_of_bitless (by decide) bitless,
        books.not_hasBits (by decide) bitless⟩

theorem memCacheFree_live (books : Books cache world obtained live nodes) {mem : Nat}
    (isLive : mem ∈ live) : ∃ result, memCacheFree cache world mem = some result ∧
      Settled cache world obtained live mem result := by
  rcases memCacheFree_books books mem with returns | ⟨_none, notLive, _fewBits⟩
  · exact returns
  · exact absurd isLive notLive

/-- When the chunk size is a power of two, `mem_cache_free` always returns. -/
theorem Invariant.settled (invariant : Invariant cache world obtained live nodes) (mem : Nat) :
    ∃ result, memCacheFree cache world mem = some result ∧
      Settled cache world obtained live mem result := by
  rcases memCacheFree_books invariant.books mem with returns | ⟨_none, _notLive, fewBits⟩
  · exact returns
  · exact absurd invariant.shape.hasBits fewBits

/-- What `mem_cache_free` promises. -/
structure Freed (cache : MemCache) (world : World m) (obtained live : List Nat) (mem : Nat)
    (result : FreeResult m) : Prop where
  sameSizes : SameSizes cache result.cache
  invariant : ∃ nodes, Invariant result.cache result.world obtained
    (if result.err = 0 then live.erase mem else live) nodes
  accepted : result.err = 0 → mem = 0 ∨ mem ∈ live
  rejected : result.err ≠ 0 → result.cache = cache ∧ result.world = world

/-- When the chunk size is a power of two that divides the page size, an address
is accepted for the chunk that starts there. -/
theorem Invariant.start_of_givesBack (invariant : Invariant cache world obtained live nodes)
    {mem slab index : Nat} (gives : GivesBack cache world obtained mem slab index) :
    mem = (world.slab slab).page + index * cache.chunkSz := by
  have shape := invariant.shape
  have hasPages := invariant.books.attached gives.isSlab gives.set
  have pageAligned := (invariant.consistent.owns.chunkPages slab gives.isSlab hasPages).2.1
  have startAligned : cache.chunkSz ∣ (world.slab slab).page + index * cache.chunkSz :=
    Nat.dvd_add (Nat.dvd_trans shape.dvd_pageSize pageAligned) (Nat.dvd_mul_left _ _)
  have offset := Nat.dvd_sub ((shape.mask_iff mem).mp gives.passes) startAligned
  have lower := gives.lower
  have upper := gives.upper
  have none := Nat.eq_zero_of_dvd_of_lt offset (by omega)
  omega

theorem memCacheFree_spec (invariant : Invariant cache world obtained live nodes) (mem : Nat) :
    ∃ result, memCacheFree cache world mem = some result ∧
      Freed cache world obtained live mem result := by
  rcases invariant.settled mem with ⟨result, returned, settled⟩
  rcases settled.books with ⟨after, books⟩
  have kept := books.invariant (settled.sameSizes.shape invariant.shape)
  refine ⟨result, returned, settled.sameSizes, ⟨after, ?_⟩, ?_, settled.rejected⟩
  · by_cases accepted : result.err = 0
    · rw [if_pos accepted] at kept ⊢
      rcases settled.accepted_iff.mp accepted with rfl | ⟨slab, index, gives⟩
      · rw [invariant.books.eraseP_zero] at kept
        rw [List.erase_of_not_mem invariant.books.zero_not_live]
        exact kept
      · rw [eraseP_eq_erase fun start isLive => invariant.books.live_unique gives.isSlab gives.set
          gives.lower gives.upper isLive, ← invariant.start_of_givesBack gives] at kept
        exact kept
    · rw [if_neg accepted] at kept ⊢
      exact kept
  · intro accepted
    refine (settled.accepted_iff.mp accepted).imp_right ?_
    rintro ⟨slab, index, gives⟩
    rw [invariant.records.mem_iff]
    exact ⟨slab, index, gives.isSlab, gives.set, invariant.start_of_givesBack gives⟩

end SlabCache
end ShovelOS
