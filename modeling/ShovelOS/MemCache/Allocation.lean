import ShovelOS.MemCache.Search
import ShovelOS.MemCache.Footprint

namespace ShovelOS
namespace SlabCache

open LinkedList Bitmap

/-!
# Allocating keeps the invariant

`mem_cache_alloc` takes a chunk from the first partial slab with a clear bit.
When there is no partial slab it plucks one from the free list, after pages
have been attached to it, and when there is no free slab either it first asks
for more.  The plucked slab is partial without a chunk in use until one is
taken from it, so the invariant is restored at the end only.
-/

variable {m : Machine} {cache : MemCache} {world : World m} {obtained live : List Nat}
  {nodes : ListName → List Nat}

/-! ## Taking a chunk -/

/-- What holds when a chunk is about to be taken: there is a partial slab,
each has room, and only a slab that is alone there may be empty. -/
structure Ready (cache : MemCache) (world : World m) (nodes : ListName → List Nat) : Prop where
  others : ∀ name, name ≠ .partly → ∀ slab ∈ nodes name,
    BelongsOn (cache.chunksPerSlab m) (world.slab slab).allocatedChunks name
  room : ∀ slab ∈ nodes .partly, (world.slab slab).allocatedChunks < cache.chunksPerSlab m
  used : ∀ slab ∈ nodes .partly,
    0 < (world.slab slab).allocatedChunks ∨ nodes .partly = [slab]
  nonempty : nodes .partly ≠ []

theorem Ready.unused (ready : Ready cache world nodes) :
    ∀ slab ∈ nodes .free, (world.slab slab).allocatedChunks = 0 :=
  ready.others .free (by decide)

theorem Sorted.ready (sorted : Sorted cache world nodes) (nonempty : nodes .partly ≠ []) :
    Ready cache world nodes :=
  ⟨fun name _notPartly slab onList => sorted name slab onList,
    fun slab onList => (sorted .partly slab onList).2,
    fun slab onList => Or.inl (sorted .partly slab onList).1, nonempty⟩

/-- A chunk whose bit is set and counted. -/
theorem Consistent.take (consistent : Consistent cache world obtained nodes) (sizes : Sizes m cache)
    {slab word bit : Nat} (isSlab : IsSlab m obtained slab) (inside : bit < m.wordTBits)
    (isWord : word < maxBitmapWords m) (below : word * m.wordTBits + bit < cache.chunksPerSlab m)
    (clear : isSet (world.slab slab).bitmap (word * m.wordTBits + bit) = false)
    (notFull : (world.slab slab).allocatedChunks < cache.chunksPerSlab m) :
    Consistent cache (world.modify slab (fun s => s.take word bit)) obtained nodes ∧
      ((world.slab slab).take word bit).allocatedChunks =
        (world.slab slab).allocatedChunks + 1 := by
  have within := consistent.within slab isSlab
  have counted := consistent.counted slab isSlab
  have counter : ((world.slab slab).take word bit).allocatedChunks =
      (world.slab slab).allocatedChunks + 1 :=
    Nat.mod_eq_of_lt (Nat.lt_of_le_of_lt notFull sizes.chunksPerSlab_lt)
  refine ⟨consistent.modify rfl rfl ?_ ?_, counter⟩
  · intro i set
    rw [Slab.take, isSet_setBit inside, Bool.or_eq_true, decide_eq_true_eq] at set
    rcases set with old | isNew
    · exact within i old
    · rw [isNew]
      exact below
  · rw [counter, counted]
    exact (count_setBit inside (index_lt_bitmapBits isWord inside) clear).symm

theorem InBitmap.take (inBitmap : InBitmap world obtained) (slab : Nat) {word bit : Nat}
    (inside : bit < m.wordTBits) (isWord : word < maxBitmapWords m) :
    InBitmap (world.modify slab (fun s => s.take word bit)) obtained := by
  intro later isSlab i set
  by_cases same : later = slab
  · subst same
    rw [World.modify_self, Slab.take, isSet_setBit inside, Bool.or_eq_true,
      decide_eq_true_eq] at set
    rcases set with old | isNew
    · exact inBitmap later isSlab i old
    · rw [isNew]
      exact index_lt_bitmapBits isWord inside
  · rw [World.modify_of_ne _ _ same] at set
    exact inBitmap later isSlab i set

theorem Records.take (records : Records cache world obtained live) (sizes : Sizes m cache)
    (consistent : Consistent cache world obtained nodes) (inBitmap : InBitmap world obtained)
    (unused : ∀ slab ∈ nodes .free, (world.slab slab).allocatedChunks = 0) {slab word bit : Nat}
    (isSlab : IsSlab m obtained slab) (hasPages : (world.slab slab).page ≠ 0)
    (inside : bit < m.wordTBits) (below : word * m.wordTBits + bit < cache.chunksPerSlab m)
    (clear : isSet (world.slab slab).bitmap (word * m.wordTBits + bit) = false) :
    Records cache (world.modify slab (fun s => s.take word bit)) obtained
      (((world.slab slab).page + (word * m.wordTBits + bit) * cache.chunkSz) :: live) where
  nodup := by
    refine List.nodup_cons.mpr ⟨fun isLive => ?_, records.nodup⟩
    rcases (records.mem_iff _).mp isLive with ⟨other, index, alsoSlab, set, same⟩
    rcases consistent.owns.chunk_unique sizes.chunksPerSlab_mul_le sizes.chunkSz_pos isSlab alsoSlab
        hasPages (consistent.used_attached inBitmap unused alsoSlab set) below
        (consistent.within other alsoSlab index set) same with ⟨rfl, rfl⟩
    rw [clear] at set
    cases set
  mem_iff := by
    intro mem
    rw [List.mem_cons, records.mem_iff]
    constructor
    · rintro (isNew | ⟨other, index, alsoSlab, set, address⟩)
      · refine ⟨slab, word * m.wordTBits + bit, isSlab, ?_, ?_⟩
        · rw [World.modify_self, Slab.take, isSet_setBit inside, decide_eq_true rfl, Bool.or_true]
        · rw [World.modify_self]
          exact isNew
      · refine ⟨other, index, alsoSlab, ?_⟩
        by_cases same : other = slab
        · subst same
          rw [World.modify_self, Slab.take, isSet_setBit inside, set, Bool.true_or]
          exact ⟨rfl, address⟩
        · rw [World.modify_of_ne _ _ same]
          exact ⟨set, address⟩
    · rintro ⟨other, index, alsoSlab, set, address⟩
      by_cases same : other = slab
      · subst same
        rw [World.modify_self] at set address
        rw [Slab.take, isSet_setBit inside, Bool.or_eq_true, decide_eq_true_eq] at set
        rcases set with old | isNew
        · exact Or.inr ⟨other, index, alsoSlab, old, address⟩
        · rw [isNew] at address
          exact Or.inl address
      · rw [World.modify_of_ne _ _ same] at set address
        exact Or.inr ⟨other, index, alsoSlab, set, address⟩

/-- Once a chunk has been taken from it, a slab that has become full is put
on the full list. -/
theorem place_spec (consistent : Consistent cache world obtained nodes) {before rest : List Nat}
    {slab : Nat} (split : nodes .partly = before ++ slab :: rest)
    (others : ∀ name, ∀ later ∈ nodes name, later ≠ slab →
      BelongsOn (cache.chunksPerSlab m) (world.slab later).allocatedChunks name)
    (positive : 0 < (world.slab slab).allocatedChunks)
    (atMost : (world.slab slab).allocatedChunks ≤ cache.chunksPerSlab m) :
    ∃ placed after placedNodes,
      (if (world.slab slab).allocatedChunks = cache.chunksPerSlab m then
        moveSlab cache world (linkAfter (.head .partly) before) slab .full
        else (cache, world)) = (placed, after) ∧
      SameSizes cache placed ∧ OnlyNext world after ∧
      Confined cache.pagesPerSlab world obtained after obtained ∧
      Consistent placed after obtained placedNodes ∧ Sorted placed after placedNodes := by
  have onList : slab ∈ nodes .partly := mem_of_split split
  by_cases isFull : (world.slab slab).allocatedChunks = cache.chunksPerSlab m
  · have belongs : BelongsOn (cache.chunksPerSlab m) (world.slab slab).allocatedChunks .full :=
      isFull
    have moves := moveSlab_spec consistent split
      (consistent.attached .partly (by decide) slab onList) others belongs
    rw [if_pos isFull]
    exact ⟨(moveSlab cache world (linkAfter (.head .partly) before) slab .full).1,
      (moveSlab cache world (linkAfter (.head .partly) before) slab .full).2, _, rfl,
      SameSizes.moveSlab _ _ _ _ _, OnlyNext.moveSlab _ _ _ _ _,
      Confined.moveSlab consistent.owns (Confined.isSlab_of_linkAfter consistent split)
        (consistent.isSlab onList) .full, moves⟩
  · rw [if_neg isFull]
    refine ⟨cache, world, nodes, rfl, SameSizes.refl cache, OnlyNext.refl world,
      Confined.refl _ _ _, consistent, ?_⟩
    intro name later isMember
    by_cases same : later = slab
    · subst same
      rw [consistent.holds.name_unique isMember onList]
      exact ⟨positive, Nat.lt_of_le_of_ne atMost isFull⟩
    · exact others name later isMember same

/-- A slab that is ready has a chunk to take. -/
theorem Ready.exists_clear (ready : Ready cache world nodes)
    (consistent : Consistent cache world obtained nodes) (inBitmap : InBitmap world obtained) :
    ∃ slab ∈ nodes .partly, ∃ i, i < cache.chunksPerSlab m ∧
      isSet (world.slab slab).bitmap i = false := by
  rcases List.exists_mem_of_ne_nil _ ready.nonempty with ⟨slab, onList⟩
  have isSlab := consistent.isSlab onList
  have notFull := ready.room slab onList
  rw [consistent.counted slab isSlab] at notFull
  refine ⟨slab, onList, ?_⟩
  rcases Nat.lt_or_ge (bitmapBits m) (cache.chunksPerSlab m) with more | enough
  · -- the chunk behind the end of the bitmap is clear
    refine ⟨bitmapBits m, more, Bool.eq_false_iff.mpr fun set => ?_⟩
    exact Nat.lt_irrefl _ (inBitmap slab isSlab _ set)
  · exact (count_lt_iff (consistent.within slab isSlab) enough).mp notFull

/-- While a chunk is taken from a slab, the others are on the lists where they
belong. -/
theorem Ready.belongsOn (ready : Ready cache world nodes) {slab : Nat}
    (onList : slab ∈ nodes .partly)
    {name : ListName} {later : Nat} (isMember : later ∈ nodes name) (different : later ≠ slab) :
    BelongsOn (cache.chunksPerSlab m) (world.slab later).allocatedChunks name := by
  by_cases isPartly : name = .partly
  · subst isPartly
    rcases ready.used later isMember with positive | alone
    · exact ⟨positive, ready.room later isMember⟩
    · rw [alone] at onList
      exact absurd (List.mem_singleton.mp onList).symm different
  · exact ready.others name isPartly later isMember

/-- A live chunk holds no slab structure, so that clearing it, or its beginning, is
not felt. -/
theorem Books.memset (books : Books cache world obtained live nodes) {mem size : Nat}
    (isLive : mem ∈ live) (within : size ≤ cache.chunkSz) :
    Books cache (world.memset mem size) obtained live nodes ∧
      Confined cache.pagesPerSlab world obtained (world.memset mem size) obtained := by
  rcases books.live_inside isLive with ⟨slab, isSlab, attached, _isHeld, lower, upper⟩
  have owns := books.consistent.owns
  constructor
  · apply books.keeps
    apply keeps_memset
    intro other alsoSlab inside
    apply owns.slab_outside_chunks alsoSlab isSlab attached
    omega
  · exact Confined.memset owns isSlab attached lower (by omega)

/-- The address of a chunk does not overflow. -/
theorem _chunkAddress_eq (sizes : Sizes m cache) {slab : Slab m} {word bit : Nat}
    (inside : slab.page + cache.pagesPerSlab * m.pageSize ≤ m.wordLimit)
    (below : word * m.wordTBits + bit < cache.chunksPerSlab m) :
    _chunkAddress cache slab word bit = slab.page + (word * m.wordTBits + bit) * cache.chunkSz := by
  have chunk := sizes.chunk_inside below
  have positive := sizes.chunkSz_pos
  exact Nat.mod_eq_of_lt (by omega)

/-- Taking a chunk that the search has found restores the books. -/
theorem takeChunk_found (sizes : Sizes m cache) (inBitmap : InBitmap world obtained)
    (consistent : Consistent cache world obtained nodes) (ready : Ready cache world nodes)
    (records : Records cache world obtained live) (grown : List Nat) {before rest : List Nat}
    {slab word bit : Nat} (split : nodes .partly = before ++ slab :: rest)
    (search : _findUnallocated cache world (.head .partly) =
      some (linkAfter (.head .partly) before, some (word, bit)))
    (inside : bit < m.wordTBits) (isWord : word < maxBitmapWords m)
    (below : word * m.wordTBits + bit < cache.chunksPerSlab m)
    (clear : isSet (world.slab slab).bitmap (word * m.wordTBits + bit) = false) :
    ∃ result, takeChunk cache world grown = some result ∧ result.obtained = grown ∧
      result.address ≠ 0 ∧ SameSizes cache result.cache ∧
      Confined cache.pagesPerSlab world obtained result.world obtained ∧
      ∃ nodes, Books result.cache result.world obtained (result.address :: live) nodes := by
  have onList : slab ∈ nodes .partly := mem_of_split split
  have isSlab := consistent.isSlab onList
  have notNull := consistent.owns.slab_ne_zero isSlab
  have hasPages := consistent.attached .partly (by decide) slab onList
  have isRead := consistent.holds.read_linkAfter split
  rcases consistent.take sizes isSlab inside isWord below clear (ready.room slab onList) with
    ⟨taken, counter⟩
  have atSlab := World.modify_self world slab (fun s => s.take word bit)
  have others : ∀ name, ∀ later ∈ nodes name, later ≠ slab →
      BelongsOn (cache.chunksPerSlab m)
        ((world.modify slab (fun s => s.take word bit)).slab later).allocatedChunks name := by
    intro name later isMember different
    rw [World.modify_of_ne _ _ different]
    exact ready.belongsOn onList isMember different
  rcases place_spec taken split others (by rw [atSlab, counter]; exact Nat.succ_pos _)
      (by rw [atSlab, counter]; exact ready.room slab onList) with
    ⟨placed, after, placedNodes, places, sameSizes, onlyNext, placing, consistentAfter, sortedAfter⟩
  have recordsAfter := (records.take sizes consistent inBitmap ready.unused isSlab hasPages inside
    below clear).relink sameSizes onlyNext
  have pages := consistent.owns.chunkPages slab isSlab hasPages
  have samePage : (after.slab slab).page = (world.slab slab).page := by
    rw [onlyNext.page, atSlab]
    rfl
  have address : _chunkAddress placed (after.slab slab) word bit =
      (world.slab slab).page + (word * m.wordTBits + bit) * cache.chunkSz := by
    rw [_chunkAddress_eq (sameSizes.sizes sizes)
      (by rw [samePage, sameSizes.pagesPerSlab]; exact pages.2.2)
      (by rw [sameSizes.chunksPerSlab]; exact below), samePage, sameSizes.chunkSz]
  have result : takeChunk cache world grown =
      some ⟨(world.slab slab).page + (word * m.wordTBits + bit) * cache.chunkSz, placed,
        if placed.gfpFlags &&& gfpZero = 0#32 then after
        else after.memset ((world.slab slab).page + (word * m.wordTBits + bit) * cache.chunkSz)
          placed.chunkSz, grown⟩ := by
    unfold takeChunk
    simp only [search, Option.bind_eq_bind, Option.bind_some, Option.getD_some, isRead,
      if_neg notNull, places, address]
    rfl
  have inBitmapAfter := (inBitmap.take slab inside isWord).congr fun later _isSlab =>
    onlyNext.bitmap later
  have booksAfter := Books.mk (sameSizes.sizes sizes) inBitmapAfter consistentAfter sortedAfter
    recordsAfter
  have taking := Confined.modify consistent.owns isSlab (fun s => s.take word bit) rfl
  rcases booksAfter.memset List.mem_cons_self (Nat.le_refl _) with ⟨cleared, clearing⟩
  rw [sameSizes.pagesPerSlab] at clearing
  refine ⟨_, result, rfl, ?_, sameSizes, ?_, placedNodes, ?_⟩
  · dsimp only
    omega
  · dsimp only
    split
    · exact taking.trans placing
    · exact (taking.trans placing).trans clearing
  · dsimp only
    split
    · exact booksAfter
    · exact cleared

/-- Taking a chunk succeeds and restores the books, if the search for it keeps
to the bitmap. -/
theorem takeChunk_spec (sizes : Sizes m cache) (inBitmap : InBitmap world obtained)
    (consistent : Consistent cache world obtained nodes) (ready : Ready cache world nodes)
    (records : Records cache world obtained live) (grown : List Nat) :
    (∃ result, takeChunk cache world grown = some result ∧ result.obtained = grown ∧
      result.address ≠ 0 ∧ SameSizes cache result.cache ∧
      Confined cache.pagesPerSlab world obtained result.world obtained ∧
      ∃ nodes, Books result.cache result.world obtained (result.address :: live) nodes) ∨
    (takeChunk cache world grown = none ∧ ¬HasBits m cache) := by
  rcases _findUnallocated_spec sizes consistent (ready.exists_clear consistent inBitmap) with
    ⟨before, slab, rest, word, bit, split, search, inside, isWord, below, clear⟩ | ⟨search, fewBits⟩
  · exact Or.inl (takeChunk_found sizes inBitmap consistent ready records grown split search inside
      isWord below clear)
  · refine Or.inr ⟨?_, fewBits⟩
    unfold takeChunk
    rw [search]
    rfl

/-! ## Attaching pages and plucking a slab -/

theorem Books.attach (books : Books cache world obtained live nodes) {after : World m}
    {flags : BitVec 32} {address slab : Nat}
    (granted : Granted world after cache.pagesPerSlab flags address)
    (onList : slab ∈ nodes .free) :
    Books cache (after.modify slab (fun s => { s with page := address })) obtained live nodes := by
  have owns := books.consistent.owns
  have keeps := granted.keeps owns
  -- the new pages begin where no region that was held begins
  have isNew : ∀ pages, 0 < pages → ⟨address, pages⟩ ∉ world.held.regions :=
    fun _pages some => not_held_of_fresh books.sizes.one_le_pagesPerSlab granted.fresh some
  apply books.setPage keeps.sameSlab onList
  apply owns.setPage keeps.sameSlab
  · exact fun base isMember => keeps.stillHeld _ (owns.slabPage base isMember).2
  · exact fun later isSlab _different attached =>
      keeps.stillHeld _ (owns.chunkPages later isSlab attached).1
  · intro _notNull
    rw [granted.held]
    exact ⟨List.mem_cons_self, granted.aligned, granted.inside⟩
  · intro notNull later isSlab same
    have isHeld := (owns.chunkPages later isSlab (by rw [same]; exact notNull)).1
    rw [same] at isHeld
    exact isNew cache.pagesPerSlab books.sizes.one_le_pagesPerSlab isHeld
  · exact fun _notNull isMember => isNew 1 Nat.one_pos (owns.slabPage address isMember).2

/-- A refusal leaves the invariant alone. -/
theorem Books.refused (books : Books cache world obtained live nodes) (log : List PageEvent) :
    Books cache { world with log := log } obtained live nodes :=
  books.keeps ⟨fun _slab _isSlab => rfl, fun _region isHeld => isHeld⟩

/-- The last thing that has happened is that the page allocator answered none
to a request of the cache, which was for a page of slabs or for the pages of
a slab. -/
structure Refused (allocator : PageAllocator m) (cache : MemCache) (before after : World m)
    (pages : Nat) (flags : BitVec 32) : Prop where
  request : pages = 1 ∧ flags = cache.gfpFlags ||| gfpZero ∨
    pages = cache.pagesPerSlab ∧ flags = cache.gfpFlags
  answer : allocator after.held pages flags = none
  last : ∃ earlier, after.log = .refused pages :: earlier ∧ before.log <:+ earlier

/-- Attaching pages to the first free slab succeeds, or the page allocator
has refused. -/
theorem attachPages_spec (allocator : PageAllocator m)
    (books : Books cache world obtained live nodes) (onList : cache.freeSlabs ∈ nodes .free) :
    Books cache (attachPages allocator cache world) obtained live nodes ∧
      Confined cache.pagesPerSlab world obtained (attachPages allocator cache world) obtained ∧
      (((attachPages allocator cache world).slab cache.freeSlabs).page = 0 →
        Refused allocator cache world (attachPages allocator cache world)
          cache.pagesPerSlab cache.gfpFlags) := by
  unfold attachPages
  have owns := books.consistent.owns
  have isSlab := books.consistent.isSlab onList
  by_cases bare : (world.slab cache.freeSlabs).page = 0
  · rw [if_pos bare]
    rcases getFreePages_cases allocator world cache.pagesPerSlab cache.gfpFlags with
      ⟨isNone, refused⟩ | ⟨address, after, answered, granted⟩
    · rw [refused]
      have logged := books.refused (.refused cache.pagesPerSlab :: world.log)
      refine ⟨logged.keeps ⟨fun slab _isSlab => ?_, fun _region isHeld => isHeld⟩, ?_,
        fun _bare => ⟨Or.inr ⟨rfl, rfl⟩, isNone, world.log, rfl, List.suffix_rfl⟩⟩
      · by_cases same : slab = cache.freeSlabs
        · rw [same, World.modify_self]
          change { world.slab cache.freeSlabs with page := 0 } = world.slab cache.freeSlabs
          rw [← bare]
        · exact World.modify_of_ne _ _ same
      · apply (Confined.log owns _).trans
        exact Confined.modify logged.consistent.owns isSlab
          (fun s => { s with page := 0 }) bare.symm
    · rw [answered]
      refine ⟨books.attach granted onList,
        Confined.attach owns granted books.sizes.one_le_pagesPerSlab isSlab, fun stillBare => ?_⟩
      dsimp only at stillBare
      rw [World.modify_self] at stillBare
      exact absurd stillBare granted.notNull
  · rw [if_neg bare]
    exact ⟨books, Confined.refl _ _ _, fun isBare => absurd isBare bare⟩

/-- The plucked slab is the only partial one. -/
theorem pluckSlab_spec (books : Books cache world obtained live nodes) {rest : List Nat}
    (split : nodes .free = cache.freeSlabs :: rest) (noPartial : nodes .partly = [])
    (hasPages : (world.slab cache.freeSlabs).page ≠ 0) :
    ∃ plucked, Consistent (pluckSlab cache world).1 (pluckSlab cache world).2 obtained plucked ∧
      Ready (pluckSlab cache world).1 (pluckSlab cache world).2 plucked ∧
      Records (pluckSlab cache world).1 (pluckSlab cache world).2 obtained live := by
  have sameSizes := SameSizes.pluckSlab cache world
  have onlyNext := OnlyNext.pluckSlab cache world
  have splitHead : nodes .free = [] ++ cache.freeSlabs :: rest := split
  have isNull : cache.partialSlabs = 0 :=
    (books.consistent.head_eq_zero_iff .partly).mpr noPartial
  have consistent := books.consistent.move splitHead sameSizes onlyNext
    (lists_pluckSlab cache world isNull) hasPages
  have alone : moved nodes .free ([] ++ rest) cache.freeSlabs .partly .partly =
      [cache.freeSlabs] := by
    rw [moved_target _ _ (by decide), noPartial]
  have onPartly : cache.freeSlabs ∈
      moved nodes .free ([] ++ rest) cache.freeSlabs .partly .partly :=
    mem_moved_self _ _ _ _
  refine ⟨_, consistent, ⟨?_, ?_, ?_, ?_⟩, books.records.relink sameSizes onlyNext⟩
  · intro name notPartly slab onList
    have different : slab ≠ cache.freeSlabs := by
      intro same
      rw [same] at onList
      exact notPartly (consistent.holds.name_unique onList onPartly)
    rw [onlyNext.allocatedChunks, sameSizes.chunksPerSlab]
    exact books.sorted name slab ((mem_moved_of_ne splitHead different).mp onList)
  · intro slab onList
    rw [alone] at onList
    have wasFree : slab ∈ nodes .free := by
      rw [split, List.mem_singleton.mp onList]
      exact List.mem_cons_self
    have none : (world.slab slab).allocatedChunks = 0 := books.sorted .free slab wasFree
    rw [onlyNext.allocatedChunks, sameSizes.chunksPerSlab, none]
    exact books.sizes.chunksPerSlab_pos
  · intro slab onList
    rw [alone] at onList ⊢
    rw [List.mem_singleton.mp onList]
    exact Or.inr rfl
  · rw [alone]
    exact List.cons_ne_nil _ _

/-! ## The whole call -/

/-- With a slab at hand the call returns a chunk, or the page allocator has
refused the pages for it, or the bits do not suffice. -/
theorem allocFromSlabs_spec (allocator : PageAllocator m)
    (books : Books cache world obtained live nodes)
    (available : nodes .free ≠ [] ∨ nodes .partly ≠ []) (grown : List Nat) :
    (∃ result, allocFromSlabs allocator cache world grown = some result ∧
      result.obtained = grown ∧ SameSizes cache result.cache ∧
      Confined cache.pagesPerSlab world obtained result.world obtained ∧
      (∃ nodes, Books result.cache result.world obtained
        (if result.address = 0 then live else result.address :: live) nodes) ∧
      (result.address = 0 →
        Refused allocator cache world result.world cache.pagesPerSlab cache.gfpFlags)) ∨
    (allocFromSlabs allocator cache world grown = none ∧ ¬HasBits m cache) := by
  unfold allocFromSlabs
  have noPartial := books.consistent.head_eq_zero_iff .partly
  by_cases isNull : cache.partialSlabs = 0
  · rw [if_pos isNull]
    have empty := noPartial.mp isNull
    rcases List.exists_cons_of_ne_nil
        (available.resolve_right (fun nonempty => nonempty empty)) with
      ⟨first, rest, split⟩
    have isFirst : cache.freeSlabs = first := by
      have chain := books.consistent.holds.chain .free
      rw [split] at chain
      exact chain.1
    rw [← isFirst] at split
    have onList : cache.freeSlabs ∈ nodes .free := by
      rw [split]
      exact List.mem_cons_self
    rcases attachPages_spec allocator books onList with ⟨attached, attaching, refused⟩
    dsimp only
    by_cases bare : ((attachPages allocator cache world).slab cache.freeSlabs).page = 0
    · rw [if_pos bare]
      exact Or.inl ⟨_, rfl, rfl, SameSizes.refl cache, attaching, ⟨nodes, attached⟩,
        fun _failed => refused bare⟩
    · rw [if_neg bare]
      rcases pluckSlab_spec attached split empty bare with ⟨plucked, consistent, ready, records⟩
      have sameSizes := SameSizes.pluckSlab cache (attachPages allocator cache world)
      have inBitmap := attached.inBitmap.congr fun slab _isSlab =>
        (OnlyNext.pluckSlab cache (attachPages allocator cache world)).bitmap slab
      rcases takeChunk_spec (sameSizes.sizes books.sizes) inBitmap consistent ready
          records grown with
        ⟨result, taken, sameObtained, notNull, stillSame, taking, after, holds⟩ | ⟨none, fewBits⟩
      · refine Or.inl ⟨result, taken, sameObtained, sameSizes.trans stillSame, ?_, ⟨after, ?_⟩,
          fun failed => absurd failed notNull⟩
        · have plucking := Confined.modify attached.consistent.owns
            (attached.consistent.isSlab onList) (fun s => { s with next := 0 }) rfl
          exact (attaching.trans plucking).trans taking
        · rw [if_neg notNull]
          exact holds
      · exact Or.inr ⟨none, fun bits => fewBits (sameSizes.hasBits_iff.mpr bits)⟩
  · rw [if_neg isNull]
    have nonempty : nodes .partly ≠ [] := fun empty => isNull (noPartial.mpr empty)
    rcases takeChunk_spec books.sizes books.inBitmap books.consistent (books.sorted.ready nonempty)
        books.records grown with
      ⟨result, taken, sameObtained, notNull, sameSizes, taking, after, holds⟩ | ⟨none, fewBits⟩
    · refine Or.inl ⟨result, taken, sameObtained, sameSizes, taking, ⟨after, ?_⟩,
        fun failed => absurd failed notNull⟩
      rw [if_neg notNull]
      exact holds
    · exact Or.inr ⟨none, fewBits⟩

/-- `mem_cache_alloc` keeps the books, and fails only when the page allocator
has refused.  It returns unless the bits do not suffice. -/
theorem memCacheAlloc_books (allocator : PageAllocator m)
    (books : Books cache world obtained live nodes) :
    (∃ result, memCacheAlloc allocator cache world = some result ∧ SameSizes cache result.cache ∧
      Confined cache.pagesPerSlab world obtained result.world (result.obtained ++ obtained) ∧
      (∃ nodes, Books result.cache result.world (result.obtained ++ obtained)
        (if result.address = 0 then live else result.address :: live) nodes) ∧
      (result.address = 0 →
        ∃ pages flags, Refused allocator cache world result.world pages flags)) ∨
    (memCacheAlloc allocator cache world = none ∧ ¬HasBits m cache) := by
  unfold memCacheAlloc
  have noFree := books.consistent.head_eq_zero_iff .free
  have noPartial := books.consistent.head_eq_zero_iff .partly
  by_cases outOfSlabs : cache.freeSlabs = 0 ∧ cache.partialSlabs = 0
  · rw [if_pos outOfSlabs]
    rcases _moreSlabs_one allocator cache.gfpFlags world with
      ⟨isNone, refused⟩ | ⟨base, after, granted, grown⟩
    · rw [refused]
      have unchanged : { cache with freeSlabs := 0 } = cache := by
        rw [← outOfSlabs.1]
      refine Or.inl ⟨⟨0, { cache with freeSlabs := 0 }, _, []⟩, rfl, ⟨rfl, rfl, rfl⟩,
        Confined.log books.consistent.owns _, ⟨nodes, ?_⟩, ?_⟩
      · rw [unchanged]
        exact books.refused _
      · exact fun _failed => ⟨1, _, Or.inl ⟨rfl, rfl⟩, isNone, world.log, rfl, List.suffix_rfl⟩
    · rw [granted]
      have holds := grown.books books (noFree.mp outOfSlabs.1)
      have available : Function.update nodes .free (slabsOfPage m base) .free ≠ [] := by
        rw [Function.update_self]
        apply List.ne_nil_of_length_pos
        rw [slabsOfPage_length]
        exact slabsPerPage_pos m
      have notNull := grown.notNull
      simp only [Option.bind_eq_bind, Option.bind_some, if_neg notNull]
      rcases allocFromSlabs_spec allocator holds (Or.inl available) [base] with
        ⟨result, returned, sameObtained, sameSizes, confined, ⟨final, kept⟩, refused⟩ |
          ⟨none, fewBits⟩
      · refine Or.inl ⟨result, returned,
          ⟨sameSizes.pagesPerSlab, sameSizes.chunkSz, sameSizes.gfpFlags⟩, ?_, ⟨final, ?_⟩, ?_⟩
        · rw [sameObtained]
          exact (Confined.grown books.consistent.owns grown).trans confined
        · rw [sameObtained]
          exact kept
        · intro failed
          rcases refused failed with ⟨request, answer, earlier, log, suffix⟩
          refine ⟨_, _, request, answer, earlier, log, List.IsSuffix.trans ?_ suffix⟩
          rw [grown.log]
          exact List.suffix_cons _ _
      · exact Or.inr ⟨none, fewBits⟩
  · rw [if_neg outOfSlabs]
    have available : nodes .free ≠ [] ∨ nodes .partly ≠ [] := by
      rw [← not_and_or]
      intro empty
      exact outOfSlabs ⟨noFree.mpr empty.1, noPartial.mpr empty.2⟩
    rcases allocFromSlabs_spec allocator books available [] with
      ⟨result, returned, sameObtained, sameSizes, confined, ⟨final, kept⟩, refused⟩ |
        ⟨none, fewBits⟩
    · refine Or.inl ⟨result, returned, sameSizes, ?_, ⟨final, ?_⟩, ?_⟩
      · rw [sameObtained]
        exact confined
      · rw [sameObtained]
        exact kept
      · exact fun failed => ⟨_, _, refused failed⟩
    · exact Or.inr ⟨none, fewBits⟩

/-- What `mem_cache_alloc` promises. -/
structure Allocated (allocator : PageAllocator m) (cache : MemCache) (world : World m)
    (obtained live : List Nat) (result : AllocResult m) : Prop where
  sameSizes : SameSizes cache result.cache
  invariant : ∃ nodes, Invariant result.cache result.world (result.obtained ++ obtained)
    (if result.address = 0 then live else result.address :: live) nodes
  refused : result.address = 0 →
    ∃ pages flags, Refused allocator cache world result.world pages flags

theorem memCacheAlloc_spec (allocator : PageAllocator m)
    (invariant : Invariant cache world obtained live nodes) :
    ∃ result, memCacheAlloc allocator cache world = some result ∧
      Allocated allocator cache world obtained live result := by
  rcases memCacheAlloc_books allocator invariant.books with
    ⟨result, returned, sameSizes, _confined, ⟨after, books⟩, refused⟩ | ⟨_none, fewBits⟩
  · exact ⟨result, returned, sameSizes,
      ⟨after, books.invariant (sameSizes.shape invariant.shape)⟩, refused⟩
  · exact absurd invariant.shape.hasBits fewBits

end SlabCache
end ShovelOS
