import ShovelOS.MemCache.Growth

namespace ShovelOS
namespace SlabCache

open LinkedList Bitmap WordBits

/-!
# The searches

`__find_unallocated` finds a chunk whose bit is clear in the first partial
slab that has one.  `__find_allocated` finds the slab whose pages contain an
address and looks at the bit of the chunk there; `Searched` lists its answers.
Both stop within the length of the list.  When the chunks do not all have a
bit, they may come to a word behind the bitmap, which has no value.
-/

variable {m : Machine}

/-! ## A chunk that is not allocated -/

/-- Searching with a test that may have no value. -/
theorem findM?_cases {α : Type} (test : α → Option Bool) (l : List α) :
    (∃ a ∈ l, test a = some true ∧ l.findM? test = some (some a)) ∨
    ((∀ a ∈ l, test a = some false) ∧ l.findM? test = some none) ∨
    ((∃ a ∈ l, test a = none) ∧ l.findM? test = none) := by
  induction l with
  | nil => exact Or.inr (Or.inl ⟨fun a isMember => (by cases isMember), rfl⟩)
  | cons a l inductionHypothesis =>
      rw [List.findM?]
      cases outcome : test a with
      | none => exact Or.inr (Or.inr ⟨⟨a, List.mem_cons_self, outcome⟩, rfl⟩)
      | some holds =>
          cases holds with
          | true => exact Or.inl ⟨a, List.mem_cons_self, outcome, rfl⟩
          | false =>
              rcases inductionHypothesis with
                ⟨b, isMember, holds, search⟩ | ⟨none, search⟩ | ⟨⟨b, isMember, stuck⟩, search⟩
              · exact Or.inl ⟨b, List.mem_cons_of_mem _ isMember, holds, search⟩
              · refine Or.inr (Or.inl ⟨fun b isMember => ?_, search⟩)
                rcases List.mem_cons.mp isMember with isFirst | later
                · rw [isFirst]
                  exact outcome
                · exact none b later
              · exact Or.inr (Or.inr ⟨⟨b, List.mem_cons_of_mem _ isMember, stuck⟩, search⟩)

/-- The words of the bitmap can be read, and those behind it cannot. -/
theorem word_cases (slab : Slab m) (w : Nat) :
    (w < maxBitmapWords m ∧ slab.word w = some (slab.bitmap w)) ∨
      (maxBitmapWords m ≤ w ∧ slab.word w = none) := by
  by_cases below : w < maxBitmapWords m
  · exact Or.inl ⟨below, if_pos below⟩
  · exact Or.inr ⟨Nat.le_of_not_lt below, if_neg below⟩

theorem word_eq_some {slab : Slab m} {w : Nat} (below : w < maxBitmapWords m) :
    slab.word w = some (slab.bitmap w) := if_pos below

/-- A bit of a word of the bitmap is a bit of the bitmap. -/
theorem index_lt_bitmapBits {w b : Nat} (below : w < maxBitmapWords m) (inside : b < m.wordTBits) :
    w * m.wordTBits + b < bitmapBits m := by
  have ends : (w + 1) * m.wordTBits ≤ bitmapBits m := Nat.mul_le_mul_right _ below
  rw [Nat.succ_mul] at ends
  omega

/-- The bits of a word behind the bitmap lie behind it. -/
theorem bitmapBits_le_index {w b : Nat} (behind : maxBitmapWords m ≤ w) :
    bitmapBits m ≤ w * m.wordTBits + b :=
  Nat.le_trans (Nat.mul_le_mul_right _ behind) (Nat.le_add_right _ _)

theorem _findZeroBitInWord_cases {w : BitVec m.wordTBits} {max : Nat} (within : max ≤ m.wordTBits) :
    (_findZeroBitInWord m w max < max ∧ w.getLsbD (_findZeroBitInWord m w max) = false) ∨
      (_findZeroBitInWord m w max = m.wordTMax ∧ ∀ b, b < max → w.getLsbD b = true) := by
  unfold _findZeroBitInWord
  cases search : (List.range max).find? (fun b => decide (w &&& m.bit b = 0#m.wordTBits)) with
  | none =>
      refine Or.inr ⟨rfl, fun b below => ?_⟩
      have notClear := List.find?_eq_none.mp search b (List.mem_range.mpr below)
      rw [decide_eq_true_eq, Machine.bit, and_bit_eq_zero (Nat.lt_of_lt_of_le below within),
        Bool.not_eq_false] at notClear
      exact notClear
  | some b =>
      have below := List.mem_range.mp (List.mem_of_find?_eq_some search)
      have clear := List.find?_some search
      rw [decide_eq_true_eq, Machine.bit,
        and_bit_eq_zero (Nat.lt_of_lt_of_le below within)] at clear
      exact Or.inl ⟨below, clear⟩

/-- A word whose complement is not zero has a clear bit. -/
theorem not_ne_zero_iff {w : Nat} {x : BitVec w} :
    ~~~x ≠ 0#w ↔ ∃ b, b < w ∧ x.getLsbD b = false := by
  constructor
  · intro nonzero
    by_contra none
    apply nonzero
    apply BitVec.eq_of_getLsbD_eq
    intro b below
    have set : x.getLsbD b = true := by
      by_contra clear
      exact none ⟨b, below, Bool.eq_false_iff.mpr clear⟩
    rw [BitVec.getLsbD_not, set, BitVec.getLsbD_zero]
    simp
  · rintro ⟨b, below, clear⟩ zero
    have bit : (~~~x).getLsbD b = (0#w).getLsbD b := by rw [zero]
    rw [BitVec.getLsbD_not, clear, BitVec.getLsbD_zero] at bit
    simp [below] at bit

variable {cache : MemCache}

/-- The bits of the whole words represent chunks. -/
theorem wholeWord_index {chunks w b : Nat} (below : w < chunks / m.wordTBits)
    (inside : b < m.wordTBits) : w * m.wordTBits + b < chunks := by
  have whole := Nat.div_add_mod chunks m.wordTBits
  have ends : (w + 1) * m.wordTBits ≤ chunks / m.wordTBits * m.wordTBits :=
    Nat.mul_le_mul_right _ below
  rw [Nat.succ_mul, Nat.mul_comm (_ / _)] at ends
  omega

/-- All chunks are allocated when the whole words are full and the bits of the
last word that represent a chunk are set. -/
theorem isSet_of_words {bitmap : Nat → BitVec m.wordTBits} {chunks : Nat}
    (wholeSet : ∀ w, w < chunks / m.wordTBits → ∀ b, b < m.wordTBits → (bitmap w).getLsbD b = true)
    (lastSet : ∀ b, b < chunks % m.wordTBits →
      (bitmap (chunks / m.wordTBits)).getLsbD b = true) {i : Nat} (below : i < chunks) :
    isSet bitmap i = true := by
  unfold isSet
  have inRange : i / m.wordTBits ≤ chunks / m.wordTBits :=
    Nat.div_le_div_right (Nat.le_of_lt below)
  rcases Nat.lt_or_eq_of_le inRange with isWhole | isLast
  · exact wholeSet _ isWhole _ (Nat.mod_lt _ m.wordTBits_pos)
  · have whole := Nat.div_add_mod chunks m.wordTBits
    have split := Nat.div_add_mod i m.wordTBits
    rw [isLast] at split ⊢
    exact lastSet _ (by omega)

theorem clearWord_cases (slab : Slab m) (words : Nat) {search : Option (Option Nat)}
    (isSearch : (List.range words).findM? (fun w => do
      let word ← slab.word w
      return decide (~~~word ≠ 0#m.wordTBits)) = search) :
    (∃ w, search = some (some w) ∧ w < words ∧ w < maxBitmapWords m ∧
      ∃ b, b < m.wordTBits ∧ (slab.bitmap w).getLsbD b = false) ∨
    (search = some none ∧ ∀ w, w < words → ∀ b, b < m.wordTBits →
      (slab.bitmap w).getLsbD b = true) ∨
    (search = none ∧ ∃ w, w < words ∧ maxBitmapWords m ≤ w) := by
  subst isSearch
  rcases findM?_cases (fun w => do
      let word ← slab.word w
      return decide (~~~word ≠ 0#m.wordTBits)) (List.range words) with
    ⟨w, isMember, holds, search⟩ | ⟨none, search⟩ | ⟨⟨w, isMember, stuck⟩, search⟩
  · rcases word_cases slab w with ⟨below, isRead⟩ | ⟨_behind, unread⟩
    · simp only [isRead, Option.bind_eq_bind, Option.bind_some, Option.pure_def, Option.some.injEq,
        decide_eq_true_eq] at holds
      exact Or.inl ⟨w, search, List.mem_range.mp isMember, below, not_ne_zero_iff.mp holds⟩
    · rw [unread] at holds
      cases holds
  · refine Or.inr (Or.inl ⟨search, fun w below b inside => ?_⟩)
    have noClear := none w (List.mem_range.mpr below)
    rcases word_cases slab w with ⟨_below, isRead⟩ | ⟨_behind, unread⟩
    · simp only [isRead, Option.bind_eq_bind, Option.bind_some, Option.pure_def, Option.some.injEq,
        decide_eq_false_iff_not] at noClear
      by_contra clear
      exact noClear (not_ne_zero_iff.mpr ⟨b, inside, Bool.eq_false_iff.mpr clear⟩)
    · rw [unread] at noClear
      cases noClear
  · rcases word_cases slab w with ⟨_below, isRead⟩ | ⟨behind, _unread⟩
    · rw [isRead] at stuck
      cases stuck
    · exact Or.inr (Or.inr ⟨search, w, List.mem_range.mp isMember, behind⟩)

/-- A bit that is found is not the result that says there is none. -/
theorem ne_wordTMax {bit : Nat} (inside : bit < m.wordTBits) : bit ≠ m.wordTMax := by
  have large := Nat.lt_two_pow_self (n := m.wordTBits)
  have isMax : m.wordTMax = 2 ^ m.wordTBits - 1 := rfl
  omega

/-- The search in one slab finds a chunk with a clear bit, unless all chunks
are allocated, or the search comes to the end of the bitmap before. -/
theorem unallocatedIn_cases (sizes : Sizes m cache) (slab : Slab m) :
    (∃ word bit, unallocatedIn cache slab = some (some (word, bit)) ∧ bit < m.wordTBits ∧
      word < maxBitmapWords m ∧ word * m.wordTBits + bit < cache.chunksPerSlab m ∧
      isSet slab.bitmap (word * m.wordTBits + bit) = false) ∨
    (unallocatedIn cache slab = some none ∧
      ∀ i, i < cache.chunksPerSlab m → isSet slab.bitmap i = true) ∨
    (unallocatedIn cache slab = none ∧ ¬HasBits m cache) := by
  have whole := Nat.div_add_mod' (cache.chunksPerSlab m) m.wordTBits
  have extraInside : cache.chunksPerSlab m % m.wordTBits < m.wordTBits :=
    Nat.mod_lt _ m.wordTBits_pos
  unfold unallocatedIn
  dsimp only
  rcases clearWord_cases slab (cache.chunksPerSlab m / m.wordTBits) rfl with
    ⟨w, search, below, isWord, b, inside, clear⟩ | ⟨search, wholeSet⟩ | ⟨search, w, below, behind⟩
  · rw [search]
    dsimp only [Option.bind_eq_bind, Option.bind_some]
    rw [word_eq_some isWord]
    rcases _findZeroBitInWord_cases (w := slab.bitmap w) (Nat.le_refl m.wordTBits) with
      ⟨inRange, isClear⟩ | ⟨_none, allSet⟩
    · refine Or.inl ⟨w, _, rfl, inRange, isWord, wholeWord_index below inRange, ?_⟩
      rw [isSet_index inRange]
      exact isClear
    · rw [allSet b inside] at clear
      cases clear
  · rw [search]
    dsimp only [Option.bind_eq_bind, Option.bind_some]
    by_cases noExtra : cache.chunksPerSlab m % m.wordTBits = 0
    · rw [if_pos noExtra]
      refine Or.inr (Or.inl ⟨rfl, fun i below => isSet_of_words wholeSet ?_ below⟩)
      intro b inside
      rw [noExtra] at inside
      exact absurd inside (Nat.not_lt_zero b)
    · rw [if_neg noExtra]
      rcases word_cases slab (cache.chunksPerSlab m / m.wordTBits) with
        ⟨isWord, isRead⟩ | ⟨behind, unread⟩
      · rw [isRead]
        dsimp only [Option.bind_some]
        rcases _findZeroBitInWord_cases (w := slab.bitmap (cache.chunksPerSlab m / m.wordTBits))
            (Nat.le_of_lt extraInside) with ⟨inRange, isClear⟩ | ⟨isNone, lastSet⟩
        · have inside := Nat.lt_trans inRange extraInside
          rw [if_neg (ne_wordTMax inside)]
          refine Or.inl ⟨_, _, rfl, inside, isWord, ?_, ?_⟩
          · omega
          · rw [isSet_index inside]
            exact isClear
        · rw [if_pos isNone]
          exact Or.inr (Or.inl ⟨rfl, fun i below => isSet_of_words wholeSet lastSet below⟩)
      · rw [unread]
        have lastIndex : cache.chunksPerSlab m / m.wordTBits * m.wordTBits + 0 <
            cache.chunksPerSlab m := by omega
        exact Or.inr
          (Or.inr ⟨rfl, sizes.not_hasBits_of_chunk lastIndex (bitmapBits_le_index behind)⟩)
  · rw [search]
    exact Or.inr (Or.inr ⟨rfl, sizes.not_hasBits_of_chunk (wholeWord_index below m.wordTBits_pos)
      (bitmapBits_le_index behind)⟩)

variable {world : World m} {obtained : List Nat} {nodes : ListName → List Nat}

/-- `__find_unallocated` in the partial list finds a clear bit of a slab on
the list, when there is a slab that is not full. -/
theorem _findUnallocated_spec (sizes : Sizes m cache)
    (consistent : Consistent cache world obtained nodes)
    (room : ∃ slab ∈ nodes .partly, ∃ i, i < cache.chunksPerSlab m ∧
      isSet (world.slab slab).bitmap i = false) :
    (∃ before slab rest word bit, nodes .partly = before ++ slab :: rest ∧
      _findUnallocated cache world (.head .partly) =
        some (linkAfter (.head .partly) before, some (word, bit)) ∧
      bit < m.wordTBits ∧ word < maxBitmapWords m ∧
      word * m.wordTBits + bit < cache.chunksPerSlab m ∧
      isSet (world.slab slab).bitmap (word * m.wordTBits + bit) = false) ∨
    (_findUnallocated cache world (.head .partly) = none ∧ ¬HasBits m cache) := by
  have chain : Chain 0 (lists cache world).next ((lists cache world).read (.head .partly))
      (nodes .partly) := consistent.holds.chain .partly
  have walked := walk_cases (fun slab => unallocatedIn cache (world.slab slab))
    (Link.head ListName.partly) chain (consistent.length_lt .partly)
  rcases walked with
    ⟨before, slab, rest, found, split, _passed, isFound, walked⟩ | ⟨passed, _walked⟩ |
    ⟨⟨slab, _onList, stuck⟩, walked⟩
  · rcases unallocatedIn_cases sizes (world.slab slab) with
      ⟨word, bit, result, inside, isWord, below, clear⟩ | ⟨result, _full⟩ | ⟨result, _fewBits⟩
    · rw [result] at isFound
      cases isFound
      exact Or.inl ⟨before, slab, rest, word, bit, split, walked, inside, isWord, below, clear⟩
    · rw [result] at isFound
      cases isFound
    · rw [result] at isFound
      cases isFound
  · rcases room with ⟨slab, onList, i, below, clear⟩
    have none := passed slab onList
    rcases unallocatedIn_cases sizes (world.slab slab) with
      ⟨word, bit, result, _⟩ | ⟨_result, full⟩ | ⟨result, _fewBits⟩
    · rw [result] at none
      cases none
    · rw [full i below] at clear
      cases clear
    · rw [result] at none
      cases none
  · rcases unallocatedIn_cases sizes (world.slab slab) with
      ⟨word, bit, result, _⟩ | ⟨result, _full⟩ | ⟨_result, fewBits⟩
    · rw [result] at stuck
      cases stuck
    · rw [result] at stuck
      cases stuck
    · exact Or.inr ⟨walked, fewBits⟩

/-! ## A chunk that is allocated -/

/-- The mask that `__find_allocated` tests addresses with. -/
theorem mask_eq (sizes : Sizes m cache) :
    (cache.chunkSz + (m.wordLimit - 1)) % m.wordLimit = cache.chunkSz - 1 := by
  have positive := sizes.chunkSz_pos
  have inSlab := sizes.chunkSz_le
  have inWord := sizes.noOverflow
  rw [show cache.chunkSz + (m.wordLimit - 1) = cache.chunkSz - 1 + m.wordLimit by omega,
    Nat.add_mod_right]
  exact Nat.mod_eq_of_lt (by omega)

/-- For the power of two the mask tests whether the chunk size divides the
address. -/
theorem Shape.mask_iff (shape : Shape m cache) (mem : Nat) :
    mem &&& (cache.chunkSz - 1) = 0 ↔ cache.chunkSz ∣ mem := by
  rcases shape.powerOfTwo with ⟨shift, size⟩
  rw [size, Nat.and_two_pow_sub_one_eq_mod, Nat.dvd_iff_mod_eq_zero]

/-- The pages of a slab contain the addresses from the first on.  When they
end with the address space, the end wraps to zero and none is contained. -/
theorem contains_iff {mem : Nat} {slab : Slab m}
    (inside : slab.page + cache.pagesPerSlab * m.pageSize ≤ m.wordLimit) :
    _pageContainsAddress cache slab mem = true ↔
      slab.page ≤ mem ∧ mem < slab.page + cache.pagesPerSlab * m.pageSize ∧
        slab.page + cache.pagesPerSlab * m.pageSize < m.wordLimit := by
  unfold _pageContainsAddress
  by_cases wraps : slab.page + cache.pagesPerSlab * m.pageSize = m.wordLimit
  · rw [wraps, Nat.mod_self, if_pos (Nat.zero_le mem)]
    simp
  · have below : slab.page + cache.pagesPerSlab * m.pageSize < m.wordLimit :=
      Nat.lt_of_le_of_ne inside wraps
    rw [Nat.mod_eq_of_lt below]
    split <;> simp <;> omega

/-- The chunk of a slab that an address in its pages lies in. -/
def chunkIndex (cache : MemCache) (slab : Slab m) (mem : Nat) : Nat :=
  (mem - slab.page) / cache.chunkSz

/-- An address in a chunk determines its index. -/
theorem chunkIndex_eq {slab : Slab m} {mem index : Nat}
    (lower : slab.page + index * cache.chunkSz ≤ mem)
    (upper : mem < slab.page + index * cache.chunkSz + cache.chunkSz) :
    chunkIndex cache slab mem = index := by
  apply Nat.div_eq_of_lt_le
  · omega
  · rw [Nat.succ_mul]
    omega

/-- The chunk of an address starts at most at the address, and ends behind
it. -/
theorem chunkIndex_bounds (sizes : Sizes m cache) {slab : Slab m} {mem : Nat}
    (lower : slab.page ≤ mem) :
    slab.page + chunkIndex cache slab mem * cache.chunkSz ≤ mem ∧
      mem < slab.page + chunkIndex cache slab mem * cache.chunkSz + cache.chunkSz := by
  have whole := Nat.div_add_mod' (mem - slab.page) cache.chunkSz
  have rest := Nat.mod_lt (mem - slab.page) sizes.chunkSz_pos
  rw [chunkIndex]
  omega

/-- The test of a slab by `__find_allocated`: its answer is the bit of the chunk
that the address lies in.  It has none when the bit would lie behind the
bitmap. -/
theorem allocatedIn_eq (cache : MemCache) (mem : Nat) (slab : Slab m) :
    allocatedIn cache mem slab = if _pageContainsAddress cache slab mem = true then
      if chunkIndex cache slab mem < bitmapBits m then
        some (some (if isSet slab.bitmap (chunkIndex cache slab mem) = true then
          .found (chunkIndex cache slab mem / m.wordTBits) (chunkIndex cache slab mem % m.wordTBits)
          else .doublefree))
      else none
      else some none := by
  unfold allocatedIn
  by_cases contained : _pageContainsAddress cache slab mem = true
  · rw [if_pos contained, if_pos contained]
    dsimp only
    rw [← chunkIndex]
    have tested : slab.bitmap (chunkIndex cache slab mem / m.wordTBits) &&&
          m.bit (chunkIndex cache slab mem % m.wordTBits) = 0#m.wordTBits ↔
        isSet slab.bitmap (chunkIndex cache slab mem) = false :=
      and_bit_eq_zero (Nat.mod_lt _ m.wordTBits_pos)
    have whole := Nat.div_add_mod' (chunkIndex cache slab mem) m.wordTBits
    rcases word_cases slab (chunkIndex cache slab mem / m.wordTBits) with
      ⟨isWord, isRead⟩ | ⟨behind, unread⟩
    · have inBitmap :=
        index_lt_bitmapBits isWord (Nat.mod_lt (chunkIndex cache slab mem) m.wordTBits_pos)
      rw [whole] at inBitmap
      rw [if_pos inBitmap, isRead]
      dsimp only [Option.bind_eq_bind, Option.bind_some]
      cases bit : isSet slab.bitmap (chunkIndex cache slab mem) with
      | true =>
          rw [if_neg (fun clear => by rw [tested.mp clear] at bit; cases bit), if_pos rfl]
          rfl
      | false =>
          rw [if_pos (tested.mpr bit), if_neg Bool.false_ne_true]
          rfl
    · have outside := bitmapBits_le_index (b := chunkIndex cache slab mem % m.wordTBits) behind
      rw [whole] at outside
      rw [if_neg (Nat.not_lt.mpr outside), unread]
      rfl
  · rw [if_neg contained, if_neg contained]

/-- What `__find_allocated` says of an address after it has searched a list. -/
inductive Searched (cache : MemCache) (world : World m) (nodes : ListName → List Nat)
    (name : ListName) (mem : Nat) : Link ListName Nat → Far → Prop
  /-- The address lies in an allocated chunk of a slab of the list. -/
  | found {before rest : List Nat} {slab : Nat} (passes : mem &&& (cache.chunkSz - 1) = 0)
      (split : nodes name = before ++ slab :: rest)
      (contains : _pageContainsAddress cache (world.slab slab) mem = true)
      (set : isSet (world.slab slab).bitmap (chunkIndex cache (world.slab slab) mem) = true) :
      Searched cache world nodes name mem (linkAfter (.head name) before)
        (.found (chunkIndex cache (world.slab slab) mem / m.wordTBits)
          (chunkIndex cache (world.slab slab) mem % m.wordTBits))
  /-- It lies in a slab of the list, but not in an allocated chunk. -/
  | doublefree {link : Link ListName Nat} {slab : Nat} (onList : slab ∈ nodes name)
      (contains : _pageContainsAddress cache (world.slab slab) mem = true)
      (clear : isSet (world.slab slab).bitmap (chunkIndex cache (world.slab slab) mem) = false) :
      Searched cache world nodes name mem link .doublefree
  /-- It lies in no slab of the list. -/
  | notFound {link : Link ListName Nat}
      (outside : ∀ slab ∈ nodes name, _pageContainsAddress cache (world.slab slab) mem ≠ true) :
      Searched cache world nodes name mem link .notFound
  /-- It fails the test with the mask. -/
  | corrupt {link : Link ListName Nat} (fails : mem &&& (cache.chunkSz - 1) ≠ 0) :
      Searched cache world nodes name mem link .corrupt

/-- The address lies in a slab of the list, in a chunk without a bit. -/
def Bitless (cache : MemCache) (world : World m) (slabs : List Nat) (mem : Nat) : Prop :=
  ∃ slab ∈ slabs, _pageContainsAddress cache (world.slab slab) mem = true ∧
    bitmapBits m ≤ chunkIndex cache (world.slab slab) mem

theorem _findAllocated_spec (sizes : Sizes m cache)
    (consistent : Consistent cache world obtained nodes) (name : ListName) (mem : Nat) :
    (∃ link far, _findAllocated mem cache world (.head name) = some (link, far) ∧
      Searched cache world nodes name mem link far) ∨
    (_findAllocated mem cache world (.head name) = none ∧
      Bitless cache world (nodes name) mem) := by
  unfold _findAllocated
  rw [mask_eq sizes]
  by_cases passes : mem &&& (cache.chunkSz - 1) = 0
  · rw [if_pos passes]
    have chain : Chain 0 (lists cache world).next ((lists cache world).read (.head name))
        (nodes name) := consistent.holds.chain name
    rcases walk_cases (fun slab => allocatedIn cache mem (world.slab slab)) (Link.head name)
        chain (consistent.length_lt name) with
      ⟨before, slab, rest, found, split, _passed, isFound, walked⟩ | ⟨passed, walked⟩ |
      ⟨⟨slab, onList, stuck⟩, walked⟩
    · rw [walked]
      refine Or.inl ⟨_, _, rfl, ?_⟩
      rw [allocatedIn_eq] at isFound
      split at isFound
      · rename_i contains
        split at isFound
        · rw [Option.some.injEq, Option.some.injEq] at isFound
          subst isFound
          by_cases set :
              isSet (world.slab slab).bitmap (chunkIndex cache (world.slab slab) mem) = true
          · rw [if_pos set]
            exact .found passes split contains set
          · rw [if_neg set]
            exact .doublefree (mem_of_split split) contains (Bool.eq_false_iff.mpr set)
        · cases isFound
      · cases isFound
    · rw [walked]
      refine Or.inl ⟨_, _, rfl, .notFound fun slab onList contains => ?_⟩
      have none := passed slab onList
      rw [allocatedIn_eq, if_pos contains] at none
      split at none <;> cases none
    · rw [walked]
      refine Or.inr ⟨rfl, slab, onList, ?_⟩
      rw [allocatedIn_eq] at stuck
      split at stuck
      · rename_i contains
        split at stuck
        · cases stuck
        · rename_i outside
          exact ⟨contains, Nat.le_of_not_lt outside⟩
      · cases stuck
  · rw [if_neg passes]
    exact Or.inl ⟨_, _, rfl, .corrupt passes⟩

end SlabCache
end ShovelOS
