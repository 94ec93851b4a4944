import ShovelOS.Buddy.Layout

namespace ShovelOS
namespace BuddyAlloc

open WordBits BlockTree

/-!
# When the bitmaps keep apart

Set-up sizes the metadata for the whole heap and lays it out for the smaller
heap that remains.  The two tables and the bitmaps then follow each other
inside the allocation, so the reserved ranges never overlap.

Whether a bitmap stays inside its range is another matter.  An order with
`pages >>> order` whole blocks reserves that number of bits, rounded up to
words, and uses one bit more when a partly backed block follows.  The extra
bit lies in the next range exactly when the whole blocks fill their words.
`ReservedSuffices` excludes that case.  It decides the question for the
packed layout, and it gives `Separate`, which the walks rely on.
-/

variable {m : Machine}

/-- No order has whole blocks that fill their words and a partly backed
block after them. -/
def ReservedSuffices (m : Machine) (pages orders : Nat) : Prop :=
  ∀ order, order < orders → pages % 2 ^ order ≠ 0 → pages >>> order % m.wordTBits ≠ 0

instance (m : Machine) (pages orders : Nat) : Decidable (ReservedSuffices m pages orders) :=
  inferInstanceAs (Decidable (∀ order, order < orders → _))

/-- The used bits of one order stay inside the reserved words. -/
theorem used_word_lt_iff (b : Buddy) (order : Nat) :
    (∀ bit, bit < buddyOrderBits b order → bit / m.wordTBits < orderWords m b.order0Bits order) ↔
      (b.order0Bits % 2 ^ order ≠ 0 → b.order0Bits >>> order % m.wordTBits ≠ 0) := by
  have positive := m.wordTBits_pos
  have split := Nat.div_add_mod (b.order0Bits >>> order) m.wordTBits
  have below := Nat.mod_lt (b.order0Bits >>> order) positive
  have wordsOfPart : b.order0Bits >>> order % m.wordTBits ≠ 0 →
      orderWords m b.order0Bits order = b.order0Bits >>> order / m.wordTBits + 1 := by
    intro part
    rw [orderWords]
    refine Nat.div_eq_of_lt_le ?_ ?_
    · rw [Nat.add_mul, Nat.one_mul, Nat.mul_comm]
      omega
    · rw [Nat.add_mul, Nat.add_mul, Nat.one_mul, Nat.mul_comm]
      omega
  have wordsOfWhole : b.order0Bits >>> order % m.wordTBits = 0 →
      orderWords m b.order0Bits order = b.order0Bits >>> order / m.wordTBits := by
    intro whole
    rw [orderWords]
    refine Nat.div_eq_of_lt_le ?_ ?_
    · rw [Nat.mul_comm]
      omega
    · rw [Nat.add_mul, Nat.one_mul, Nat.mul_comm]
      omega
  rw [buddyOrderBits, Nat.one_shiftLeft]
  constructor
  · intro inside part fills
    rw [if_pos part, wordsOfWhole fills] at inside
    exact Nat.lt_irrefl _ (inside (b.order0Bits >>> order) (Nat.lt_succ_self _))
  · intro suffices_ bit used
    by_cases part : b.order0Bits % 2 ^ order ≠ 0
    · rw [if_pos part] at used
      rw [wordsOfPart (suffices_ part)]
      exact Nat.lt_succ_of_le (Nat.div_le_div_right (Nat.le_of_lt_succ used))
    · rw [if_neg part, Nat.add_zero] at used
      rw [Nat.div_lt_iff_lt_mul positive]
      refine Nat.lt_of_lt_of_le used ?_
      by_cases whole : b.order0Bits >>> order % m.wordTBits = 0
      · rw [wordsOfWhole whole, Nat.mul_comm]
        omega
      · rw [wordsOfPart whole, Nat.add_mul, Nat.one_mul, Nat.mul_comm]
        omega

/-! ## The reserved ranges -/

/-- Start and length, in words, of the table and the bitmaps of a
hierarchy. -/
def hierarchyRanges (m : Machine) (b : Buddy) : List (Nat × Nat) :=
  (b.table.offset, _determineBuddyOrderPtrSize m b / m.wordTBytes) ::
    (List.range b.orders).map fun order =>
      ((b.data order).offset, _determineBuddyOrderSize m b order / m.wordTBytes)

/-- All ranges of the metadata allocation. -/
def metadataRanges (b : Buddies m) : List (Nat × Nat) :=
  hierarchyRanges m b.dirty ++ hierarchyRanges m b.saturated

/-- Two ranges share no word. -/
def RangesApart (left right : Nat × Nat) : Prop :=
  left.1 + left.2 ≤ right.1 ∨ right.1 + right.2 ≤ left.1

/-- The metadata is laid out as intended: the ranges are disjoint and lie in
the allocation, the used bits of each bitmap lie in its range, and writing
a bit of one bitmap leaves the bits of all others alone. -/
structure MetadataKeepsApart (b : Buddies m) (base total : Nat) : Prop where
  apart : (metadataRanges b).Pairwise RangesApart
  inside : ∀ range ∈ metadataRanges b,
    base ≤ range.1 * m.wordTBytes ∧ (range.1 + range.2) * m.wordTBytes ≤ base + total
  reserved : ∀ hierarchy order bit, order < (b.buddy hierarchy).orders →
    bit < buddyOrderBits (b.buddy hierarchy) order →
    bit / m.wordTBits < _determineBuddyOrderSize m (b.buddy hierarchy) order / m.wordTBytes
  frame : ∀ hierarchy order bit other order' bit' value,
    order < (b.buddy hierarchy).orders → bit < buddyOrderBits (b.buddy hierarchy) order →
    order' < (b.buddy other).orders → bit' < buddyOrderBits (b.buddy other) order' →
    ¬ (other = hierarchy ∧ order' = order) →
    (b.store hierarchy order (bit / m.wordTBits) value).isSet other order' bit' =
      b.isSet other order' bit'

section Ranges

variable {pages orders start : Nat}

/-- The ranges of one hierarchy as the packed layout computes them. -/
def packedRanges (m : Machine) (pages orders start : Nat) : List (Nat × Nat) :=
  (start, orders) :: (List.range orders).map fun order =>
    (cursor (orderWords m pages) (start + orders) order, orderWords m pages order)

theorem packedRanges_follow (m : Machine) (pages orders start : Nat) :
    (packedRanges m pages orders start).Pairwise fun left right => left.1 + left.2 ≤ right.1 := by
  refine List.pairwise_cons.mpr ⟨?_, ?_⟩
  · intro range isRange
    rcases List.mem_map.mp isRange with ⟨order, _isOrder, rfl⟩
    exact cursor_mono_order _ _ (Nat.zero_le order)
  · refine List.pairwise_map.mpr (List.pairwise_lt_range.imp ?_)
    intro low high below
    exact cursor_mono_order (orderWords m pages) (start + orders) below

theorem packedRanges_bounds {range : Nat × Nat}
    (isRange : range ∈ packedRanges m pages orders start) :
    start ≤ range.1 ∧ range.1 + range.2 ≤ start + hierarchyWords m pages orders := by
  have shifted : ∀ order, cursor (orderWords m pages) (start + orders) order =
      start + cursor (orderWords m pages) orders order := cursor_add _ _ _
  rcases List.mem_cons.mp isRange with rfl | isBitmap
  · refine ⟨Nat.le_refl _, Nat.add_le_add_left ?_ _⟩
    exact cursor_mono_order (orderWords m pages) orders (Nat.zero_le orders)
  · rcases List.mem_map.mp isBitmap with ⟨order, isOrder, rfl⟩
    have below := List.mem_range.mp isOrder
    rw [shifted]
    refine ⟨Nat.le_add_right _ _, ?_⟩
    rw [Nat.add_assoc]
    exact Nat.add_le_add_left (cursor_mono_order (orderWords m pages) orders below) _

variable {b : Buddies m}

theorem Built.dirtyRanges (built : Built .packed pages orders start b)
    (measurable : Measurable m pages) :
    hierarchyRanges m b.dirty = packedRanges m pages orders start := by
  have bits : b.dirty.order0Bits = pages := built.geometry.order0Bits .dirty
  have sameOrders : b.dirty.orders = orders := built.geometry.orders .dirty
  rw [hierarchyRanges, packedRanges, built.dirtyTable, _determineBuddyOrderPtrSize, sameOrders,
    Nat.mul_div_cancel _ m.wordTBytes_pos]
  congr 1
  refine List.map_congr_left fun order isOrder => ?_
  rw [built.dirtyData order (List.mem_range.mp isOrder), orderSize_words bits measurable]
  rfl

theorem Built.saturatedRanges (built : Built .packed pages orders start b)
    (measurable : Measurable m pages) : hierarchyRanges m b.saturated =
      packedRanges m pages orders (start + hierarchyWords m pages orders) := by
  have bits : b.saturated.order0Bits = pages := built.geometry.order0Bits .saturated
  have sameOrders : b.saturated.orders = orders := built.geometry.orders .saturated
  rw [hierarchyRanges, packedRanges, built.saturatedTable, _determineBuddyOrderPtrSize, sameOrders,
    Nat.mul_div_cancel _ m.wordTBytes_pos]
  congr 1
  refine List.map_congr_left fun order isOrder => ?_
  rw [built.saturatedData order (List.mem_range.mp isOrder), orderSize_words bits measurable]
  rfl

theorem Built.metadataRanges_follow (built : Built .packed pages orders start b)
    (measurable : Measurable m pages) :
    (metadataRanges b).Pairwise fun left right => left.1 + left.2 ≤ right.1 := by
  rw [metadataRanges, built.dirtyRanges measurable, built.saturatedRanges measurable]
  refine List.pairwise_append.mpr
    ⟨packedRanges_follow _ _ _ _, packedRanges_follow _ _ _ _, ?_⟩
  intro left isLeft right isRight
  exact Nat.le_trans (packedRanges_bounds isLeft).2 (packedRanges_bounds isRight).1

theorem Built.metadataRanges_bounds (built : Built .packed pages orders start b)
    (measurable : Measurable m pages) {range : Nat × Nat} (isRange : range ∈ metadataRanges b) :
    start ≤ range.1 ∧ range.1 + range.2 ≤ start + 2 * hierarchyWords m pages orders := by
  rw [metadataRanges, built.dirtyRanges measurable, built.saturatedRanges measurable] at isRange
  rcases List.mem_append.mp isRange with isDirty | isSaturated
  · have bounds := packedRanges_bounds isDirty
    omega
  · have bounds := packedRanges_bounds isSaturated
    omega

/-! ## Different bitmaps, different words -/

theorem ownArrays_separate (built : Built .ownArrays pages orders start b) : Separate b := by
  have object : ∀ hierarchy order word, order < (b.buddy hierarchy).orders →
      b.wordAt hierarchy order word =
        ⟨(Layout.ownArrays.place hierarchy order 0).object, word⟩ := by
    intro hierarchy order word below
    rw [built.geometry.orders hierarchy] at below
    cases hierarchy with
    | dirty =>
        change (b.dirty.data order).add word = _
        rw [built.dirtyData order below]
        exact congrArg _ (Nat.zero_add word)
    | saturated =>
        change (b.saturated.data order).add word = _
        rw [built.saturatedData order below]
        exact congrArg _ (Nat.zero_add word)
  intro hierarchy order bit hierarchy' order' bit' reserved reserved' same
  rw [object hierarchy order _ reserved.1, object hierarchy' order' _ reserved'.1] at same
  rcases WordPtr.mk.inj same with ⟨sameObject, sameWord⟩
  refine ⟨?_, ?_, sameWord⟩ <;> cases hierarchy <;> cases hierarchy' <;>
    simp only [Layout.place] at sameObject <;> first | rfl | omega

/-- The word offsets of one hierarchy are the range of the order. -/
theorem Built.packed_offset (built : Built .packed pages orders start b)
    (suffices_ : ReservedSuffices m pages orders) {hierarchy : Hierarchy} {order bit : Nat}
    (reserved : Reserved b hierarchy order bit) :
    ∃ first, (hierarchy = .dirty ∧ first = start ∨
        hierarchy = .saturated ∧ first = start + hierarchyWords m pages orders) ∧
      (b.wordAt hierarchy order (bit / m.wordTBits)).offset =
        cursor (orderWords m pages) (first + orders) order + bit / m.wordTBits ∧
      bit / m.wordTBits < orderWords m pages order ∧ order < orders := by
  rcases reserved with ⟨inOrders, used, isUsed, sameWord⟩
  rw [built.geometry.orders] at inOrders
  have bits := built.geometry.order0Bits hierarchy
  have inside := (used_word_lt_iff (m := m) (b.buddy hierarchy) order).mpr
    (by rw [bits]; exact suffices_ order inOrders) used isUsed
  rw [bits, sameWord] at inside
  cases hierarchy with
  | dirty =>
      refine ⟨start, Or.inl ⟨rfl, rfl⟩, ?_, inside, inOrders⟩
      change (b.dirty.data order).offset + _ = _
      rw [built.dirtyData order inOrders]
      rfl
  | saturated =>
      refine ⟨_, Or.inr ⟨rfl, rfl⟩, ?_, inside, inOrders⟩
      change (b.saturated.data order).offset + _ = _
      rw [built.saturatedData order inOrders]
      rfl

theorem packed_separate (built : Built .packed pages orders start b)
    (suffices_ : ReservedSuffices m pages orders) : Separate b := by
  have shifted : ∀ first order, cursor (orderWords m pages) (first + orders) order =
      first + cursor (orderWords m pages) orders order := fun first => cursor_add _ first _
  -- Within a hierarchy the ranges of two orders follow each other.
  have follow : ∀ low high, low < high →
      cursor (orderWords m pages) orders low + orderWords m pages low ≤
      cursor (orderWords m pages) orders high :=
    fun low high below => cursor_mono_order (orderWords m pages) orders below
  intro hierarchy order bit hierarchy' order' bit' reserved reserved' same
  rcases built.packed_offset suffices_ reserved with ⟨first, whose, offset, inside, below⟩
  rcases built.packed_offset suffices_ reserved' with ⟨first', whose', offset', inside', below'⟩
  rw [same, offset', shifted first order, shifted first' order'] at offset
  generalize bit / m.wordTBits = word at offset inside ⊢
  generalize bit' / m.wordTBits = word' at offset inside' ⊢
  have ends := follow order orders below
  have ends' := follow order' orders below'
  have sameHierarchy : hierarchy = hierarchy' ∧ first = first' := by
    have last : cursor (orderWords m pages) orders orders = hierarchyWords m pages orders := rfl
    rcases whose with ⟨rfl, rfl⟩ | ⟨rfl, rfl⟩ <;> rcases whose' with ⟨rfl, rfl⟩ | ⟨rfl, rfl⟩ <;>
      first | exact ⟨rfl, rfl⟩ | omega
  rcases sameHierarchy with ⟨rfl, rfl⟩
  have sameOrder : order = order' := by
    rcases Nat.lt_trichotomy order order' with lower | equal | higher
    · have gap := follow order order' lower
      omega
    · exact equal
    · have gap := follow order' order higher
      omega
  subst sameOrder
  exact ⟨rfl, rfl, by omega⟩

end Ranges

/-! ## The metadata of `buddy_alloc_data` -/

theorem _configureGeometry_geometry {b : Buddies m} {pages orders : Nat}
    (geometry : Geometry b pages orders) (heapLength : Nat) :
    Geometry (_configureGeometry b heapLength).2 (heapLength / m.pageSize)
      (if findOrders (heapLength / m.pageSize) 31 = 0 then orders
        else findOrders (heapLength / m.pageSize) 31) := by
  rw [_configureGeometry]
  dsimp only
  split
  · refine ⟨fun hierarchy => ?_, fun hierarchy => ?_⟩
    · cases hierarchy <;> rfl
    · cases hierarchy with
      | dirty => exact geometry.orders .dirty
      | saturated => exact geometry.orders .saturated
  · refine ⟨fun hierarchy => ?_, fun hierarchy => ?_⟩ <;> cases hierarchy <;> rfl

theorem _configureGeometry_words (b : Buddies m) (heapLength : Nat) :
    (_configureGeometry b heapLength).2.words = b.words ∧
      (_configureGeometry b heapLength).2.totalPagesAllocated = b.totalPagesAllocated := by
  rw [_configureGeometry]
  dsimp only
  split <;> exact ⟨rfl, rfl⟩

theorem zero_geometry : Geometry (Buddies.zero m) 0 0 :=
  ⟨fun hierarchy => by cases hierarchy <;> rfl, fun hierarchy => by cases hierarchy <;> rfl⟩

theorem hierarchyWords_mono {pages pages' orders orders' : Nat} (fewer : pages ≤ pages')
    (lower : orders ≤ orders') : hierarchyWords m pages orders ≤ hierarchyWords m pages' orders' :=
  Nat.le_trans (cursor_mono (orderWords_mono fewer) lower orders) (cursor_mono_order _ _ lower)

theorem totalDataSz_eq {b : Buddies m} {pages orders : Nat} (geometry : Geometry b pages orders)
    (measurable : Measurable m pages) :
    totalDataSz b = 2 * hierarchyWords m pages orders * m.wordTBytes := by
  have dirtyBits : b.dirty.order0Bits = pages := geometry.order0Bits .dirty
  have dirtyOrders : b.dirty.orders = orders := geometry.orders .dirty
  have saturatedBits : b.saturated.order0Bits = pages := geometry.order0Bits .saturated
  have saturatedOrders : b.saturated.orders = orders := geometry.orders .saturated
  rw [totalDataSz, _determineBuddyDataSize_eq (by rw [dirtyBits]; exact measurable),
    _determineBuddyDataSize_eq (by rw [saturatedBits]; exact measurable), dirtyBits, dirtyOrders,
    saturatedBits, saturatedOrders, hierarchyWords, Nat.mul_assoc, Nat.two_mul]

/-- The allocation request of `buddy_alloc_data`, in bytes. -/
def metadataSize (m : Machine) (heapLength : Nat) : Nat :=
  totalDataSz (_configureGeometry (Buddies.zero m) heapLength).2

/-- The address that the request returns. -/
def metadataBase (m : Machine) (heapLength : Nat) (allocFunc : Nat → Nat → Nat)
    (flags : Nat) : Nat :=
  allocFunc (m.alignU (metadataSize m heapLength) m.pageSize / m.pageSize) flags

/-- The heap that remains next to the metadata, in bytes. -/
def trackedLength (m : Machine) (heapLength : Nat) : Nat := heapLength - metadataSize m heapLength

/-- The state with the first geometry and zeroed metadata. -/
def measured (m : Machine) (heapLength : Nat) : Buddies m :=
  { (_configureGeometry (Buddies.zero m) heapLength).2 with words := fun _ => 0#m.wordTBits }

/-- The state with the second geometry, before it is laid out. -/
def remeasured (m : Machine) (heapLength : Nat) : Buddies m :=
  (_configureGeometry (measured m heapLength) (trackedLength m heapLength)).2

theorem buddyAllocData_eq (layout : Layout) (heapLength : Nat) (allocFunc : Nat → Nat → Nat)
    (flags : Nat) :
    buddyAllocData layout (Buddies.zero m) heapLength allocFunc flags =
      if metadataSize m heapLength ≥ heapLength then none
      else if metadataBase m heapLength allocFunc flags ≠ 0 then
        let laid := layOutData layout (remeasured m heapLength)
          (metadataBase m heapLength allocFunc flags)
        some (if laid.1 * m.wordTBytes =
          metadataBase m heapLength allocFunc flags + metadataSize m heapLength then 0 else
            -1, laid.2)
      else some (-1, remeasured m heapLength) := by
  rw [buddyAllocData, metadataBase, remeasured, measured, trackedLength, metadataSize]

theorem configured_geometry (m : Machine) (heapLength : Nat) :
    Geometry (_configureGeometry (Buddies.zero m) heapLength).2 (heapLength / m.pageSize)
      (findOrders (heapLength / m.pageSize) 31) := by
  have geometry := _configureGeometry_geometry (zero_geometry (m := m)) heapLength
  have orders : (if findOrders (heapLength / m.pageSize) 31 = 0 then 0
      else findOrders (heapLength / m.pageSize) 31) = findOrders (heapLength / m.pageSize) 31 := by
    split
    · rename_i none
      exact none.symm
    · rfl
  rwa [orders] at geometry

theorem measured_geometry (m : Machine) (heapLength : Nat) :
    Geometry (measured m heapLength) (heapLength / m.pageSize)
      (findOrders (heapLength / m.pageSize) 31) := by
  have geometry := configured_geometry m heapLength
  refine ⟨fun hierarchy => ?_, fun hierarchy => ?_⟩
  · cases hierarchy with
    | dirty => exact geometry.order0Bits .dirty
    | saturated => exact geometry.order0Bits .saturated
  · cases hierarchy with
    | dirty => exact geometry.orders .dirty
    | saturated => exact geometry.orders .saturated

/-- The number of orders after the second measurement.  It stays that of the
first one in the case that no page remains. -/
def trackedOrders (m : Machine) (heapLength : Nat) : Nat :=
  if findOrders (trackedLength m heapLength / m.pageSize) 31 = 0 then
    findOrders (heapLength / m.pageSize) 31
  else findOrders (trackedLength m heapLength / m.pageSize) 31

theorem remeasured_geometry (m : Machine) (heapLength : Nat) :
    Geometry (remeasured m heapLength) (trackedLength m heapLength / m.pageSize)
      (trackedOrders m heapLength) :=
  _configureGeometry_geometry (measured_geometry m heapLength) _

theorem trackedOrders_le (m : Machine) (heapLength : Nat) :
    trackedOrders m heapLength ≤ findOrders (heapLength / m.pageSize) 31 := by
  rw [trackedOrders]
  split
  · exact Nat.le_refl _
  · exact findOrders_mono (Nat.div_le_div_right (Nat.sub_le _ _)) 31

section SetUp

variable {layout : Layout} {heapLength flags : Nat} {allocFunc : Nat → Nat → Nat} {err : Int}
  {b : Buddies m}
variable (isWord : heapLength < m.wordLimit)
variable (obtained : metadataBase m heapLength allocFunc flags ≠ 0)
variable (setUp : buddyAllocData layout (Buddies.zero m) heapLength allocFunc flags = some (err, b))

include obtained setUp in
theorem buddyAllocData_laid :
    (layOutData layout (remeasured m heapLength) (metadataBase m heapLength allocFunc flags)).2 =
      b := by
  rw [buddyAllocData_eq, if_pos obtained] at setUp
  by_cases stops : metadataSize m heapLength ≥ heapLength
  · rw [if_pos stops] at setUp
    cases setUp
  · rw [if_neg stops] at setUp
    exact congrArg Prod.snd (Option.some.inj setUp)

include isWord in
theorem tracked_measurable : Measurable m (trackedLength m heapLength / m.pageSize) :=
  measurable_div (Nat.lt_of_le_of_lt (Nat.sub_le _ _) isWord)

theorem remeasured_words (m : Machine) (heapLength : Nat) :
    (remeasured m heapLength).words = fun _ => 0#m.wordTBits :=
  (_configureGeometry_words _ _).1

include isWord obtained setUp

/-- What set-up builds, for the heap that remains next to the metadata. -/
theorem buddyAllocData_built :
    Built layout (trackedLength m heapLength / m.pageSize) (trackedOrders m heapLength)
      (metadataBase m heapLength allocFunc flags / m.wordTBytes) b := by
  rw [← buddyAllocData_laid obtained setUp]
  exact (layOutData_built layout _ _ (remeasured_geometry m heapLength) (tracked_measurable isWord)
    (remeasured_words m heapLength)).1

/-- No page is counted yet, and the heap base is a word. -/
theorem buddyAllocData_fresh : b.totalPagesAllocated = 0 ∧ b.heapBase < m.wordLimit := by
  rw [← buddyAllocData_laid obtained setUp]
  rcases layOutData_built layout (remeasured m heapLength)
    (metadataBase m heapLength allocFunc flags) (remeasured_geometry m heapLength)
    (tracked_measurable isWord) (remeasured_words m heapLength) with ⟨_, _, total, base⟩
  rw [total, base]
  refine ⟨?_, BitVec.isLt _⟩
  rw [remeasured, (_configureGeometry_words _ _).2]
  exact (_configureGeometry_words _ _).2

end SetUp

theorem metadata_fits {heapLength : Nat} (isWord : heapLength < m.wordLimit) :
    2 * hierarchyWords m (trackedLength m heapLength / m.pageSize) (trackedOrders m heapLength) *
      m.wordTBytes ≤ metadataSize m heapLength := by
  have size : metadataSize m heapLength = _ :=
    totalDataSz_eq (configured_geometry m heapLength) (measurable_div isWord)
  rw [size]
  exact Nat.mul_le_mul_right _ (Nat.mul_le_mul_left 2 (hierarchyWords_mono
    (Nat.div_le_div_right (Nat.sub_le _ _)) (trackedOrders_le m heapLength)))

/-- For every heap whose metadata is laid out, the bitmaps keep apart as
intended if and only if the reserved words suffice for every order. -/
theorem buddyAllocData_keepsApart_iff (heapLength flags : Nat) (allocFunc : Nat → Nat → Nat)
    (err : Int) (b : Buddies m) (isWord : heapLength < m.wordLimit)
    (obtained : metadataBase m heapLength allocFunc flags ≠ 0)
    (aligned : m.wordTBytes ∣ metadataBase m heapLength allocFunc flags)
    (setUp : buddyAllocData .packed (Buddies.zero m) heapLength allocFunc flags = some (err, b)) :
    MetadataKeepsApart b (metadataBase m heapLength allocFunc flags) (metadataSize m heapLength) ↔
      ReservedSuffices m b.dirty.order0Bits b.dirty.orders := by
  have built := buddyAllocData_built isWord obtained setUp
  have measurable := tracked_measurable isWord
  have bits : b.dirty.order0Bits = _ := built.geometry.order0Bits .dirty
  have orders : b.dirty.orders = _ := built.geometry.orders .dirty
  have usedIff := fun hierarchy order => used_word_lt_iff (m := m) (b.buddy hierarchy) order
  simp only [built.geometry.order0Bits] at usedIff
  have size : ∀ hierarchy order, _determineBuddyOrderSize m (b.buddy hierarchy) order /
      m.wordTBytes =
      orderWords m (trackedLength m heapLength / m.pageSize) order :=
    fun hierarchy => orderSize_words (built.geometry.order0Bits hierarchy) measurable
  rw [bits, orders]
  constructor
  · intro keeps order below
    refine (usedIff .dirty order).mp fun bit used => ?_
    rw [← size .dirty order]
    exact keeps.reserved .dirty order bit (by rw [built.geometry.orders]; exact below) used
  · intro suffices_
    refine ⟨(built.metadataRanges_follow measurable).imp Or.inl, ?_, ?_, ?_⟩
    · intro range isRange
      rcases built.metadataRanges_bounds measurable isRange with ⟨starts, ends⟩
      have base := Nat.div_mul_cancel aligned
      have fits := metadata_fits (m := m) isWord
      have startBytes := Nat.mul_le_mul_right m.wordTBytes starts
      have endBytes := Nat.mul_le_mul_right m.wordTBytes ends
      rw [Nat.add_mul _ (2 * _)] at endBytes
      omega
    · intro hierarchy order bit below used
      rw [size hierarchy order]
      rw [built.geometry.orders] at below
      exact (usedIff hierarchy order).mpr (suffices_ order below) bit used
    · intro hierarchy order bit other order' bit' value below used below' used' different
      rw [isSet_store (packed_separate built suffices_) value (reserved_of_used below used)
        (reserved_of_used below' used'), if_neg]
      rintro ⟨sameHierarchy, sameOrder, _⟩
      exact different ⟨sameHierarchy, sameOrder⟩

/-- Set-up on the beagleboard, with the metadata at a fixed address. -/
def setUpAt (layout : Layout) (heapPages : Nat) : Option (Int × Buddies Machine.beaglexm) :=
  buddyAllocData layout (Buddies.zero Machine.beaglexm) (heapPages * 4096) (fun _ _ => 0x80300000) 2

theorem setUpAt_nine : (setUpAt .packed 9).isSome = true := by decide +kernel

theorem setUpAt_sixtySix : (setUpAt .packed 66).isSome = true := by decide +kernel

/-- Eight tracked pages are whole blocks at every order. -/
theorem keepsApart_nine_pages :
    MetadataKeepsApart ((setUpAt .packed 9).get setUpAt_nine).2
      0x80300000 (metadataSize Machine.beaglexm (9 * 4096)) :=
  (buddyAllocData_keepsApart_iff (9 * 4096) 2 (fun _ _ => 0x80300000)
    ((setUpAt .packed 9).get setUpAt_nine).1 ((setUpAt .packed 9).get setUpAt_nine).2
    (by decide) (by decide) (by decide) (Option.some_get setUpAt_nine).symm).mpr (by decide +kernel)

/-- With 65 tracked pages, 32 whole blocks of order one fill a word and the
partly backed one uses the next. -/
theorem not_keepsApart_sixtySix_pages :
    ∃ heapLength flags allocFunc err, ∃ b : Buddies Machine.beaglexm,
      heapLength < Machine.beaglexm.wordLimit ∧
      metadataBase Machine.beaglexm heapLength allocFunc flags ≠ 0 ∧
      Machine.beaglexm.wordTBytes ∣ metadataBase Machine.beaglexm heapLength allocFunc flags ∧
      buddyAllocData .packed (Buddies.zero Machine.beaglexm) heapLength allocFunc flags =
        some (err, b) ∧
      ¬ MetadataKeepsApart b (metadataBase Machine.beaglexm heapLength allocFunc flags)
        (metadataSize Machine.beaglexm heapLength) := by
  refine ⟨66 * 4096, 2, fun _ _ => 0x80300000, ((setUpAt .packed 66).get setUpAt_sixtySix).1,
    ((setUpAt .packed 66).get setUpAt_sixtySix).2, by decide, by decide, by decide,
    (Option.some_get setUpAt_sixtySix).symm, ?_⟩
  intro keeps
  have inside := keeps.reserved .dirty 1 32 (by decide +kernel) (by decide +kernel)
  exact absurd inside (by decide +kernel)

end BuddyAlloc
end ShovelOS
