import ShovelOS.Buddy.Bitmap

namespace ShovelOS
namespace BuddyAlloc

open WordBits BlockTree

/-!
# The metadata that set-up lays out

Set-up walks a cursor through one allocation: a pointer table, the dirty
bitmaps in order, a second table, and the saturated bitmaps.  The number of
words reserved for an order rounds down the number of its whole blocks and
up to words.  The number of bits in use rounds the number of blocks up.

The first part of this module computes the geometry and the sizes.  The
second part says what the two loops of `buddy_alloc_data` leave behind: the
pointers, and the words, in which the blocks at the end of the heap that are
only partly backed by memory are marked dirty.  The third part compares the
ranges.
-/

variable {m : Machine}

/-! ## Geometry -/

theorem findOrders_le (pages limit : Nat) : findOrders pages limit ≤ limit := by
  induction limit with
  | zero => exact Nat.le_refl _
  | succ limit inductionHypothesis =>
      rw [findOrders]
      split
      · exact Nat.le_refl _
      · exact Nat.le_succ_of_le inductionHypothesis

theorem findOrders_mono {pages pages' : Nat} (fewer : pages ≤ pages') (limit : Nat) :
    findOrders pages limit ≤ findOrders pages' limit := by
  induction limit with
  | zero => exact Nat.le_refl _
  | succ limit inductionHypothesis =>
      rw [findOrders, findOrders]
      by_cases whole : pages >>> limit > 0
      · have whole' : pages' >>> limit > 0 := by
          rw [Nat.shiftRight_eq_div_pow] at whole ⊢
          exact Nat.lt_of_lt_of_le whole (Nat.div_le_div_right fewer)
        rw [if_pos whole, if_pos whole']
      · rw [if_neg whole]
        split
        · exact Nat.le_succ_of_le (findOrders_le _ _)
        · exact inductionHypothesis

/-- The top order has a whole block. -/
theorem two_pow_le_of_lt_findOrders {pages limit order : Nat}
    (below : order < findOrders pages limit) :
    2 ^ order ≤ pages := by
  induction limit with
  | zero => exact absurd below (Nat.not_lt_zero _)
  | succ limit inductionHypothesis =>
      rw [findOrders] at below
      split at below
      · rename_i whole
        rw [Nat.shiftRight_eq_div_pow] at whole
        have top : 2 ^ limit ≤ pages := (Nat.one_le_div_iff (Nat.two_pow_pos _)).mp whole
        exact Nat.le_trans (Nat.pow_le_pow_right (by decide) (Nat.le_of_lt_succ below)) top
      · exact inductionHypothesis below

/-! ## Sizes -/

/-- The words reserved for the bitmap of an order. -/
def orderWords (m : Machine) (pages order : Nat) : Nat :=
  (pages >>> order + (m.wordTBits - 1)) / m.wordTBits

/-- A cursor that has passed the first `order` sizes. -/
def cursor (sizes : Nat → Nat) (start : Nat) : Nat → Nat
  | 0 => start
  | order + 1 => cursor sizes start order + sizes order

theorem cursor_add (sizes : Nat → Nat) (start shift order : Nat) :
    cursor sizes (start + shift) order = start + cursor sizes shift order := by
  induction order with
  | zero => rfl
  | succ order inductionHypothesis => rw [cursor, cursor, inductionHypothesis, Nat.add_assoc]

theorem cursor_mul (sizes : Nat → Nat) (start factor order : Nat) :
    cursor (fun order => sizes order * factor) (start * factor) order =
      cursor sizes start order * factor := by
  induction order with
  | zero => rfl
  | succ order inductionHypothesis => rw [cursor, cursor, inductionHypothesis, Nat.add_mul]

theorem cursor_mono_order (sizes : Nat → Nat) (start : Nat) {low high : Nat} (below : low ≤ high) :
    cursor sizes start low ≤ cursor sizes start high := by
  induction below with
  | refl => exact Nat.le_refl _
  | step _ inductionHypothesis => exact Nat.le_trans inductionHypothesis (Nat.le_add_right _ _)

theorem cursor_mono {sizes sizes' : Nat → Nat} {start start' : Nat}
    (smaller : ∀ order, sizes order ≤ sizes' order) (earlier : start ≤ start') (order : Nat) :
    cursor sizes start order ≤ cursor sizes' start' order := by
  induction order with
  | zero => exact earlier
  | succ order inductionHypothesis => exact Nat.add_le_add inductionHypothesis (smaller order)

theorem foldl_range_eq_cursor (sizes : Nat → Nat) (start count : Nat) :
    (List.range count).foldl (fun bytes order => bytes + sizes order) start =
      cursor sizes start count := by
  induction count with
  | zero => rfl
  | succ count inductionHypothesis =>
      rw [List.range_succ, List.foldl_append, inductionHypothesis]
      rfl

/-- Page counts whose heap a word can measure. -/
def Measurable (m : Machine) (pages : Nat) : Prop := pages * m.pageSize < m.wordLimit

theorem Measurable.mul_lt {pages : Nat} (measurable : Measurable m pages) :
    pages * 32 < m.wordLimit :=
  Nat.lt_of_le_of_lt (Nat.mul_le_mul_left pages m.thirtyTwo_le_pageSize) measurable

theorem measurable_div {heapLength : Nat} (isWord : heapLength < m.wordLimit) :
    Measurable m (heapLength / m.pageSize) :=
  Nat.lt_of_le_of_lt (Nat.div_mul_le_self _ _) isWord

theorem _determineBuddyOrderSize_eq {b : Buddy} (measurable : Measurable m b.order0Bits)
    (order : Nat) :
    _determineBuddyOrderSize m b order = orderWords m b.order0Bits order * m.wordTBytes := by
  have small : b.order0Bits >>> order ≤ b.order0Bits := Nat.shiftRight_le _ _
  have bound := measurable.mul_lt
  have widthEq := m.wordTBits_eq_mul
  have powerOfTwo : ∃ shift, m.wordTBits = 2 ^ shift ∧ shift < m.wordTBits := by
    rcases m.wordTBits_eq with width | width
    · exact ⟨5, width.trans (by decide), by omega⟩
    · exact ⟨6, width.trans (by decide), by omega⟩
  rcases powerOfTwo with ⟨shift, widthPow, below⟩
  have fits : b.order0Bits >>> order + (2 ^ shift - 1) < m.wordLimit := by
    rw [← widthPow]
    have limit : 64 * 32 ≤ m.wordLimit := by
      rw [Machine.wordLimit]
      rcases m.wordTBits_eq with width | width <;> rw [width] <;> decide
    rcases m.wordTBits_eq with width | width <;> omega
  rw [_determineBuddyOrderSize, orderWords]
  conv_lhs => rw [widthPow]
  rw [m.alignU_eq below fits, ← widthPow]
  conv_lhs => rw [widthEq, ← Nat.mul_assoc]
  rw [Nat.mul_div_cancel _ (by decide), ← widthEq]

theorem _determineBuddyDataSize_eq {b : Buddy} (measurable : Measurable m b.order0Bits) :
    _determineBuddyDataSize m b =
      cursor (orderWords m b.order0Bits) b.orders b.orders * m.wordTBytes := by
  rw [_determineBuddyDataSize, foldl_range_eq_cursor, _determineBuddyOrderPtrSize, ← cursor_mul]
  congr 1
  funext order
  exact _determineBuddyOrderSize_eq measurable order

theorem orderWords_mono {pages pages' : Nat} (fewer : pages ≤ pages') (order : Nat) :
    orderWords m pages order ≤ orderWords m pages' order := by
  rw [orderWords, orderWords, Nat.shiftRight_eq_div_pow, Nat.shiftRight_eq_div_pow]
  exact Nat.div_le_div_right (Nat.add_le_add_right (Nat.div_le_div_right fewer) _)

/-! ## The pointers -/

theorem _determineBuddyOrderSize_congr {b b' : Buddy} (same : b'.order0Bits = b.order0Bits)
    (order : Nat) :
    _determineBuddyOrderSize m b' order = _determineBuddyOrderSize m b order := by
  rw [_determineBuddyOrderSize, _determineBuddyOrderSize, same]

namespace Buddies

theorem buddy_setData (b : Buddies m) (hierarchy other : Hierarchy) (order : Nat)
    (pointer : WordPtr) :
    (b.setData hierarchy order pointer).buddy other =
      if other = hierarchy then { b.buddy other with
        data := fun k => if k = order then pointer else (b.buddy other).data k }
      else b.buddy other := by
  cases hierarchy <;> cases other <;> rfl

theorem words_setData (b : Buddies m) (hierarchy : Hierarchy) (order : Nat) (pointer : WordPtr) :
    (b.setData hierarchy order pointer).words = b.words := by
  cases hierarchy <;> rfl

theorem total_setData (b : Buddies m) (hierarchy : Hierarchy) (order : Nat) (pointer : WordPtr) :
    (b.setData hierarchy order pointer).totalPagesAllocated = b.totalPagesAllocated := by
  cases hierarchy <;> rfl

theorem buddy_setTable (b : Buddies m) (hierarchy other : Hierarchy) (pointer : WordPtr) :
    (b.setTable hierarchy pointer).buddy other =
      if other = hierarchy then { b.buddy other with table := pointer } else b.buddy other := by
  cases hierarchy <;> cases other <;> rfl

theorem words_setTable (b : Buddies m) (hierarchy : Hierarchy) (pointer : WordPtr) :
    (b.setTable hierarchy pointer).words = b.words := by
  cases hierarchy <;> rfl

theorem total_setTable (b : Buddies m) (hierarchy : Hierarchy) (pointer : WordPtr) :
    (b.setTable hierarchy pointer).totalPagesAllocated = b.totalPagesAllocated := by
  cases hierarchy <;> rfl

end Buddies

theorem markPartlyBacked_sameFrame (b : Buddies m) (order : Nat) :
    SameFrame b (markPartlyBacked b order) ∧
      (markPartlyBacked b order).totalPagesAllocated = b.totalPagesAllocated := by
  rw [markPartlyBacked]
  split
  · exact ⟨⟨rfl, rfl, rfl⟩, rfl⟩
  · exact ⟨SameFrame.refl b, rfl⟩

/-- What one of the two loops leaves behind, apart from the words: the
cursor has passed the sizes, the visited entries of the table are set, and
nothing else of either hierarchy has changed. -/
structure LaidOut (layout : Layout) (hierarchy : Hierarchy) (sizes : Nat → Nat)
    (start first count : Nat) (b b' : Buddies m) : Prop where
  other : ∀ other, other ≠ hierarchy → b'.buddy other = b.buddy other
  table : (b'.buddy hierarchy).table = (b.buddy hierarchy).table
  order0Bits : (b'.buddy hierarchy).order0Bits = (b.buddy hierarchy).order0Bits
  orders : (b'.buddy hierarchy).orders = (b.buddy hierarchy).orders
  data : ∀ order, first ≤ order → order < first + count →
    (b'.buddy hierarchy).data order = layout.place hierarchy order (cursor sizes start order)
  dataBefore : ∀ order, order < first →
    (b'.buddy hierarchy).data order = (b.buddy hierarchy).data order
  total : b'.totalPagesAllocated = b.totalPagesAllocated

theorem layOutOrders_laidOut (layout : Layout) (hierarchy : Hierarchy)
    (treat : Buddies m → Nat → Buddies m)
    (frames : ∀ b order, SameFrame b (treat b order) ∧
      (treat b order).totalPagesAllocated = b.totalPagesAllocated)
    (sizes : Nat → Nat) (start : Nat) (remaining order : Nat) (b : Buddies m)
    (reserved : ∀ order, _determineBuddyOrderSize m (b.buddy hierarchy) order / m.wordTBytes =
      sizes order) :
    (layOutOrders layout hierarchy treat remaining order (cursor sizes start order) b).1 =
        cursor sizes start (order + remaining) ∧
      LaidOut layout hierarchy sizes start order remaining b
        (layOutOrders layout hierarchy treat remaining order (cursor sizes start order) b).2 := by
  induction remaining generalizing order b with
  | zero =>
      exact ⟨rfl, fun _ _ => rfl, rfl, rfl, rfl, fun k atLeast below => by omega,
        fun _ _ => rfl, rfl⟩
  | succ remaining inductionHypothesis =>
      rw [layOutOrders]
      generalize setEq : b.setData hierarchy order
        (layout.place hierarchy order (cursor sizes start order)) = set
      have setBuddy := b.buddy_setData hierarchy hierarchy order
        (layout.place hierarchy order (cursor sizes start order))
      have setOther := fun other => b.buddy_setData hierarchy other order
        (layout.place hierarchy order (cursor sizes start order))
      have setTotal := b.total_setData hierarchy order
        (layout.place hierarchy order (cursor sizes start order))
      rw [setEq] at setBuddy setTotal
      rw [if_pos rfl] at setBuddy
      simp only [setEq] at setOther
      have setBits : (set.buddy hierarchy).order0Bits = (b.buddy hierarchy).order0Bits := by
        rw [setBuddy]
      have advance : cursor sizes start order +
          _determineBuddyOrderSize m (set.buddy hierarchy) order / m.wordTBytes =
            cursor sizes start (order + 1) := by
        rw [_determineBuddyOrderSize_congr setBits, reserved, cursor]
      rw [advance]
      rcases frames set order with ⟨frame, frameTotal⟩
      have reservedNext : ∀ k, _determineBuddyOrderSize m ((treat set order).buddy hierarchy) k /
          m.wordTBytes = sizes k := by
        intro k
        rw [frame.buddy, _determineBuddyOrderSize_congr setBits, reserved]
      rcases inductionHypothesis (order + 1) (treat set order) reservedNext with ⟨passed, laid⟩
      refine ⟨?_, ?_⟩
      · rw [passed]
        congr 1
        omega
      · refine ⟨?_, ?_, ?_, ?_, ?_, ?_, ?_⟩
        · intro other different
          rw [laid.other other different, frame.buddy, setOther, if_neg different]
        · rw [laid.table, frame.buddy, setBuddy]
        · rw [laid.order0Bits, frame.buddy, setBits]
        · rw [laid.orders, frame.buddy, setBuddy]
        · intro k atLeast below
          by_cases now : k = order
          · rw [now, laid.dataBefore order (Nat.lt_succ_self _), frame.buddy, setBuddy]
            exact if_pos rfl
          · exact laid.data k (by omega) (by omega)
        · intro k before
          rw [laid.dataBefore k (by omega), frame.buddy, setBuddy]
          exact if_neg (by omega)
        · rw [laid.total, frameTotal, setTotal]

/-! ## The words -/

/-- The blocks at the end of the heap that memory backs only in part. -/
def PartlyBacked (pages : Nat) (block : Block) : Prop :=
  block.first < pages ∧ pages < block.first + block.size

theorem partlyBacked_iff (pages order index : Nat) :
    PartlyBacked pages ⟨order, index⟩ ↔ pages % (1 <<< order) ≠ 0 ∧ index = pages >>> order := by
  have positive : 0 < 2 ^ order := Nat.two_pow_pos order
  rw [PartlyBacked, Block.first_eq, Nat.one_shiftLeft, Nat.shiftRight_eq_div_pow]
  change index * 2 ^ order < pages ∧ pages < index * 2 ^ order + 2 ^ order ↔ _
  have split := Nat.div_add_mod pages (2 ^ order)
  have below := Nat.mod_lt pages positive
  rw [Nat.mul_comm] at split
  constructor
  · rintro ⟨starts, ends⟩
    have index : pages / 2 ^ order = index :=
      Nat.div_eq_of_lt_le (Nat.le_of_lt starts) (by rw [Nat.add_mul, Nat.one_mul]; exact ends)
    rw [index] at split
    exact ⟨by omega, index.symm⟩
  · rintro ⟨part, rfl⟩
    omega

/-- Marking the partly backed block of an order sets its bit. -/
theorem markPartlyBacked_words {pages : Nat} (b : Buddies m) (bits : b.dirty.order0Bits = pages)
    (order : Nat) (pointer : WordPtr) {i : Nat} (inWord : i < m.wordTBits) :
    ((markPartlyBacked b order).words pointer).getLsbD i = true ↔
      (b.words pointer).getLsbD i = true ∨ (PartlyBacked pages ⟨order, pages >>> order⟩ ∧
        pointer = (b.dirty.data order).add (pages >>> order / m.wordTBits) ∧
        i = pages >>> order % m.wordTBits) := by
  rw [markPartlyBacked, bits]
  by_cases part : pages % (1 <<< order) ≠ 0
  · rw [if_pos part]
    have isPart : PartlyBacked pages ⟨order, pages >>> order⟩ :=
      (partlyBacked_iff pages order _).mpr ⟨part, rfl⟩
    have address : b.wordAt .dirty order (pages >>> order / m.wordTBits) =
        (b.dirty.data order).add (pages >>> order / m.wordTBits) := rfl
    rw [Buddies.store]
    dsimp only
    rw [Buddies.load, address]
    by_cases here : pointer = (b.dirty.data order).add (pages >>> order / m.wordTBits)
    · rw [if_pos here, Machine.bit, getLsbD_or_bit inWord, Bool.or_eq_true, decide_eq_true_eq,
        ← here]
      exact or_congr_right ⟨fun same => ⟨isPart, rfl, same⟩, fun all => all.2.2⟩
    · rw [if_neg here]
      exact ⟨Or.inl, fun either => either.elim id fun all => absurd all.2.1 here⟩
  · rw [if_neg part]
    refine ⟨Or.inl, fun either => either.elim id fun all => ?_⟩
    exact absurd ((partlyBacked_iff pages order _).mp all.1).1 part

/-- The bits that the marking of partly backed blocks has set so far. -/
theorem layOutOrders_dirty_words (layout : Layout) {pages : Nat} (sizes : Nat → Nat) (start : Nat)
    (remaining order : Nat) (b : Buddies m) (bits : b.dirty.order0Bits = pages)
    (reserved : ∀ order, _determineBuddyOrderSize m b.dirty order / m.wordTBytes = sizes order)
    (pointer : WordPtr) {i : Nat} (inWord : i < m.wordTBits) :
    ((layOutOrders layout .dirty markPartlyBacked remaining order
      (cursor sizes start order) b).2.words
        pointer).getLsbD i = true ↔
      (b.words pointer).getLsbD i = true ∨ ∃ k, order ≤ k ∧ k < order + remaining ∧
        PartlyBacked pages ⟨k, pages >>> k⟩ ∧
        pointer = (layout.place .dirty k (cursor sizes start k)).add (pages >>> k / m.wordTBits) ∧
        i = pages >>> k % m.wordTBits := by
  induction remaining generalizing order b with
  | zero =>
      refine ⟨Or.inl, ?_⟩
      rintro (old | ⟨k, atLeast, below, _⟩)
      · exact old
      · omega
  | succ remaining inductionHypothesis =>
      rw [layOutOrders]
      generalize setEq : b.setData .dirty order
        (layout.place .dirty order (cursor sizes start order)) = set
      have setBits : set.dirty.order0Bits = b.dirty.order0Bits := by rw [← setEq]; rfl
      have setWords : set.words = b.words := by rw [← setEq]; rfl
      have setData : set.dirty.data order =
          layout.place .dirty order (cursor sizes start order) := by
        rw [← setEq]
        exact if_pos rfl
      have advance : cursor sizes start order +
          _determineBuddyOrderSize m (set.buddy .dirty) order / m.wordTBytes =
            cursor sizes start (order + 1) := by
        change _ + _determineBuddyOrderSize m set.dirty order / m.wordTBytes = _
        rw [_determineBuddyOrderSize_congr setBits, reserved, cursor]
      rw [advance]
      have frame := (markPartlyBacked_sameFrame set order).1
      rw [inductionHypothesis (order + 1) (markPartlyBacked set order)
        (by rw [frame.dirty, setBits, bits])
        (by intro k; rw [frame.dirty, _determineBuddyOrderSize_congr setBits, reserved])]
      rw [markPartlyBacked_words set (setBits.trans bits) order pointer inWord, setWords, setData,
        or_assoc]
      refine or_congr_right ?_
      constructor
      · rintro (now | ⟨k, atLeast, below, all⟩)
        · exact ⟨order, Nat.le_refl _, by omega, now⟩
        · exact ⟨k, by omega, by omega, all⟩
      · rintro ⟨k, atLeast, below, all⟩
        by_cases now : k = order
        · exact Or.inl (now ▸ all)
        · exact Or.inr ⟨k, by omega, by omega, all⟩

theorem layOutOrders_words (layout : Layout) (hierarchy : Hierarchy) (remaining order cur : Nat)
    (b : Buddies m) :
    (layOutOrders layout hierarchy (fun b _order => b) remaining order cur b).2.words =
      b.words := by
  induction remaining generalizing order cur b with
  | zero => rfl
  | succ remaining inductionHypothesis =>
      rw [layOutOrders, inductionHypothesis, Buddies.words_setData]

/-! ## The state that set-up builds -/

/-- The words of one hierarchy: its table and its bitmaps. -/
def hierarchyWords (m : Machine) (pages orders : Nat) : Nat :=
  cursor (orderWords m pages) orders orders

/-- The state behind the block under `if(base)`, for a geometry and the
word index at which the metadata starts. -/
structure Built (layout : Layout) (pages orders start : Nat) (b : Buddies m) : Prop where
  geometry : Geometry b pages orders
  dirtyTable : b.dirty.table = ⟨0, start⟩
  dirtyData : ∀ order, order < orders →
    b.dirty.data order =
      layout.place .dirty order (cursor (orderWords m pages) (start + orders) order)
  saturatedTable : b.saturated.table = ⟨0, start + hierarchyWords m pages orders⟩
  saturatedData : ∀ order, order < orders →
    b.saturated.data order = layout.place .saturated order
      (cursor (orderWords m pages) (start + hierarchyWords m pages orders + orders) order)
  words : ∀ pointer i, i < m.wordTBits → ((b.words pointer).getLsbD i = true ↔
    ∃ order, order < orders ∧ PartlyBacked pages ⟨order, pages >>> order⟩ ∧
      pointer = b.wordAt .dirty order (pages >>> order / m.wordTBits) ∧
      i = pages >>> order % m.wordTBits)

/-- What the loop for one hierarchy leaves behind, apart from the words. -/
structure HierarchyLaid (layout : Layout) (hierarchy : Hierarchy) (pages orders start : Nat)
    (b b' : Buddies m) : Prop where
  other : ∀ other, other ≠ hierarchy → b'.buddy other = b.buddy other
  table : (b'.buddy hierarchy).table = ⟨0, start⟩
  data : ∀ order, order < orders → (b'.buddy hierarchy).data order =
    layout.place hierarchy order (cursor (orderWords m pages) (start + orders) order)
  order0Bits : (b'.buddy hierarchy).order0Bits = pages
  orders : (b'.buddy hierarchy).orders = orders
  total : b'.totalPagesAllocated = b.totalPagesAllocated

section Hierarchies

variable {pages orders : Nat} {b : Buddies m}

theorem orderSize_words {b : Buddy} (bits : b.order0Bits = pages) (measurable : Measurable m pages)
    (order : Nat) :
    _determineBuddyOrderSize m b order / m.wordTBytes = orderWords m pages order := by
  rw [_determineBuddyOrderSize_eq (by rw [bits]; exact measurable), bits,
    Nat.mul_div_cancel _ m.wordTBytes_pos]

theorem layOutHierarchy_eq (layout : Layout) (hierarchy : Hierarchy)
    (treat : Buddies m → Nat → Buddies m) (geometry : Geometry b pages orders) (start : Nat) :
    layOutHierarchy layout hierarchy treat start b =
      layOutOrders layout hierarchy treat orders 0 (cursor (orderWords m pages) (start + orders) 0)
        (b.setTable hierarchy ⟨0, start⟩) := by
  have sameOrders : ((b.setTable hierarchy ⟨0, start⟩).buddy hierarchy).orders = orders := by
    rw [Buddies.buddy_setTable, if_pos rfl]
    exact geometry.orders hierarchy
  rw [layOutHierarchy, sameOrders, cursor]

theorem layOutHierarchy_laid (layout : Layout) (hierarchy : Hierarchy)
    (treat : Buddies m → Nat → Buddies m)
    (frames : ∀ b order, SameFrame b (treat b order) ∧
      (treat b order).totalPagesAllocated = b.totalPagesAllocated)
    (geometry : Geometry b pages orders) (measurable : Measurable m pages) (start : Nat) :
    (layOutHierarchy layout hierarchy treat start b).1 = start + hierarchyWords m pages orders ∧
      HierarchyLaid layout hierarchy pages orders start b
        (layOutHierarchy layout hierarchy treat start b).2 := by
  rw [layOutHierarchy_eq layout hierarchy treat geometry]
  have buddyEq : (b.setTable hierarchy ⟨0, start⟩).buddy hierarchy =
      { b.buddy hierarchy with table := ⟨0, start⟩ } := by
    rw [Buddies.buddy_setTable, if_pos rfl]
  have bits : ((b.setTable hierarchy ⟨0, start⟩).buddy hierarchy).order0Bits = pages := by
    rw [buddyEq]
    exact geometry.order0Bits hierarchy
  rcases layOutOrders_laidOut layout hierarchy treat frames (orderWords m pages)
    (start + orders) orders 0 (b.setTable hierarchy ⟨0, start⟩)
      (orderSize_words bits measurable) with
    ⟨passed, laid⟩
  refine ⟨?_, ?_, ?_, ?_, ?_, ?_, ?_⟩
  · rw [passed, Nat.zero_add, cursor_add, hierarchyWords]
  · intro other different
    rw [laid.other other different, Buddies.buddy_setTable, if_neg different]
  · rw [laid.table, buddyEq]
  · intro order below
    exact laid.data order (Nat.zero_le _) (by omega)
  · rw [laid.order0Bits, bits]
  · rw [laid.orders, buddyEq]
    exact geometry.orders hierarchy
  · rw [laid.total, Buddies.total_setTable]

theorem layOutHierarchy_saturated_words (layout : Layout) (geometry : Geometry b pages orders)
    (start : Nat) :
    (layOutHierarchy layout .saturated (fun b _order => b) start b).2.words = b.words := by
  rw [layOutHierarchy_eq layout .saturated _ geometry, layOutOrders_words, Buddies.words_setTable]

theorem layOutHierarchy_dirty_words (layout : Layout) (geometry : Geometry b pages orders)
    (measurable : Measurable m pages) (start : Nat) (zeroed : b.words = fun _ => 0#m.wordTBits)
    (pointer : WordPtr) {i : Nat} (inWord : i < m.wordTBits) :
    ((layOutHierarchy layout .dirty markPartlyBacked start b).2.words pointer).getLsbD i = true ↔
      ∃ order, order < orders ∧ PartlyBacked pages ⟨order, pages >>> order⟩ ∧
        pointer = (layout.place .dirty order
          (cursor (orderWords m pages) (start + orders) order)).add
            (pages >>> order / m.wordTBits) ∧
        i = pages >>> order % m.wordTBits := by
  have bits : (b.setTable .dirty ⟨0, start⟩).dirty.order0Bits = pages := geometry.order0Bits .dirty
  rw [layOutHierarchy_eq layout .dirty _ geometry,
    layOutOrders_dirty_words layout (orderWords m pages)
    (start + orders) orders 0 _ bits (orderSize_words bits measurable) pointer inWord,
    Buddies.words_setTable, zeroed, BitVec.getLsbD_zero]
  simp only [Bool.false_eq_true, false_or, Nat.zero_le, true_and, Nat.zero_add]

end Hierarchies

theorem layOutData_built (layout : Layout) (b : Buddies m) (base : Nat) {pages orders : Nat}
    (geometry : Geometry b pages orders) (measurable : Measurable m pages)
    (zeroed : b.words = fun _ => 0#m.wordTBits) :
    Built layout pages orders (base / m.wordTBytes) (layOutData layout b base).2 ∧
      (layOutData layout b base).1 = base / m.wordTBytes + 2 * hierarchyWords m pages orders ∧
      (layOutData layout b base).2.totalPagesAllocated = b.totalPagesAllocated ∧
      (layOutData layout b base).2.heapBase =
        m.alignU ((layOutData layout b base).1 * m.wordTBytes) m.pageSize := by
  rcases layOutHierarchy_laid layout .dirty markPartlyBacked
    markPartlyBacked_sameFrame geometry measurable (base / m.wordTBytes) with
    ⟨dirtyPassed, dirtyLaid⟩
  have dirtyWords := fun pointer i inWord => layOutHierarchy_dirty_words layout geometry measurable
    (base / m.wordTBytes) zeroed pointer (i := i) inWord
  generalize firstEq : layOutHierarchy layout .dirty markPartlyBacked (base / m.wordTBytes) b = r₁
    at dirtyPassed dirtyLaid dirtyWords
  have saturatedKept : r₁.2.saturated = b.saturated := dirtyLaid.other .saturated (by decide)
  have geometry₁ : Geometry r₁.2 pages orders := by
    constructor
    · rintro (_ | _)
      · exact dirtyLaid.order0Bits
      · exact (congrArg Buddy.order0Bits saturatedKept).trans (geometry.order0Bits .saturated)
    · rintro (_ | _)
      · exact dirtyLaid.orders
      · exact (congrArg Buddy.orders saturatedKept).trans (geometry.orders .saturated)
  rcases layOutHierarchy_laid layout .saturated
    (fun b _order => b) (fun b _order => ⟨SameFrame.refl b, rfl⟩) geometry₁ measurable r₁.1 with
    ⟨saturatedPassed, saturatedLaid⟩
  have saturatedWords := layOutHierarchy_saturated_words layout geometry₁ r₁.1
  generalize secondEq : layOutHierarchy layout .saturated (fun b _order => b) r₁.1 r₁.2 = r₂
    at saturatedPassed saturatedLaid saturatedWords
  have dirtyKept : r₂.2.dirty = r₁.2.dirty := saturatedLaid.other .dirty (by decide)
  have result : layOutData layout b base =
      (r₂.1, { r₂.2 with heapBase := m.alignU (r₂.1 * m.wordTBytes) m.pageSize }) := by
    unfold layOutData
    simp only [firstEq, secondEq]
  rw [result]
  refine ⟨⟨⟨?_, ?_⟩, ?_, ?_, ?_, ?_, ?_⟩, ?_, saturatedLaid.total.trans dirtyLaid.total, rfl⟩
  · rintro (_ | _)
    · exact (congrArg Buddy.order0Bits dirtyKept).trans dirtyLaid.order0Bits
    · exact saturatedLaid.order0Bits
  · rintro (_ | _)
    · exact (congrArg Buddy.orders dirtyKept).trans dirtyLaid.orders
    · exact saturatedLaid.orders
  · exact (congrArg Buddy.table dirtyKept).trans dirtyLaid.table
  · intro order below
    exact (congrArg (fun b => Buddy.data b order) dirtyKept).trans (dirtyLaid.data order below)
  · rw [← dirtyPassed]
    exact saturatedLaid.table
  · intro order below
    rw [← dirtyPassed]
    exact saturatedLaid.data order below
  · intro pointer i inWord
    change (r₂.2.words pointer).getLsbD i = true ↔ _
    rw [saturatedWords, dirtyWords pointer i inWord]
    refine exists_congr fun order => and_congr_right fun below => ?_
    rw [← dirtyLaid.data order below]
    change _ ↔ _ ∧ pointer = (r₂.2.dirty.data order).add _ ∧ _
    rw [dirtyKept]
    rfl
  · rw [saturatedPassed, dirtyPassed]
    omega

end BuddyAlloc
end ShovelOS
