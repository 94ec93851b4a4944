import ShovelOS.Buddy.Metadata

namespace ShovelOS
namespace BuddyAlloc

open WordBits BlockTree

/-!
# Where set-up places the heap, and what it returns

Set-up measures twice.  The first geometry is that of the whole heap and
gives the size of the metadata.  The second is that of the heap without the
metadata, and the tables and bitmaps are laid out for it.  They may therefore
end before the allocation does.

The heap starts at the next page behind the last word that was laid out.
Since every reservation shrinks with the number of pages, this word lies
inside the allocation, and the tracked pages fit behind it.

Set-up returns zero if the layout ends exactly where the allocation does.
This is so if no page count between the two, at which a reservation grows,
was passed on the way from the first geometry to the second.
-/

variable {m : Machine}

/-! ## Placement -/

/-- A page-aligned start, a prefix rounded up to pages and the whole pages of
what is left fit into a length of whole pages. -/
theorem rounded_prefix_fits {pageSize start length used reserved : Nat} (positive : 0 < pageSize)
    (startAligned : pageSize ∣ start) (lengthAligned : pageSize ∣ length) (fits : used ≤ reserved)
    (smaller : reserved < length) :
    (start + used + (pageSize - 1)) / pageSize * pageSize + (length - reserved) / pageSize *
      pageSize ≤
      start + length := by
  rcases startAligned with ⟨before, rfl⟩
  rcases lengthAligned with ⟨whole, rfl⟩
  rw [Nat.add_assoc, Nat.mul_add_div positive]
  have up := Nat.div_mul_le_self (used + (pageSize - 1)) pageSize
  have down := Nat.div_mul_le_self (pageSize * whole - reserved) pageSize
  generalize (used + (pageSize - 1)) / pageSize = usedPages at up ⊢
  generalize (pageSize * whole - reserved) / pageSize = leftPages at down ⊢
  have pagesFit : usedPages + leftPages < whole + 1 := by
    refine Nat.lt_of_mul_lt_mul_right (a := pageSize) ?_
    rw [Nat.add_mul, Nat.add_mul, Nat.one_mul, Nat.mul_comm whole]
    omega
  calc (before + usedPages) * pageSize + leftPages * pageSize
      = pageSize * before + (usedPages + leftPages) * pageSize := by ring
    _ ≤ pageSize * before + whole * pageSize :=
      Nat.add_le_add_left (Nat.mul_le_mul_right _ (Nat.le_of_lt_succ pagesFit)) _
    _ = pageSize * before + pageSize * whole := by rw [Nat.mul_comm whole]

section Placement

variable {layout : Layout} {heapLength flags : Nat} {allocFunc : Nat → Nat → Nat} {err : Int}
  {b : Buddies m}

/-- The bytes that the second layout takes. -/
def laidBytes (m : Machine) (heapLength : Nat) : Nat :=
  2 * hierarchyWords m (trackedLength m heapLength / m.pageSize) (trackedOrders m heapLength) *
    m.wordTBytes

/-- The cursor, in bytes, behind everything that is laid out. -/
theorem layOutData_end (layout : Layout) (isWord : heapLength < m.wordLimit) {base : Nat}
    (aligned : m.wordTBytes ∣ base) :
    (layOutData layout (remeasured m heapLength) base).1 * m.wordTBytes =
      base + laidBytes m heapLength := by
  have laid :=
    (layOutData_built layout (remeasured m heapLength) base (remeasured_geometry m heapLength)
    (tracked_measurable isWord) (remeasured_words m heapLength)).2.1
  rw [laid, Nat.add_mul, Nat.div_mul_cancel aligned, laidBytes]

theorem buddyAllocData_heapBase (isWord : heapLength < m.wordLimit)
    (aligned : m.wordTBytes ∣ metadataBase m heapLength allocFunc flags)
    (obtained : metadataBase m heapLength allocFunc flags ≠ 0)
    (setUp : buddyAllocData layout (Buddies.zero m) heapLength allocFunc flags = some (err, b)) :
    b.heapBase =
      m.alignU (metadataBase m heapLength allocFunc flags + laidBytes m heapLength) m.pageSize := by
  rw [← buddyAllocData_laid obtained setUp, ← layOutData_end layout isWord aligned]
  exact (layOutData_built layout (remeasured m heapLength) _ (remeasured_geometry m heapLength)
    (tracked_measurable isWord) (remeasured_words m heapLength)).2.2.2

theorem wordTBytes_dvd_pageSize (m : Machine) : m.wordTBytes ∣ m.pageSize := by
  have eight : 2 ^ 3 ∣ m.pageSize :=
    Nat.pow_dvd_pow 2 (Nat.le_trans (by decide) m.five_le_pageShift)
  rcases m.wordTBits_eq with width | width
  · exact Dvd.dvd.trans (by rw [Machine.wordTBytes, width]; decide) eight
  · exact Dvd.dvd.trans (by rw [Machine.wordTBytes, width]; decide) eight

/-- Without metadata, only the geometry has been written. -/
theorem remeasured_heapBase (m : Machine) (heapLength : Nat) :
    (remeasured m heapLength).heapBase = 0 := by
  have kept : ∀ (b : Buddies m) (heapLength : Nat),
      (_configureGeometry b heapLength).2.heapBase = b.heapBase := by
    intro b heapLength
    rw [_configureGeometry]
    dsimp only
    split <;> rfl
  rw [remeasured, kept]
  exact kept _ _

/-- A page-aligned address of the address space has its whole page there. -/
theorem page_fits {address : Nat} (aligned : m.pageSize ∣ address)
    (noWrap : address < m.wordLimit) :
    address + m.pageSize ≤ m.wordLimit := by
  have limitAligned : m.pageSize ∣ m.wordLimit :=
    Nat.pow_dvd_pow 2 (Nat.le_of_lt m.pageShift_lt_wordTBits)
  rcases aligned with ⟨before, rfl⟩
  rcases limitAligned with ⟨whole, limitEq⟩
  rw [limitEq] at noWrap ⊢
  rw [← Nat.mul_succ]
  exact Nat.mul_le_mul_left _ (Nat.lt_of_mul_lt_mul_left noWrap)

/-- For every heap of whole pages that starts with its own metadata, the heap
base is page-aligned and lies behind the metadata, and the tracked pages lie
inside the heap. -/
theorem heap_placed (heapStart heapLength flags : Nat) (allocFunc : Nat → Nat → Nat)
    (startAligned : m.pageSize ∣ heapStart) (lengthAligned : m.pageSize ∣ heapLength)
    (larger : metadataSize m heapLength < heapLength)
    (noWrap : heapStart + heapLength < m.wordLimit)
    (startsHeap : metadataBase m heapLength allocFunc flags = heapStart) :
    ∃ err b, buddyAllocData .packed (Buddies.zero m) heapLength allocFunc flags = some (err, b) ∧
      m.pageSize ∣ b.heapBase ∧
      (heapStart ≠ 0 → ∀ range ∈ metadataRanges b, (range.1 + range.2) * m.wordTBytes ≤
        b.heapBase) ∧
      (∀ hierarchy, b.heapBase + (b.buddy hierarchy).order0Bits * m.pageSize ≤
        heapStart + heapLength) := by
  have isWord : heapLength < m.wordLimit := by omega
  have setUp := buddyAllocData_eq (m := m) .packed heapLength allocFunc flags
  rw [if_neg (Nat.not_le_of_lt larger)] at setUp
  by_cases obtained : metadataBase m heapLength allocFunc flags ≠ 0
  · rw [if_pos obtained] at setUp
    refine ⟨_, _, setUp, ?_⟩
    have aligned : m.wordTBytes ∣ heapStart :=
      Dvd.dvd.trans (wordTBytes_dvd_pageSize m) startAligned
    have built := buddyAllocData_built isWord obtained setUp
    have base := buddyAllocData_heapBase isWord (by rw [startsHeap]; exact aligned) obtained setUp
    generalize (layOutData .packed (remeasured m heapLength)
      (metadataBase m heapLength allocFunc flags)).2 = b at built base
    rw [startsHeap] at base built
    have fits : laidBytes m heapLength ≤ metadataSize m heapLength := metadata_fits isWord
    have endFits := page_fits (Nat.dvd_add startAligned lengthAligned) noWrap
    -- Rounding up the end of the layout does not leave the address space.
    have rounds : heapStart + laidBytes m heapLength + (2 ^ m.pageShift - 1) < m.wordLimit := by
      change _ + (m.pageSize - 1) < _
      omega
    rw [show m.pageSize = 2 ^ m.pageShift from rfl,
      m.alignU_eq m.pageShift_lt_wordTBits rounds] at base
    change b.heapBase = (heapStart + laidBytes m heapLength + (m.pageSize - 1)) / m.pageSize *
      m.pageSize
      at base
    refine ⟨by rw [base]; exact Nat.dvd_mul_left _ _, fun _ range isRange => ?_,
      fun hierarchy => ?_⟩
    · have ends := (built.metadataRanges_bounds (tracked_measurable isWord) isRange).2
      have endBytes := Nat.mul_le_mul_right m.wordTBytes ends
      rw [Nat.add_mul (heapStart / _), Nat.div_mul_cancel aligned] at endBytes
      refine Nat.le_trans endBytes ?_
      change heapStart + laidBytes m heapLength ≤ _
      have positive := m.pageSize_pos
      have below :=
        Nat.lt_div_mul_add (a := heapStart + laidBytes m heapLength + (m.pageSize - 1)) positive
      rw [base]
      omega
    · rw [built.geometry.order0Bits hierarchy, base]
      exact rounded_prefix_fits m.pageSize_pos startAligned lengthAligned fits larger
  · rw [if_neg obtained] at setUp
    refine ⟨_, _, setUp, ?_⟩
    have nothing : heapStart = 0 := by
      rw [← startsHeap]
      exact Decidable.not_not.mp obtained
    rw [remeasured_heapBase]
    refine ⟨Nat.dvd_zero _, fun notNull => absurd nothing notNull, fun hierarchy => ?_⟩
    rw [(remeasured_geometry m heapLength).order0Bits hierarchy, Nat.zero_add]
    have tracked : trackedLength m heapLength / m.pageSize * m.pageSize ≤ heapLength :=
      Nat.le_trans (Nat.div_mul_le_self _ _) (Nat.sub_le _ _)
    exact Nat.le_trans tracked (Nat.le_add_left _ _)

end Placement

/-- A heap of nine pages, eight of which are tracked. -/
theorem heap_placed_nine_pages :
    ∃ err b, buddyAllocData .packed (Buddies.zero Machine.beaglexm) (9 * 4096)
      (fun _ _ => 0x80300000) 2 =
        some (err, b) ∧
      Machine.beaglexm.pageSize ∣ b.heapBase ∧
      (0x80300000 ≠ 0 → ∀ range ∈ metadataRanges b,
        (range.1 + range.2) * Machine.beaglexm.wordTBytes ≤ b.heapBase) ∧
      (∀ hierarchy, b.heapBase + (b.buddy hierarchy).order0Bits * Machine.beaglexm.pageSize ≤
        0x80300000 + 9 * 4096) :=
  heap_placed 0x80300000 (9 * 4096) 2 (fun _ _ => 0x80300000) (by decide) (by decide)
    (by decide +kernel)
    (by decide) rfl

/-! ## The result -/

/-- Page counts at which a reservation grows: an order gets its first block,
or the whole blocks of an order begin a new word of its bitmap. -/
def ReservationGrows (m : Machine) (pages : Nat) : Prop :=
  ∃ order words, order < 31 ∧ pages = (words * m.wordTBits + 1) * 2 ^ order

/-- No reservation grows between the two page counts. -/
def SameReservations (m : Machine) (fewer pages : Nat) : Prop :=
  ∀ between, fewer < between → between ≤ pages → ¬ ReservationGrows m between

/-- The order is tracked as soon as it has a whole block. -/
theorem lt_findOrders {pages limit order : Nat} (below : order < limit)
    (whole : 2 ^ order ≤ pages) :
    order < findOrders pages limit := by
  induction limit with
  | zero => exact absurd below (Nat.not_lt_zero _)
  | succ limit inductionHypothesis =>
      rw [findOrders]
      split
      · exact below
      · rename_i none
        rw [Nat.shiftRight_eq_div_pow] at none
        have notLast : order ≠ limit := by
          rintro rfl
          exact none (Nat.div_pos whole (Nat.two_pow_pos _))
        exact inductionHypothesis (by omega)

/-- The bitmap of an order has more than the given words if its whole blocks
reach into the next one. -/
theorem lt_orderWords_iff (m : Machine) (pages order words : Nat) :
    words < orderWords m pages order ↔ (words * m.wordTBits + 1) * 2 ^ order ≤ pages := by
  have positive := m.wordTBits_pos
  rw [orderWords, Nat.shiftRight_eq_div_pow, ← Nat.succ_le_iff, Nat.le_div_iff_mul_le positive,
    ← Nat.le_div_iff_mul_le (Nat.two_pow_pos order), Nat.succ_mul]
  omega

/-- A reservation that is larger for one order makes the whole sum larger. -/
theorem cursor_lt {sizes sizes' : Nat → Nat} {start start' order count : Nat}
    (smaller : ∀ order, sizes order ≤ sizes' order) (earlier : start ≤ start')
    (counted : order < count)
    (grows : sizes order < sizes' order) :
    cursor sizes start count < cursor sizes' start' count := by
  induction count with
  | zero => exact absurd counted (Nat.not_lt_zero _)
  | succ count inductionHypothesis =>
      rcases Nat.lt_or_eq_of_le (Nat.le_of_lt_succ counted) with before | rfl
      · exact Nat.add_lt_add_of_lt_of_le (inductionHypothesis before) (smaller count)
      · exact Nat.add_lt_add_of_le_of_lt (cursor_mono smaller earlier _) grows

section Reservations

variable {fewer pages : Nat} (isFewer : fewer ≤ pages)

/-- The number of words that a hierarchy takes for a page count. -/
def reservedWords (m : Machine) (pages : Nat) : Nat := hierarchyWords m pages (findOrders pages 31)

include isFewer

/-- If no reservation grows, the geometries agree. -/
theorem reservedWords_eq (same : SameReservations m fewer pages) :
    reservedWords m fewer = reservedWords m pages := by
  have orders : findOrders fewer 31 = findOrders pages 31 := by
    refine Nat.le_antisymm (findOrders_mono isFewer 31) (Nat.le_of_not_lt fun more => ?_)
    have below : findOrders fewer 31 < 31 := Nat.lt_of_lt_of_le more (findOrders_le _ _)
    have notWhole := mt (lt_findOrders below) (Nat.lt_irrefl _)
    refine same _ (Nat.lt_of_not_le notWhole) (two_pow_le_of_lt_findOrders more) ⟨_, 0, below, ?_⟩
    rw [Nat.zero_mul, Nat.zero_add, Nat.one_mul]
  rw [reservedWords, reservedWords, hierarchyWords, hierarchyWords, orders]
  have sameWords : ∀ order, order < 31 → orderWords m fewer order = orderWords m pages order := by
    intro order below
    refine Nat.le_antisymm (orderWords_mono isFewer order) (Nat.le_of_not_lt fun more => ?_)
    have notMore := mt (lt_orderWords_iff m fewer order _).mpr (Nat.lt_irrefl _)
    exact same _ (Nat.lt_of_not_le notMore) ((lt_orderWords_iff m pages order _).mp more)
      ⟨order, _, below, rfl⟩
  have sameCursor : ∀ count, count ≤ 31 → ∀ start,
      cursor (orderWords m fewer) start count = cursor (orderWords m pages) start count := by
    intro count below start
    induction count with
    | zero => rfl
    | succ count inductionHypothesis =>
        rw [cursor, cursor, inductionHypothesis (Nat.le_of_succ_le below), sameWords count below]
  exact sameCursor _ (findOrders_le _ _) _

/-- If a reservation grows, so does the number of words. -/
theorem reservedWords_lt {between : Nat} (after : fewer < between) (until_ : between ≤ pages)
    (grows : ReservationGrows m between) : reservedWords m fewer < reservedWords m pages := by
  rcases grows with ⟨order, words, below, rfl⟩
  have whole : 2 ^ order ≤ pages :=
    Nat.le_trans (Nat.le_mul_of_pos_left _ (Nat.succ_pos _)) until_
  have tracked : order < findOrders pages 31 := lt_findOrders below whole
  rw [reservedWords, reservedWords, hierarchyWords, hierarchyWords]
  have fewerOrders := findOrders_mono isFewer 31
  rcases Nat.lt_or_ge order (findOrders fewer 31) with already | new
  · -- The order is tracked in both geometries, and its bitmap grows.
    have fewWords : orderWords m fewer order ≤ words :=
      Nat.le_of_not_lt (mt (lt_orderWords_iff m fewer order words).mp (Nat.not_le_of_lt after))
    have manyWords := (lt_orderWords_iff m pages order words).mpr until_
    exact Nat.lt_of_lt_of_le
      (cursor_lt (orderWords_mono isFewer) fewerOrders already
        (Nat.lt_of_le_of_lt fewWords manyWords))
      (cursor_mono_order _ _ fewerOrders)
  · -- The order is new, and so is its pointer in the table.
    have moreOrders : findOrders fewer 31 < findOrders pages 31 := Nat.lt_of_le_of_lt new tracked
    refine Nat.lt_of_lt_of_le ?_ (cursor_mono_order _ _ fewerOrders)
    have next : cursor (orderWords m fewer) (1 + findOrders fewer 31) (findOrders fewer 31) ≤
        cursor (orderWords m pages) (findOrders pages 31) (findOrders fewer 31) :=
      cursor_mono (orderWords_mono isFewer) (by omega) _
    rw [cursor_add, Nat.add_comm] at next
    exact next

theorem reservedWords_eq_iff :
    reservedWords m fewer = reservedWords m pages ↔ SameReservations m fewer pages := by
  constructor
  · intro same between after until_ grows
    exact absurd same (Nat.ne_of_lt (reservedWords_lt isFewer after until_ grows))
  · exact reservedWords_eq isFewer

end Reservations

/-- For every heap of which a page remains next to the metadata, and for which
the metadata is obtained, set-up returns zero if and only if no reservation
grows between the pages that remain and those of the whole heap. -/
theorem set_up_succeeds_iff (layout : Layout) (heapLength flags : Nat) (allocFunc : Nat → Nat → Nat)
    (isWord : heapLength < m.wordLimit) (pageRemains : 0 < trackedLength m heapLength / m.pageSize)
    (obtained : metadataBase m heapLength allocFunc flags ≠ 0)
    (aligned : m.wordTBytes ∣ metadataBase m heapLength allocFunc flags) :
    (∃ b, buddyAllocData layout (Buddies.zero m) heapLength allocFunc flags = some (0, b)) ↔
      SameReservations m (trackedLength m heapLength / m.pageSize) (heapLength / m.pageSize) := by
  have fewer : trackedLength m heapLength / m.pageSize ≤ heapLength / m.pageSize :=
    Nat.div_le_div_right (Nat.sub_le _ _)
  have larger : ¬ metadataSize m heapLength ≥ heapLength := by
    intro fills
    rw [trackedLength, Nat.sub_eq_zero_of_le fills, Nat.zero_div] at pageRemains
    exact Nat.lt_irrefl _ pageRemains
  have orders : trackedOrders m heapLength =
      findOrders (trackedLength m heapLength / m.pageSize) 31 :=
    if_neg (Nat.ne_of_gt (lt_findOrders (by decide) pageRemains))
  have size : metadataSize m heapLength = 2 * reservedWords m (heapLength / m.pageSize) *
      m.wordTBytes :=
    totalDataSz_eq (configured_geometry m heapLength) (measurable_div isWord)
  have laid : laidBytes m heapLength =
      2 * reservedWords m (trackedLength m heapLength / m.pageSize) * m.wordTBytes := by
    rw [laidBytes, orders, reservedWords]
  rw [buddyAllocData_eq, if_neg larger, if_pos obtained]
  dsimp only
  have endsTogether : (layOutData layout (remeasured m heapLength)
        (metadataBase m heapLength allocFunc flags)).1 * m.wordTBytes =
      metadataBase m heapLength allocFunc flags + metadataSize m heapLength ↔
      reservedWords m (trackedLength m heapLength / m.pageSize) =
        reservedWords m (heapLength / m.pageSize) := by
    rw [layOutData_end layout isWord aligned, Nat.add_left_cancel_iff, size, laid,
      Nat.mul_left_inj (Nat.ne_of_gt m.wordTBytes_pos), Nat.mul_right_inj (by decide)]
  rw [← reservedWords_eq_iff fewer, ← endsTogether]
  split
  · rename_i ends
    exact iff_of_true ⟨_, rfl⟩ ends
  · rename_i endsEarlier
    refine iff_of_false ?_ endsEarlier
    rintro ⟨b, result⟩
    have err : (-1 : Int) = 0 := congrArg Prod.fst (Option.some.inj result)
    exact absurd err (by decide)

/-- Three pages, of which two remain: there is an order for two pages and one
word for each order before and after. -/
theorem set_up_succeeds_three_pages :
    (∃ b, buddyAllocData .packed (Buddies.zero Machine.beaglexm) (3 * 4096)
      (fun _ _ => 0x80300000) 2 =
      some (0, b)) ↔
      SameReservations Machine.beaglexm
        (trackedLength Machine.beaglexm (3 * 4096) / Machine.beaglexm.pageSize)
        (3 * 4096 / Machine.beaglexm.pageSize) :=
  set_up_succeeds_iff .packed (3 * 4096) 2 (fun _ _ => 0x80300000) (by decide) (by decide +kernel)
    (by decide) (by decide)

/-- Of four pages three remain.  There is an order for four pages only before,
so set-up returns minus one. -/
theorem not_set_up_succeeds_four_pages :
    ¬ ∀ (layout : Layout) (heapLength flags : Nat) (allocFunc : Nat → Nat → Nat),
      heapLength < Machine.beaglexm.wordLimit →
      0 < trackedLength Machine.beaglexm heapLength / Machine.beaglexm.pageSize →
      metadataBase Machine.beaglexm heapLength allocFunc flags ≠ 0 →
      Machine.beaglexm.wordTBytes ∣ metadataBase Machine.beaglexm heapLength allocFunc flags →
      ∃ b, buddyAllocData layout (Buddies.zero Machine.beaglexm) heapLength allocFunc flags =
        some (0, b) := by
  intro succeeds
  rcases succeeds .packed (4 * 4096) 2 (fun _ _ => 0x80300000) (by decide) (by decide +kernel)
    (by decide) (by decide) with ⟨b, result⟩
  have err : (buddyAllocData .packed (Buddies.zero Machine.beaglexm) (4 * 4096)
      (fun _ _ => 0x80300000) 2).map Prod.fst = some (-1) := by decide +kernel
  rw [result] at err
  have zero : (0 : Int) = -1 := Option.some.inj err
  exact absurd zero (by decide)

end BuddyAlloc
end ShovelOS
