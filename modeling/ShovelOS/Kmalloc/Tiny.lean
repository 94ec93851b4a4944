import ShovelOS.Buddy.Completeness

namespace ShovelOS
namespace KmallocTiny

open BuddyAlloc BlockTree

/-!
# The tiny `kmalloc` (`memory/kmalloc_tiny.c`)

The small machines have no memory caches.  Their `kmalloc` rounds the size
up to pages and asks the page allocator, which rounds the pages up to a
power of two.

The rounding to pages adds `PAGE_SIZE - 1` to a word.  For a size in the last
page of the word range the sum wraps, the request is for no page at all, and
the page allocator answers it with one page.  For all other sizes the block
has the bytes asked for.
-/

variable {m : Machine}

/-- `kmalloc`: the address, or zero, and the page allocator afterwards. -/
def kmalloc (b : Buddies m) (size gfpFlags : Nat) : Option (Nat × Buddies m) :=
  let size := m.alignU size m.pageSize
  getFreePages b (size / m.pageSize) gfpFlags

/-- The address is that of a block which the page allocator has reserved in
this call, and the block has at least the given number of bytes. -/
structure Backs (b b' : Buddies m) (address size : Nat) (block : Block) : Prop where
  reserved : b' = reserve b block.order block.index
  address : address = pageAddress b block.first
  enough : size ≤ block.size * m.pageSize

/-- A result other than null is backed by a block of at least the size. -/
def Honours (b : Buddies m) (size gfpFlags : Nat) : Prop :=
  ∃ address b', kmalloc b size gfpFlags = some (address, b') ∧
    (address ≠ 0 → ∃ block, Backs b b' address size block)

/-! ## The pages of a size -/

/-- The sizes whose rounding does not wrap. -/
def Rounds (m : Machine) (size : Nat) : Prop := size + m.pageSize ≤ m.wordLimit

instance (m : Machine) (size : Nat) : Decidable (Rounds m size) :=
  inferInstanceAs (Decidable (_ ≤ _))

theorem alignU_div (m : Machine) (size : Nat) :
    m.alignU size m.pageSize / m.pageSize = (size + (m.pageSize - 1)) % m.wordLimit /
      m.pageSize := by
  have rounded := m.alignU_eq_mod size m.pageShift_lt_wordTBits
  change m.alignU size m.pageSize = (size + (m.pageSize - 1)) % m.wordLimit / m.pageSize *
    m.pageSize
    at rounded
  rw [rounded, Nat.mul_div_cancel _ m.pageSize_pos]

/-- The pages of a size have its bytes, and a request for them has an order. -/
theorem pages_of_rounds {size : Nat} (rounds : Rounds m size) :
    size ≤ m.alignU size m.pageSize / m.pageSize * m.pageSize ∧
      m.alignU size m.pageSize / m.pageSize ≤ 2 ^ (m.wordTBits - 1) := by
  have positive := m.pageSize_pos
  have fits : size + (m.pageSize - 1) < m.wordLimit := by
    unfold Rounds at rounds
    omega
  rw [alignU_div, Nat.mod_eq_of_lt fits]
  have below := Nat.lt_div_mul_add (a := size + (m.pageSize - 1)) positive
  refine ⟨by omega, ?_⟩
  refine Nat.le_of_lt ((Nat.div_lt_iff_lt_mul positive).mpr (Nat.lt_of_lt_of_le fits ?_))
  have double : m.wordLimit = 2 ^ (m.wordTBits - 1) * 2 := by
    rw [← Nat.pow_succ, Machine.wordLimit]
    congr 1
    have := m.wordTBits_pos
    omega
  rw [double]
  exact Nat.mul_le_mul_left _ (Nat.le_trans (by decide) m.thirtyTwo_le_pageSize)

/-- A size in the last page of the word range is rounded to zero. -/
theorem pages_of_not_rounds {size : Nat} (isSize : size < m.wordLimit) (wraps : ¬ Rounds m size) :
    m.alignU size m.pageSize / m.pageSize = 0 := by
  have positive := m.pageSize_pos
  have pageLimit := m.pageSize_le
  have wordLimit := m.two_pow_32_le_wordLimit
  unfold Rounds at wraps
  rw [alignU_div,
    show size + (m.pageSize - 1) = size + m.pageSize - 1 - m.wordLimit + m.wordLimit by omega,
    Nat.add_mod_right]
  have small : size + m.pageSize - 1 - m.wordLimit < m.pageSize := by omega
  rw [Nat.mod_eq_of_lt (by omega), Nat.div_eq_of_lt small]

theorem _pagesOrder_zero : _pagesOrder m 0 = some 0 := by
  rcases _pagesOrder_spec (m := m) (Nat.zero_le _) with ⟨order, equal, _, _, least⟩
  rw [equal]
  rcases Nat.eq_zero_or_pos order with rfl | positive
  · rfl
  · exact absurd (least 0 positive) (Nat.not_lt_zero _)

theorem _pagesOrder_one : _pagesOrder m 1 = some 0 := by
  rcases _pagesOrder_spec (m := m) (Nat.one_le_two_pow) with ⟨order, equal, _, _, least⟩
  rw [equal]
  rcases Nat.eq_zero_or_pos order with rfl | positive
  · rfl
  · exact absurd (least 0 positive) (Nat.lt_irrefl _)

/-- A request for no page is one for one page. -/
theorem getFreePages_zero (b : Buddies m) (gfpFlags : Nat) :
    getFreePages b 0 gfpFlags = getFreePages b 1 gfpFlags := by
  rw [getFreePages, getFreePages, _getFreePages, _getFreePages, _pagesOrder_zero, _pagesOrder_one]

/-! ## Every state of the page allocator -/

/-- A request ends with the null address or with a block of its order. -/
theorem getFreePages_cases (b : Buddies m) {request order : Nat}
    (isOrder : _pagesOrder m request = some order) (gfpFlags : Nat) :
    (∃ b', getFreePages b request gfpFlags = some (0, b')) ∨
      ∃ index, getFreePages b request gfpFlags =
        some (pageAddress b (Block.mk order index).first, reserve b order index) := by
  rw [getFreePages, _getFreePages, isOrder]
  dsimp only [Option.map_some]
  generalize buddySearchUnsaturated b order _ 0 _ = result
  by_cases fails : result ≠ m.wordTMax
  · rw [if_pos fails]
    dsimp only
    by_cases noPage : (result <<< order) % m.wordLimit = m.wordTMax
    · rw [if_pos noPage]
      exact Or.inl ⟨_, rfl⟩
    · rw [if_neg noPage]
      refine Or.inr ⟨result, ?_⟩
      have address : pageAddress (reserve b order result) ((result <<< order) % m.wordLimit) =
          pageAddress b (Block.mk order result).first := by
        rw [pageAddress, pageAddress, (reserve_sameFrame b order result).heapBase,
          ← Nat.mod_add_mod, Nat.mod_mul_mod, Nat.mod_add_mod]
        rfl
      rw [address]
  · rw [if_neg fails]
    dsimp only
    rw [if_pos (Decidable.not_not.mp fails)]
    exact Or.inl ⟨_, rfl⟩

theorem bit_toNat_eq_one {order : Nat} (one : (m.bit order).toNat = 1) : order = 0 := by
  by_cases below : order < m.wordTBits
  · rw [bit_toNat below] at one
    exact (Nat.pow_eq_one.mp one).resolve_left (by decide)
  · have none : (m.bit order).toNat = 0 := by
      rw [Machine.bit, BitVec.shiftLeft_eq_zero (Nat.le_of_not_lt below)]
      rfl
    omega

/-- The counter tells how large a block a single-page request has reserved. -/
theorem order_of_reserve_page {b : Buddies m} {block : Block} {index : Nat}
    (same : reserve b 0 index = reserve b block.order block.index) : block.order = 0 := by
  have total := congrArg Buddies.totalPagesAllocated same
  rw [reserve_totalPagesAllocated, reserve_totalPagesAllocated, bit_toNat m.wordTBits_pos] at total
  have isBit : 2 ^ 0 ≡ (m.bit block.order).toNat [MOD m.wordLimit] :=
    Nat.ModEq.add_left_cancel' b.totalPagesAllocated total
  have one : 2 ^ 0 < m.wordLimit := Nat.lt_of_lt_of_le (by decide) m.two_pow_32_le_wordLimit
  exact bit_toNat_eq_one (isBit.eq_of_lt_of_lt one (m.bit block.order).isLt).symm

/-- In every state, a request of any size is honoured if and only if the
rounding does not wrap or no page can be had. -/
theorem honours_iff (b : Buddies m) (size gfpFlags : Nat) (isSize : size < m.wordLimit) :
    Honours b size gfpFlags ↔
      Rounds m size ∨ (getFreePages b 1 gfpFlags).map Prod.fst = some 0 := by
  constructor
  · rintro ⟨address, b', result, backed⟩
    by_contra neither
    rcases not_or.mp neither with ⟨wraps, notNull⟩
    rw [kmalloc, pages_of_not_rounds isSize wraps, getFreePages_zero] at result
    rw [result] at notNull
    rcases backed (fun null => notNull (congrArg some null)) with ⟨block, backs⟩
    rcases getFreePages_cases b _pagesOrder_one gfpFlags with ⟨_, null⟩ | ⟨index, found⟩
    · rw [null] at result
      have isNull : 0 = address := congrArg Prod.fst (Option.some.inj result)
      exact notNull (congrArg some isNull.symm)
    · rw [found] at result
      have state : reserve b 0 index = b' := congrArg Prod.snd (Option.some.inj result)
      have onePage := order_of_reserve_page (state.trans backs.reserved)
      have enough := backs.enough
      rw [Block.size, onePage, Nat.pow_zero, Nat.one_mul] at enough
      have pageLimit := m.pageSize_le
      have wordLimit := m.two_pow_32_le_wordLimit
      exact wraps (by unfold Rounds; omega)
  · intro either
    by_cases rounds : Rounds m size
    · rcases pages_of_rounds rounds with ⟨hasBytes, small⟩
      rcases _pagesOrder_spec small with ⟨order, isOrder, _, hasPages, _⟩
      rcases getFreePages_cases b isOrder gfpFlags with ⟨b', null⟩ | ⟨index, found⟩
      · exact ⟨0, b', null, fun notNull => absurd rfl notNull⟩
      · refine ⟨_, _, found, fun _ => ⟨⟨order, index⟩, rfl, rfl, ?_⟩⟩
        exact Nat.le_trans hasBytes (Nat.mul_le_mul_right _ hasPages)
    · rcases Option.map_eq_some_iff.mp (either.resolve_left rounds) with
        ⟨⟨address, b'⟩, result, isNull⟩
      refine ⟨address, b', ?_, fun notNull => absurd isNull notNull⟩
      rw [kmalloc, pages_of_not_rounds isSize rounds, getFreePages_zero]
      exact result

/-! ## The states of a run -/

section Runs

variable {layout : Layout} {heap : TrackedHeap m layout} {s : HeapState m}

/-- A result other than null is backed by a block that was in no live block.
It lies inside the heap as long as the partly backed blocks are guarded. -/
def HonoursInHeap (heap : TrackedHeap m layout) (s : HeapState m) (size gfpFlags : Nat) : Prop :=
  kmalloc s.buddies size gfpFlags = some (0, s.buddies) ∨
    ∃ address b' block, kmalloc s.buddies size gfpFlags = some (address, b') ∧ address ≠ 0 ∧
      Backs s.buddies b' address size block ∧ InHeap heap.pages heap.orders block ∧
      (∀ held ∈ s.blocks, block.Apart held) ∧
      (Guarded heap.pages heap.orders s → Backed heap.pages block)

theorem HonoursInHeap.honours {size gfpFlags : Nat} (honours : HonoursInHeap heap s size gfpFlags) :
    Honours s.buddies size gfpFlags := by
  rcases honours with null | ⟨address, b', block, result, _, backs, _⟩
  · exact ⟨0, _, null, fun notNull => absurd rfl notNull⟩
  · exact ⟨address, b', result, fun _ => ⟨block, backs⟩⟩

end Runs

/-- A request is honoured in every state of the page allocator if the rounding
of its size does not wrap, and in a state of a run if and only if this is so
or all pages are in live blocks.  The packed bitmaps are included where the
reserved words suffice. -/
theorem kmalloc_honours_size (size gfpFlags : Nat) (isSize : size < m.wordLimit) :
    (∀ b : Buddies m, Rounds m size → Honours b size gfpFlags) ∧
    ∀ (layout : Layout) (heap : TrackedHeap m layout) (s : HeapState m),
      (layout = .packed → ReservedSuffices m heap.pages heap.orders) → heap.Reachable s →
      (HonoursInHeap heap s size gfpFlags ↔
        Rounds m size ∨ ∀ page, page < heap.pages → ∃ held ∈ s.blocks, held.Contains page) := by
  refine ⟨fun b rounds => (honours_iff b size gfpFlags isSize).mpr (Or.inl rounds), ?_⟩
  intro layout heap s suffices_ reachable
  have sound := heap.sound_of_reachable (heap.separate suffices_) reachable
  rw [← sound.page_refused_iff _pagesOrder_one gfpFlags]
  refine ⟨fun honours => (honours_iff s.buddies size gfpFlags isSize).mp honours.honours,
    fun either => ?_⟩
  by_cases rounds : Rounds m size
  · rcases pages_of_rounds rounds with ⟨hasBytes, small⟩
    rcases _pagesOrder_spec small with ⟨order, isOrder, _, hasPages, _⟩
    rcases sound.getFreePages_cases isOrder gfpFlags with null |
      ⟨block, rfl, result, notNull, inHeap, apart, backed⟩
    · exact Or.inl null
    · have enough := Nat.le_trans hasBytes (Nat.mul_le_mul_right _ hasPages)
      exact Or.inr ⟨_, _, block, result, notNull, ⟨rfl, rfl, enough⟩, inHeap, apart, backed⟩
  · have refused := either.resolve_left rounds
    left
    rw [kmalloc, pages_of_not_rounds isSize rounds, getFreePages_zero]
    rcases sound.getFreePages_cases _pagesOrder_one gfpFlags with null |
      ⟨block, _, result, notNull, _⟩
    · exact null
    · rw [result] at refused
      exact absurd (Option.some.inj refused) notNull

/-- Eight pages, two of the first four in use, and a request for 5000 bytes. -/
theorem kmalloc_honours_size_fragmented :
    HonoursInHeap eightPagesPacked fragmented 5000 0 ↔
      Rounds Machine.beaglexm 5000 ∨
        ∀ page, page < eightPagesPacked.pages → ∃ held ∈ fragmented.blocks, held.Contains page :=
  (kmalloc_honours_size 5000 0 (by decide)).2 .packed eightPagesPacked fragmented
    (fun _ => by decide +kernel) fragmented_reachable

/-- The largest size is answered with one page. -/
theorem not_kmalloc_honours_size :
    ¬ ∀ (layout : Layout) (heap : TrackedHeap Machine.beaglexm layout)
        (s : HeapState Machine.beaglexm)
      (size gfpFlags : Nat), size < Machine.beaglexm.wordLimit → heap.Reachable s →
      Honours s.buddies size gfpFlags := by
  intro honours
  have honoured := honours .packed eightPagesPacked eightPagesPacked.boot 0xFFFFFFFF 0 (by decide)
    (Transition.Reachable.refl _)
  rcases (honours_iff _ 0xFFFFFFFF 0 (by decide)).mp honoured with rounds | null
  · exact absurd rounds (by decide)
  · exact absurd null (by decide +kernel)

end KmallocTiny
end ShovelOS
