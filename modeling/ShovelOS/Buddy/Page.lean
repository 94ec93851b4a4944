import ShovelOS.Buddy.Alloc

namespace ShovelOS
namespace BuddyAlloc

/-!
# The page allocator (`memory/page2.c`)

The functions of the page interface over the buddy bitmaps.  Pages have
numbers inside the file and addresses outside it.  `WORD_T_MAX` as a page
number and the null pointer as an address both say that no block was found.

The zeroing of fresh pages under `GFP_ZERO` writes the pages themselves and
no metadata, so the contents of pages are not part of the state, and the
flags are only handed through.
-/

variable {m : Machine}

/-- The loop of `_pages_order`.  It has no value once the shift would reach
the word width, which the language leaves undefined. -/
def pagesOrderFrom (m : Machine) (pages : Nat) : Nat → Nat → Option Nat
  | 0, _order => none
  | remaining + 1, order =>
      if (m.bit order).toNat < pages then pagesOrderFrom m pages remaining (order + 1)
      else some order

/-- `_pages_order`: the least order with at least the requested pages. -/
def _pagesOrder (m : Machine) (pages : Nat) : Option Nat :=
  pagesOrderFrom m pages m.wordTBits 0

/-- The state after a successful search: both walks and the counter. -/
def reserve (b : Buddies m) (order bit : Nat) : Buddies m :=
  let b := buddySetSaturated b order bit
  let b := buddySetDirty b order bit
  { b with totalPagesAllocated := (b.totalPagesAllocated + (m.bit order).toNat) % m.wordLimit }

/-- `_get_free_pages`: the first page number of the block, or `WORD_T_MAX`. -/
def _getFreePages (b : Buddies m) (pages _flags : Nat) : Option (Nat × Buddies m) :=
  (_pagesOrder m pages).map fun targetOrder =>
    let topOrder := b.saturated.orders - 1
    let topBits := buddyOrderBits b.saturated topOrder
    let searchResult := buddySearchUnsaturated b targetOrder topOrder 0 topBits
    if searchResult ≠ m.wordTMax then
      ((searchResult <<< targetOrder) % m.wordLimit, reserve b targetOrder searchResult)
    else (searchResult, b)

/-- The address of a page, as `get_free_pages` computes it. -/
def pageAddress (b : Buddies m) (pn : Nat) : Nat := (pn * m.pageSize + b.heapBase) % m.wordLimit

/-- `get_free_pages`: the address of the block, or zero. -/
def getFreePages (b : Buddies m) (pages flags : Nat) : Option (Nat × Buddies m) :=
  (_getFreePages b pages flags).map fun (pn, b) =>
    if pn = m.wordTMax then (0, b) else (pageAddress b pn, b)

/-- The loop of `_determine_allocated_page_order`. -/
def determineOrderFrom (b : Buddies m) (page : Nat) : Nat → Nat
  | 0 => 0
  | order + 1 =>
      if isClear b .dirty order (page >>> order) then order + 1
      else determineOrderFrom b page order

/-- `_determine_allocated_page_order`: probe the dirty bits on the left edge
from the top order down. -/
def _determineAllocatedPageOrder (b : Buddies m) (page : Nat) : Nat :=
  determineOrderFrom b page (b.dirty.orders - 1)

/-- The state after a block is given back: both walks and the counter. -/
def release (b : Buddies m) (order bit : Nat) : Buddies m :=
  let b := buddyClearSaturated b order bit
  let b := buddyClearDirty b order bit
  { b with totalPagesAllocated :=
      (b.totalPagesAllocated + m.wordLimit - (m.bit order).toNat) % m.wordLimit }

def _freePages2 (b : Buddies m) (page : Nat) : Buddies m :=
  if page ≠ m.wordTMax then
    let targetOrder := _determineAllocatedPageOrder b page
    release b targetOrder (page >>> targetOrder)
  else b

def freePages2 (b : Buddies m) (page : Nat) : Buddies m :=
  if page ≠ 0 then
    _freePages2 b ((page + m.wordLimit - b.heapBase) % m.wordLimit / m.pageSize)
  else b

/-- `free_pages` ignores the number of pages. -/
def freePages (b : Buddies m) (page _pages : Nat) : Buddies m := freePages2 b page

def getTotalPagesAllocated (b : Buddies m) : Nat := b.totalPagesAllocated

end BuddyAlloc
end ShovelOS
