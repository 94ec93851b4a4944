import ShovelOS.Buddy.Alloc
import ShovelOS.Stdlib.Atoi

namespace ShovelOS
namespace PageBuddy

open BuddyAlloc (WordPtr Layout)
open Stdlib (wrap32)

/-!
# The earlier page allocator (`memory/page.c`)

Thirteen bitmaps describe the heap, one for each order.  A set bit says that
some page of a block is in use.  An allocation marks the blocks of every order
that it touches, with numbers of blocks that are rounded up.  A free clears the
blocks that lie wholly in the freed pages, with numbers rounded down, and then
joins free twins in the group of 4096 pages around them.

The bitmaps lie behind `struct buddy` at the start of the heap, one after the
other.  `Layout.packed` is that arrangement, and `Layout.ownArrays` gives each
bitmap an array of its own.

An `int` is an integer here.  An index that is negative would lie in front of
the array, which C does not define.
-/

variable {m : Machine}

def nbOrders : Nat := 13

structure Order where
  bits : Nat
  p : WordPtr

/-- `struct buddy`, with the words that its pointers reach.  `accesses` records
which words of which order the functions that update the bitmaps have read or
written. -/
structure Buddy (m : Machine) where
  order : Nat → Order
  words : WordPtr → BitVec m.wordTBits
  accesses : List (Nat × Nat)

namespace Buddy

/-- `p->p + word`. -/
def wordAt (b : Buddy m) (order word : Nat) : WordPtr := (b.order order).p.add word

/-- `p->p[word]`. -/
def load (b : Buddy m) (order word : Nat) : BitVec m.wordTBits := b.words (b.wordAt order word)

/-- The word is read, for an update of a bitmap. -/
def visit (b : Buddy m) (order word : Nat) : Buddy m :=
  { b with accesses := (order, word) :: b.accesses }

/-- `p->p[word] = value`. -/
def store (b : Buddy m) (order word : Nat) (value : BitVec m.wordTBits) : Buddy m :=
  { b with
    words := Function.update b.words (b.wordAt order word) value
    accesses := (order, word) :: b.accesses }

def isSet (b : Buddy m) (order bit : Nat) : Bool :=
  (b.load order (bit / m.wordTBits)).getLsbD (bit % m.wordTBits)

end Buddy

def buddyOrder (nb : Nat) : Option Nat := (List.range nbOrders).find? fun i => decide (1 <<< i ≥ nb)

/-! ## Updates of the bitmaps -/

/-- `|= ((size_t)1 << shift)`. -/
def setShift (word : BitVec m.wordTBits) (shift : Nat) : BitVec m.wordTBits := word ||| m.bit shift

/-- `&= ~((size_t)1 << shift)`. -/
def clearShift (word : BitVec m.wordTBits) (shift : Nat) : BitVec m.wordTBits :=
  word &&& ~~~(m.bit shift)

/-- An assignment to bit `n` of the bitmap of an order. -/
def updateBit (update : BitVec m.wordTBits → Nat → BitVec m.wordTBits) (order n : Nat)
    (b : Buddy m) :
    Buddy m :=
  b.store order (n / m.wordTBits) (update (b.load order (n / m.wordTBits)) (n % m.wordTBits))

/-- `for(n=block;n<(block+bits);n++)`, by the number of turns. -/
def updateBits (update : BitVec m.wordTBits → Nat → BitVec m.wordTBits) (order : Nat) :
    Nat → Nat → Buddy m → Buddy m
  | 0, _n, b => b
  | turns + 1, n, b => updateBits update order turns (n + 1) (updateBit update order n b)

/-- The loop of `buddy_set_used` over the orders. -/
def setUsedOrders : Nat → Nat → Int → Int → Buddy m → Buddy m
  | 0, _order, _block, _bits, b => b
  | remaining + 1, order, block, bits, b =>
      if (b.order order).bits = 0 then b
      else setUsedOrders remaining (order + 1) (block.tdiv 2) ((bits + 1).tdiv 2)
        (updateBits setShift order bits.toNat block.toNat b)

def buddySetUsed (b : Buddy m) (block : Int) (nb : Nat) : Buddy m :=
  setUsedOrders nbOrders 0 block (wrap32 nb) b

/-- The test of a pair of bits, and the update of their parent. -/
def joinPair (order b0 : Nat) (b : Buddy m) : Buddy m :=
  let b := b.visit order (b0 / m.wordTBits)
  if b.load order (b0 / m.wordTBits) &&& (3#m.wordTBits <<< (b0 % m.wordTBits)) = 0#m.wordTBits then
    updateBit clearShift (order + 1) (b0 / 2) b
  else b

/-- `for(b0=first; b0<=last; b0+=2)`, by the number of turns. -/
def joinPairs (order : Nat) : Nat → Nat → Buddy m → Buddy m
  | 0, _b0, b => b
  | turns + 1, b0, b => joinPairs order turns (b0 + 2) (joinPair order b0 b)

/-- The loop of `buddy_join_free` over the orders. -/
def joinOrders : Nat → Nat → Int → Int → Buddy m → Buddy m
  | 0, _order, _first, _last, b => b
  | remaining + 1, order, first, last, b =>
      if (b.order (order + 1)).bits = 0 then b
      else joinOrders remaining (order + 1) (first.tdiv 2) (last.tdiv 2)
        (joinPairs order ((last + 2 - first) / 2).toNat first.toNat b)

def buddyJoinFree (b : Buddy m) (first last : Int) : Buddy m :=
  joinOrders (nbOrders - 1) 0 first last b

/-- The loop of `buddy_free` over the orders. -/
def freeOrders : Nat → Nat → Int → Int → Buddy m → Buddy m
  | 0, _order, _block, _bits, b => b
  | remaining + 1, order, block, bits, b =>
      if (b.order order).bits = 0 then b
      else
        let b := updateBits clearShift order bits.toNat block.toNat b
        if bits.tdiv 2 = 0 then b
        else freeOrders remaining (order + 1) (block.tdiv 2) (bits.tdiv 2) b

/-- `multiple`, the blocks of the largest order. -/
def multiple : Nat := 1 <<< (nbOrders - 1)

/-- `first` of `buddy_free`, an `unsigned int`. -/
def firstGroup (block : Int) : Nat := (block % 2 ^ 32).toNat / multiple

/-- `last` of `buddy_free`.  The sum is a `size_t`, the variable an `unsigned
int`. -/
def lastGroup (m : Machine) (block : Int) (nb : Nat) : Nat :=
  ((block + nb + (multiple - 1 : Nat)) % m.wordLimit).toNat / multiple % 2 ^ 32

/-- `_MIN(last * multiple -1, (buddy->orders.order[0].bits-1))`. -/
def joinLast (m : Machine) (bits last : Nat) : Nat :=
  min ((last * multiple + 2 ^ 32 - 1) % 2 ^ 32) ((bits + m.wordLimit - 1) % m.wordLimit)

def buddyFree (b : Buddy m) (_block : Int) (nb : Nat) : Buddy m :=
  let b := freeOrders nbOrders 0 _block (wrap32 nb) b
  buddyJoinFree b (wrap32 (firstGroup _block * multiple : Nat))
    (wrap32 (joinLast m (b.order 0).bits (lastGroup m _block nb)))

/-! ## The search -/

/-- `_FF_FREE`: some bit of the mask is clear. -/
def ffFree {w : Nat} (word p : BitVec w) : Bool := decide (word &&& p ≠ p)

def _fastForward32 {w : Nat} (word : BitVec w) : Nat :=
  if ffFree word 0x0000ffff#w then
    if ffFree word 0x000000ff#w then 0 else 8
  else if ffFree word 0x00ff0000#w then 16
  else 24

def _fastForward (m : Machine) (word : BitVec m.wordTBits) : Nat :=
  if m.wordTBits = 32 then _fastForward32 word
  else if ffFree word 0xffffffff#m.wordTBits then _fastForward32 word
  else 32 + _fastForward32 ((word >>> 16) >>> 16)

/-- The search in one word: the first clear bit from `b` on, by the number of
turns. -/
def searchWord (word : BitVec m.wordTBits) : Nat → Nat → Option Nat
  | 0, _b => none
  | turns + 1, b => if word &&& m.bit b = 0#m.wordTBits then some b else
      searchWord word turns (b + 1)

/-- `max`: the bits beyond the limit of the order are ignored.  The product is
an `unsigned int`. -/
def searchMax (m : Machine) (bits w : Nat) : Nat :=
  if (w + 1) * m.wordTBits % 2 ^ 32 > bits then bits &&& (m.wordTBits - 1) else m.wordTBits

/-- The loop of `buddy_alloc` over the words of an order.  It returns `w *
WORDBITS + b`, an `unsigned int`. -/
def searchWords (b : Buddy m) (order : Nat) : Nat → Nat → Option Nat
  | 0, _w => none
  | remaining + 1, w =>
      let word := b.load order w
      let max := searchMax m (b.order order).bits w
      let found := if ~~~word ≠ 0#m.wordTBits then
          searchWord word (max - _fastForward m word) (_fastForward m word)
        else none
      match found with
      | some bit => some ((w * m.wordTBits + bit) % 2 ^ 32)
      | none => searchWords b order remaining (w + 1)

/-- The number of words of a bitmap: `(bits + (WORDBITS-1)) / WORDBITS`. -/
def bitmapWords (m : Machine) (bits : Nat) : Nat := (bits + (m.wordTBits - 1)) / m.wordTBits

def buddyAlloc (b : Buddy m) (nb : Nat) : Int × Buddy m :=
  match buddyOrder nb with
  | none => (-1, b)
  | some order =>
      match searchWords b order (bitmapWords m (b.order order).bits) 0 with
      | some index =>
          let block := wrap32 (1 <<< order * index % m.wordLimit : Nat)
          (block, buddySetUsed b block nb)
      | none => (-1, b)

/-! ## Set-up -/

/-- The pointer stored in `order->p` when `free_base` is so many words behind
the start of the heap. -/
def place (layout : Layout) (order cur : Nat) : WordPtr :=
  match layout with
  | .packed => ⟨0, cur⟩
  | .ownArrays => ⟨order + 1, 0⟩

/-- `memset(order->p, 0, bmp_size)`, by the number of words. -/
def clearWords (p : WordPtr) (words : Nat) (memory : WordPtr → BitVec m.wordTBits) :
    WordPtr → BitVec m.wordTBits :=
  fun pointer =>
    if pointer.object = p.object ∧ p.offset ≤ pointer.offset ∧
        pointer.offset < p.offset + words then
      0#m.wordTBits
    else memory pointer

/-- The initialisation of one order, at a value of `free_base` in words. -/
def setUpOrder (layout : Layout) (pages order cur : Nat) (b : Buddy m) : Buddy m :=
  let bits := pages / (1 <<< order)
  let p := place layout order cur
  { b with
    order := Function.update b.order order ⟨bits, p⟩
    words := clearWords p (bitmapWords m bits) b.words }

/-- The loop of `_get_free_page_setup` over the orders.  It returns `free_base`
in words behind the start of the heap. -/
def setUpOrders (layout : Layout) (pages : Nat) : Nat → Nat → Nat → Buddy m → Nat × Buddy m
  | 0, _order, cur, b => (cur, b)
  | remaining + 1, order, cur, b =>
      setUpOrders layout pages remaining (order + 1) (cur + bitmapWords m (pages / (1 <<< order)))
        (setUpOrder layout pages order cur b)

/-- `sizeof(struct buddy)` in words: a count and a pointer for each order. -/
def buddyWords : Nat := 2 * nbOrders

/-- `pages_used`, at the value of `free_base` in words behind the start of the
heap. -/
def pagesUsed (m : Machine) (heapBase cur : Nat) : Nat :=
  let freeBase := (heapBase + cur * m.wordTBytes) % m.wordLimit
  ((freeBase + (m.pageSize - 1)) % m.wordLimit + m.wordLimit - heapBase) % m.wordLimit / m.pageSize

/-- `_get_free_page_setup`, over a memory with any contents. -/
def _getFreePageSetup (layout : Layout) (memory : WordPtr → BitVec m.wordTBits)
    (heapBase heapSize : Nat) :
    Buddy m :=
  let pages := heapSize / m.pageSize
  let (cur, b) := setUpOrders layout pages nbOrders 0 buddyWords ⟨fun _ => ⟨0, ⟨0, 0⟩⟩, memory, []⟩
  buddySetUsed b 0 (pagesUsed m heapBase cur)

end PageBuddy
end ShovelOS
