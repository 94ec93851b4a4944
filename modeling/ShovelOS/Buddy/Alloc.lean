import ShovelOS.Machine
import ShovelOS.Library.WordBits

namespace ShovelOS
namespace BuddyAlloc

open WordBits

/-!
# The buddy bitmaps (`lib/alloc/buddy_alloc.c`)

The allocator tracks the heap with two hierarchies of bitmaps.  For every
order, one bit per block says that the block is dirty, and another that it
is saturated.  Each update walks from the block towards the top order, with
a stopping rule of its own, and the search descends from the top order
through blocks that are not saturated.

The bitmaps are words of a metadata memory that is reached through the
pointers of `data`.  The source reserves one range after the other for them
in a single allocation.  `Layout.packed` is that arrangement, and
`Layout.ownArrays` gives each bitmap an object of its own, which is the
reading under which the bit operations of different orders never meet.
Everything else, the heap base included, is computed in the same way for
both.
-/

/-- A word pointer: the object it points into and the word offset. -/
structure WordPtr where
  object : Nat
  offset : Nat
  deriving DecidableEq

def WordPtr.add (pointer : WordPtr) (words : Nat) : WordPtr :=
  ⟨pointer.object, pointer.offset + words⟩

/-- The two members of `struct buddies` that hold bitmaps. -/
inductive Hierarchy where
  | dirty
  | saturated
  deriving DecidableEq

/-- `struct buddy`.  The source's `data` is a pointer to a table of
pointers: `table` is its value and `data` the table's entries. -/
structure Buddy where
  table : WordPtr
  data : Nat → WordPtr
  order0Bits : Nat
  orders : Nat

/-- `struct buddies`, with the words that its pointers reach. -/
structure Buddies (m : Machine) where
  dirty : Buddy
  saturated : Buddy
  totalPagesAllocated : Nat
  heapBase : Nat
  words : WordPtr → BitVec m.wordTBits

/-- Where the bitmaps of a hierarchy are placed. -/
inductive Layout where
  | packed
  | ownArrays
  deriving DecidableEq

/-- The pointer stored in `data[order]` when the source's cursor is `cur`. -/
def Layout.place (layout : Layout) (hierarchy : Hierarchy) (order cur : Nat) : WordPtr :=
  match layout, hierarchy with
  | packed, _ => ⟨0, cur⟩
  | ownArrays, .dirty => ⟨2 * order + 1, 0⟩
  | ownArrays, .saturated => ⟨2 * order + 2, 0⟩

variable {m : Machine}

namespace Buddies

/-- `_buddies` before set-up: a zero-initialised global. -/
def zero (m : Machine) : Buddies m where
  dirty := ⟨⟨0, 0⟩, fun _ => ⟨0, 0⟩, 0, 0⟩
  saturated := ⟨⟨0, 0⟩, fun _ => ⟨0, 0⟩, 0, 0⟩
  totalPagesAllocated := 0
  heapBase := 0
  words := fun _ => 0#m.wordTBits

def buddy (b : Buddies m) : Hierarchy → Buddy
  | .dirty => b.dirty
  | .saturated => b.saturated

def wordAt (b : Buddies m) (hierarchy : Hierarchy) (order word : Nat) : WordPtr :=
  ((b.buddy hierarchy).data order).add word

def load (b : Buddies m) (hierarchy : Hierarchy) (order word : Nat) : BitVec m.wordTBits :=
  b.words (b.wordAt hierarchy order word)

def store (b : Buddies m) (hierarchy : Hierarchy) (order word : Nat)
    (value : BitVec m.wordTBits) : Buddies m :=
  { b with words := fun pointer =>
      if pointer = b.wordAt hierarchy order word then value else b.words pointer }

/-- The value of the bit with the given index in `data[order]`. -/
def isSet (b : Buddies m) (hierarchy : Hierarchy) (order bit : Nat) : Bool :=
  (b.load hierarchy order (bit / m.wordTBits)).getLsbD (bit % m.wordTBits)

def setData (b : Buddies m) (hierarchy : Hierarchy) (order : Nat) (pointer : WordPtr) : Buddies m :=
  match hierarchy with
  | .dirty => { b with dirty := { b.dirty with
      data := fun k => if k = order then pointer else b.dirty.data k } }
  | .saturated => { b with saturated := { b.saturated with
      data := fun k => if k = order then pointer else b.saturated.data k } }

def setTable (b : Buddies m) (hierarchy : Hierarchy) (pointer : WordPtr) : Buddies m :=
  match hierarchy with
  | .dirty => { b with dirty := { b.dirty with table := pointer } }
  | .saturated => { b with saturated := { b.saturated with table := pointer } }

end Buddies

/-! ## Sizes -/

/-- `_determine_buddy_order_ptr_size`, in bytes. -/
def _determineBuddyOrderPtrSize (m : Machine) (b : Buddy) : Nat :=
  b.orders * m.wordTBytes

/-- `_determine_buddy_order_size`, in bytes. -/
def _determineBuddyOrderSize (m : Machine) (b : Buddy) (order : Nat) : Nat :=
  m.alignU (b.order0Bits >>> order) m.wordTBits / 8

def buddyOrderBits (b : Buddy) (order : Nat) : Nat :=
  (b.order0Bits >>> order) + (if b.order0Bits % (1 <<< order) ≠ 0 then 1 else 0)

/-- `_determine_buddy_data_size`, in bytes. -/
def _determineBuddyDataSize (m : Machine) (b : Buddy) : Nat :=
  (List.range b.orders).foldl (fun bytes order => bytes + _determineBuddyOrderSize m b order)
    (_determineBuddyOrderPtrSize m b)

/-- The loop of `_configure_geometry`: the largest number of orders, not
above the start value, whose top order still has a whole block. -/
def findOrders (pages : Nat) : Nat → Nat
  | 0 => 0
  | orders + 1 => if pages >>> orders > 0 then orders + 1 else findOrders pages orders

/-- `_configure_geometry`.  The page counts are always written, the numbers
of orders only on success. -/
def _configureGeometry (b : Buddies m) (heapLength : Nat) : Int × Buddies m :=
  let pages := heapLength / m.pageSize
  let counted := { b with
    dirty := { b.dirty with order0Bits := pages }
    saturated := { b.saturated with order0Bits := pages } }
  let orders := findOrders pages 31
  if orders = 0 then (-1, counted)
  else (0, { counted with
    dirty := { counted.dirty with orders := orders }
    saturated := { counted.saturated with orders := orders } })

/-! ## Set-up -/

/-- Mark the block at the end of an order that the heap covers only in
part. -/
def markPartlyBacked (b : Buddies m) (order : Nat) : Buddies m :=
  if b.dirty.order0Bits % (1 <<< order) ≠ 0 then
    let bit := b.dirty.order0Bits >>> order
    let shift := bit % m.wordTBits
    let word := bit / m.wordTBits
    b.store .dirty order word (b.load .dirty order word ||| m.bit shift)
  else b

/-- One of the two loops of `buddy_alloc_data` over the orders: store the
pointer, advance the cursor over the reserved words, then treat the order. -/
def layOutOrders (layout : Layout) (hierarchy : Hierarchy)
    (treat : Buddies m → Nat → Buddies m) :
    Nat → Nat → Nat → Buddies m → Nat × Buddies m
  | 0, _order, cur, b => (cur, b)
  | remaining + 1, order, cur, b =>
      let b := b.setData hierarchy order (layout.place hierarchy order cur)
      let cur := cur + _determineBuddyOrderSize m (b.buddy hierarchy) order / m.wordTBytes
      layOutOrders layout hierarchy treat remaining (order + 1) cur (treat b order)

/-- The pointer table and the bitmaps of one hierarchy. -/
def layOutHierarchy (layout : Layout) (hierarchy : Hierarchy)
    (treat : Buddies m → Nat → Buddies m) (cur : Nat) (b : Buddies m) : Nat × Buddies m :=
  let b := b.setTable hierarchy ⟨0, cur⟩
  layOutOrders layout hierarchy treat (b.buddy hierarchy).orders 0
    (cur + (b.buddy hierarchy).orders) b

/-- The block under `if(base)` in `buddy_alloc_data`.  The cursor counts
words, so that the pointer table of a hierarchy takes one word per order. -/
def layOutData (layout : Layout) (b : Buddies m) (base : Nat) : Nat × Buddies m :=
  let (cur, b) := layOutHierarchy layout .dirty markPartlyBacked (base / m.wordTBytes) b
  let (cur, b) := layOutHierarchy layout .saturated (fun b _order => b) cur b
  (cur, { b with heapBase := m.alignU (cur * m.wordTBytes) m.pageSize })

/-- The metadata size that `buddy_alloc_data` computes for a geometry. -/
def totalDataSz (b : Buddies m) : Nat :=
  _determineBuddyDataSize m b.dirty + _determineBuddyDataSize m b.saturated

/-- `buddy_alloc_data`.  The result is empty when `_BUG_ON` stops the
machine because the metadata would fill the heap.  The metadata words are
those that `_buddy_data_alloc` has just zeroed. -/
def buddyAllocData (layout : Layout) (b : Buddies m) (heapLength : Nat)
    (allocFunc : Nat → Nat → Nat) (flags : Nat) : Option (Int × Buddies m) :=
  let b := (_configureGeometry b heapLength).2
  let total := totalDataSz b
  let base := allocFunc (m.alignU total m.pageSize / m.pageSize) flags
  let b := { b with words := fun _ => 0#m.wordTBits }
  if total ≥ heapLength then none
  else
    let b := (_configureGeometry b (heapLength - total)).2
    if base ≠ 0 then
      let (cur, b) := layOutData layout b base
      some (if cur * m.wordTBytes = base + total then 0 else -1, b)
    else some (-1, b)

/-! ## The four walks towards the top order -/

/-- `for(;order<nb_orders; order++, bit >>= 1)`: rewrite the word of the
bit, and go on to the parent while the new word says so. -/
def walkUp (hierarchy : Hierarchy)
    (update : BitVec m.wordTBits → Nat → BitVec m.wordTBits)
    (goesOn : BitVec m.wordTBits → Nat → Bool) :
    Nat → Nat → Nat → Buddies m → Buddies m
  | 0, _order, _bit, b => b
  | remaining + 1, order, bit, b =>
      let shift := bit % m.wordTBits
      let word := bit / m.wordTBits
      let data := update (b.load hierarchy order word) shift
      let b := b.store hierarchy order word data
      if goesOn data shift then
        walkUp hierarchy update goesOn remaining (order + 1) (bit >>> 1) b
      else b

def _twinMaskFromShift (m : Machine) (shift : Nat) : BitVec m.wordTBits :=
  m.bit (shift ||| 1) ||| m.bit ((shift ||| 1) - 1)

/-- `buddy_set_dirty`: every order up to the top becomes dirty. -/
def buddySetDirty (b : Buddies m) (order bit : Nat) : Buddies m :=
  walkUp .dirty (fun data shift => data ||| m.bit shift) (fun _data _shift => true)
    (b.dirty.orders - order) order bit b

/-- `buddy_clear_dirty`: stop when the twin is dirty. -/
def buddyClearDirty (b : Buddies m) (order bit : Nat) : Buddies m :=
  walkUp .dirty (fun data shift => data &&& ~~~(m.bit shift))
    (fun data shift => data &&& _twinMaskFromShift m shift = 0#m.wordTBits)
    (b.dirty.orders - order) order bit b

/-- `buddy_set_saturated`: stop when the twin is not saturated. -/
def buddySetSaturated (b : Buddies m) (order bit : Nat) : Buddies m :=
  walkUp .saturated (fun data shift => data ||| m.bit shift)
    (fun data shift => data &&& _twinMaskFromShift m shift = _twinMaskFromShift m shift)
    (b.saturated.orders - order) order bit b

/-- `buddy_clear_saturated`: no order up to the top stays saturated. -/
def buddyClearSaturated (b : Buddies m) (order bit : Nat) : Buddies m :=
  walkUp .saturated (fun data shift => data &&& ~~~(m.bit shift)) (fun _data _shift => true)
    (b.saturated.orders - order) order bit b

/-! ## The search -/

/-- `for(bit = begin; bit < begin + count; bit++)` around a body that may
return. -/
def forBits (body : Nat → Option Nat) : Nat → Nat → Option Nat
  | 0, _bit => none
  | count + 1, bit =>
      match body bit with
      | some result => some result
      | none => forBits body count (bit + 1)

/-- `!(data[order][word] & BIT(shift))` for the word and shift of a bit. -/
def isClear (b : Buddies m) (hierarchy : Hierarchy) (order bit : Nat) : Bool :=
  b.load hierarchy order (bit / m.wordTBits) &&& m.bit (bit % m.wordTBits) = 0#m.wordTBits

/-- `buddy_search_unsaturated`, by recursion on the search order.  The
descent returns the result of the first block that is not saturated, whether
or not a block was found there. -/
def buddySearchUnsaturated (b : Buddies m) (targetOrder : Nat) : Nat → Nat → Nat → Nat
  | 0, orderBitBegin, orderBitEnd =>
      (forBits (fun bit =>
        if isClear b .saturated 0 bit then
          if 0 = targetOrder then
            if isClear b .dirty targetOrder bit then some bit else none
          else none
        else none) (orderBitEnd - orderBitBegin) orderBitBegin).getD m.wordTMax
  | nextSearchOrder + 1, orderBitBegin, orderBitEnd =>
      (forBits (fun bit =>
        if isClear b .saturated (nextSearchOrder + 1) bit then
          if nextSearchOrder + 1 > targetOrder then
            let maxBits := buddyOrderBits b.saturated nextSearchOrder
            let searchBegin := bit <<< 1
            let searchEnd := if searchBegin + 2 > maxBits then maxBits else searchBegin + 2
            some (buddySearchUnsaturated b targetOrder nextSearchOrder searchBegin searchEnd)
          else if nextSearchOrder + 1 = targetOrder then
            if isClear b .dirty targetOrder bit then some bit else none
          else none
        else none) (orderBitEnd - orderBitBegin) orderBitBegin).getD m.wordTMax

end BuddyAlloc
end ShovelOS
