import ShovelOS.Machine
import ShovelOS.Library.HeapContract

namespace ShovelOS
namespace Fifo

open HeapContract

/-!
# The packet queue and its memory (`memory/fifo_packet_buffer.c`)

A queue of packets in a ring of buffers.  The base pointer reaches an array
of pointers, one for each packet, and a packet is written and read in place
by whoever has locked the queue.

`kmalloc` and `kfree` are parameters, with any state of their own.  A request
is a size and flags.  The flag `GFP_ZERO` clears the memory, and a null
pointer to a packet is a cleared one.
-/

def fifoPacketSuccess : Int := 0

def fifoPacketFailure : Int := -1

def locked : UInt8 := 1

def gfpKernel : Nat := 2

def gfpZero : Nat := 4

/-- `struct packet_fifo`, with the array that `bp` reaches. -/
structure PacketFifo where
  bp : Nat
  array : Nat → Nat
  flags : UInt8
  ri : UInt16
  wi : UInt16
  sz : UInt16
  rsz : UInt16
  wsz : UInt16
  plen : UInt16

/-- `kmalloc` and `kfree`, by size and flags. -/
abbrev Kmalloc (σ : Type*) : Type _ := Heap σ (Nat × Nat)

variable {σ : Type*} (m : Machine) (heap : Kmalloc σ)

/-! ## Creating and destroying -/

/-- The loop of `packet_fifo_create` over the packets from `i` on, for so
many turns.  It stops at the first packet that is refused. -/
def createPackets (packetSize : Nat) : (turns i : Nat) → PacketFifo → σ → Bool × PacketFifo × σ
  | 0, _i, buffer, state => (true, buffer, state)
  | turns + 1, i, buffer, state =>
      let (packet, state) := heap.malloc state (packetSize, gfpKernel)
      let buffer := { buffer with array := Function.update buffer.array i packet }
      if packet = 0 then (false, buffer, state)
      else createPackets packetSize turns (i + 1) buffer state

/-- The pointers that a loop over so many packets frees, and the array. -/
def packetPointers (buffer : PacketFifo) (packets : Nat) : List Nat :=
  (List.range packets).map buffer.array ++ [buffer.bp]

/-- `packet_fifo_create`: the result, the buffer, the allocator, and the
pointers that have been passed to `kfree`. -/
def packetFifoCreate (buffer : PacketFifo) (packetSize packets : Nat) (state : σ) :
    Int × PacketFifo × σ × List Nat :=
  let (bp, state) := heap.malloc state (packets * m.wordTBytes % m.wordLimit, gfpKernel ||| gfpZero)
  if bp = 0 then (fifoPacketFailure, { buffer with bp := bp }, state, [])
  else
    let buffer := { buffer with bp := bp, array := fun _i => 0 }
    let (complete, buffer, state) := createPackets heap packetSize packets 0 buffer state
    if complete then
      let sz := UInt16.ofNat packets
      (fifoPacketSuccess,
        { buffer with
          flags := 0
          plen := UInt16.ofNat packetSize
          ri := 0
          wi := 0
          sz := sz
          rsz := 0
          wsz := sz },
        state, [])
    else
      let pointers := packetPointers buffer packets
      (fifoPacketFailure, buffer, heap.freeAll state pointers, pointers)

/-- `packet_fifo_destroy`, with the pointers that it passes to `kfree`. -/
def packetFifoDestroy (buffer : PacketFifo) (state : σ) : σ × List Nat :=
  if buffer.bp ≠ 0 then
    let pointers := packetPointers buffer buffer.sz.toNat
    (heap.freeAll state pointers, pointers)
  else (state, [])

variable {m heap}

/-- A step of the loop obtains a packet, or is refused and changes nothing. -/
theorem createPackets_row (lawful : heap.Lawful) {before : Set Nat} {packets : Nat}
    (packetSize : Nat)
    {turns i : Nat} (within : i + turns ≤ packets) (buffer : PacketFifo) {state : σ}
    (isRow : Row before (heap.live state) buffer.array packets)
    (isNull : ∀ j, i ≤ j → buffer.array j = 0) :
    Row before (heap.live (createPackets heap packetSize turns i buffer state).2.2)
        (createPackets heap packetSize turns i buffer state).2.1.array packets ∧
      (createPackets heap packetSize turns i buffer state).2.1.bp = buffer.bp := by
  induction turns generalizing i buffer state with
  | zero => exact ⟨isRow, rfl⟩
  | succ turns inductionHypothesis =>
      have refused := lawful.refused state (packetSize, gfpKernel)
      have granted := lawful.granted state (packetSize, gfpKernel)
      unfold createPackets
      generalize heap.malloc state (packetSize, gfpKernel) = result at refused granted ⊢
      rcases result with ⟨packet, state'⟩
      dsimp only at refused granted ⊢
      by_cases isRefused : packet = 0
      · rw [if_pos isRefused]
        refine ⟨?_, rfl⟩
        dsimp only
        rw [refused isRefused, isRefused, ← isNull i (Nat.le_refl i), Function.update_eq_self]
        exact isRow
      · rw [if_neg isRefused]
        rcases granted isRefused with ⟨isNew, live⟩
        apply inductionHypothesis (by omega)
        · rw [live]
          exact isRow.obtain (by omega) (isNull i (Nat.le_refl i)) isRefused isNew
        · intro j above
          change Function.update buffer.array i packet j = 0
          rw [Function.update_of_ne (by omega)]
          exact isNull j (by omega)

/-- Freeing the packets and the array restores what was live before. -/
theorem live_packetPointers (lawful : heap.Lawful) {before : Set Nat} {buffer : PacketFifo}
    {packets : Nat} {state : σ} (notNull : buffer.bp ≠ 0) (isNew : buffer.bp ∉ before)
    (isRow : Row (insert buffer.bp before) (heap.live state) buffer.array packets) :
    heap.live (heap.freeAll state (packetPointers buffer packets)) = before ∧
      Once (packetPointers buffer packets) :=
  ⟨isRow.live_freeAll lawful notNull isNew, isRow.once⟩

/-- `packet_fifo_create` either fails and has given back all that it has
obtained, or succeeds, and `packet_fifo_destroy` gives back all of it
whatever the queue was used for.  No pointer is passed to `kfree` twice. -/
theorem packet_fifo_create_destroy_restores (lawful : heap.Lawful) (buffer : PacketFifo)
    (packetSize : Nat) {packets : Nat} (fits : packets ≤ 65535) (state : σ) :
    ∀ ret created after pointers,
      packetFifoCreate m heap buffer packetSize packets state = (ret, created, after, pointers) →
      (ret = fifoPacketFailure ∧ heap.live after = heap.live state ∧ Once pointers) ∨
      (ret = fifoPacketSuccess ∧ pointers = [] ∧
        ∀ used later, used.bp = created.bp → used.array = created.array → used.sz = created.sz →
          heap.live later = heap.live after →
          heap.live (packetFifoDestroy heap used later).1 = heap.live state ∧
            Once (packetFifoDestroy heap used later).2) := by
  have refused := lawful.refused state (packets * m.wordTBytes % m.wordLimit, gfpKernel ||| gfpZero)
  have granted := lawful.granted state (packets * m.wordTBytes % m.wordLimit, gfpKernel ||| gfpZero)
  intro ret created after pointers result
  unfold packetFifoCreate at result
  generalize heap.malloc state (packets * m.wordTBytes % m.wordLimit, gfpKernel ||| gfpZero) = first
    at refused granted result
  rcases first with ⟨bp, state₁⟩
  dsimp only at refused granted result
  by_cases isNull : bp = 0
  · rw [if_pos isNull] at result
    cases result
    exact Or.inl ⟨rfl, refused isNull, Once.nil⟩
  · rw [if_neg isNull] at result
    rcases granted isNull with ⟨isNew, live⟩
    have start : Row (insert bp (heap.live state)) (heap.live state₁) (fun _i => 0) packets := by
      rw [live]
      exact Row.null _ packets
    rcases createPackets_row lawful packetSize (Nat.zero_add packets).le
      { buffer with bp := bp, array := fun _i => 0 } start (fun _j _above => rfl) with
        ⟨isRow, sameBase⟩
    generalize createPackets heap packetSize packets 0
      { buffer with bp := bp, array := fun _i => 0 } state₁ =
      loop at isRow sameBase result
    rcases loop with ⟨complete, filled, state₂⟩
    dsimp only at isRow sameBase result
    rw [← sameBase] at isNull isNew isRow
    cases complete with
    | false =>
        cases result
        exact Or.inl ⟨rfl, live_packetPointers lawful isNull isNew isRow⟩
    | true =>
        cases result
        refine Or.inr ⟨rfl, rfl, fun used later usedBase usedArray usedSize sameLive => ?_⟩
        have size : used.sz.toNat = packets := by
          rw [usedSize]
          exact Nat.mod_eq_of_lt (Nat.lt_succ_of_le fits)
        unfold packetFifoDestroy
        rw [size, usedBase, if_pos isNull]
        rw [← sameLive, ← usedArray] at isRow
        rw [← usedBase] at isRow isNull isNew
        exact live_packetPointers lawful isNull isNew isRow

/-- An allocator of two chunks of 64 bytes. -/
def twoChunks : Kmalloc (List Nat) where
  malloc := fun chunks _request =>
    if 4096 ∉ chunks then (4096, 4096 :: chunks)
    else if 4160 ∉ chunks then (4160, 4160 :: chunks)
    else (0, chunks)
  free := fun chunks pointer => if pointer = 0 then chunks else chunks.filter (· ≠ pointer)
  live := fun chunks => {pointer | pointer ∈ chunks ∧ pointer ≠ 0}

theorem twoChunks_lawful : twoChunks.Lawful where
  refused := by
    intro chunks request isNull
    unfold twoChunks at isNull ⊢
    dsimp only at isNull ⊢
    split at isNull
    · cases isNull
    · rename_i first
      split at isNull
      · cases isNull
      · rename_i second
        rw [if_neg first, if_neg second]
  granted := by
    intro chunks request notNull
    have added : ∀ pointer : Nat, pointer ≠ 0 → twoChunks.live (pointer :: chunks) =
        insert pointer (twoChunks.live chunks) := by
      intro pointer pointerNotNull
      ext other
      change other ∈ pointer :: chunks ∧ other ≠ 0 ↔ other = pointer ∨ other ∈ chunks ∧ other ≠ 0
      rw [List.mem_cons]
      grind
    unfold twoChunks at notNull
    dsimp only at notNull
    by_cases first : 4096 ∉ chunks
    · rw [show twoChunks.malloc chunks request = (4096, 4096 :: chunks) from if_pos first]
      exact ⟨fun isLive => first isLive.1, added 4096 (by decide)⟩
    · rw [if_neg first] at notNull
      by_cases second : 4160 ∉ chunks
      · rw [show twoChunks.malloc chunks request = (4160, 4160 :: chunks) from
          (if_neg first).trans (if_pos second)]
        exact ⟨fun isLive => second isLive.1, added 4160 (by decide)⟩
      · rw [if_neg second] at notNull
        exact absurd rfl notNull
  free_null := fun _chunks => rfl
  free_live := by
    intro chunks pointer isLive
    ext other
    rw [show twoChunks.free chunks pointer = chunks.filter (· ≠ pointer) from if_neg isLive.2]
    change other ∈ chunks.filter (· ≠ pointer) ∧ other ≠ 0 ↔ (other ∈ chunks ∧ other ≠ 0) ∧
      other ≠ pointer
    rw [List.mem_filter, decide_eq_true_eq]
    tauto

/-- The second of two packets is refused, and the array and the first are
given back. -/
theorem packet_fifo_create_destroy_restores_refused :
    (packetFifoCreate Machine.beaglexm twoChunks ⟨0, fun _i => 0, 0, 0, 0, 0, 0, 0, 0⟩ 64 2
      [32]).2.2.2 =
        [4160, 0, 4096] ∧
      twoChunks.live (packetFifoCreate Machine.beaglexm twoChunks
        ⟨0, fun _i => 0, 0, 0, 0, 0, 0, 0, 0⟩ 64 2 [32]).2.2.1 = twoChunks.live [32] := by
  refine ⟨by decide, ?_⟩
  rcases packet_fifo_create_destroy_restores (m := Machine.beaglexm) twoChunks_lawful
    ⟨0, fun _i => 0, 0, 0, 0, 0, 0, 0, 0⟩ 64 (show 2 ≤ 65535 by decide) [32] _ _ _ _ rfl with
    ⟨_, restored, _⟩ | ⟨success, _⟩
  · exact restored
  · exact absurd success (by decide)

end Fifo
end ShovelOS
