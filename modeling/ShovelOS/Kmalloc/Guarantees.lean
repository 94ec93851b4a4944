import ShovelOS.Kmalloc.Calls

namespace ShovelOS
namespace Kmalloc

open SlabCache LinkedList Bitmap

/-!
# Runs of kmalloc and kfree

After a successful `mem_cache_setup` the pools are driven by calls.  Each call of
`kmalloc` comes with the answers that the page allocator gives during it, and
sizes, flags and addresses are arbitrary.  The state keeps the pages that the
pools have obtained for slabs and the chunks that callers hold.
-/

variable {m : Machine}

structure HeapState (m : Machine) where
  heap : Heap m
  obtained : Pool → List Nat
  live : Pool → List Nat

/-- The calls, with the page allocator that a call meets. -/
inductive Call (m : Machine) where
  | kmalloc (allocator : PageAllocator m) (size : BitVec m.wordTBits) (gfpFlags : BitVec 32)
  | kfree (mem : BitVec m.wordTBits)

def step (s : HeapState m) : Call m → Option (HeapState m)
  | .kmalloc allocator size gfpFlags => do
      let result ← Kmalloc.kmalloc allocator s.heap size.toNat gfpFlags
      match poolFor size.toNat gfpFlags with
      | none => return { s with heap := result.heap }
      | some pool =>
          return ⟨result.heap, Function.update s.obtained pool (result.obtained ++ s.obtained pool),
            Function.update s.live pool
              (if result.address = 0 then s.live pool else result.address :: s.live pool)⟩
  | .kfree mem => do
      let result ← Kmalloc.kfree s.heap mem.toNat
      return ⟨result.heap, s.obtained,
        if result.err = 0 then fun pool => (s.live pool).erase mem.toNat else s.live⟩

/-- The pools after `mem_cache_setup`, which meets a page allocator too. -/
def boot (allocator : PageAllocator m) (world : World m) : HeapState m :=
  ⟨⟨(memCacheSetup allocator ⟨0, 0, 0⟩ world).2.1, fun _pool => none,
      (memCacheSetup allocator ⟨0, 0, 0⟩ world).2.2⟩,
    fun _pool => [], fun _pool => []⟩

/-- After a successful `mem_cache_setup` no pool is open. -/
theorem sound_boot {allocator : PageAllocator m} {world : World m}
    (success : (memCacheSetup allocator ⟨0, 0, 0⟩ world).1 = 0) :
    Sound (boot allocator world).heap (boot allocator world).obtained
      (boot allocator world).live := by
  unfold memCacheSetup at success
  unfold boot memCacheSetup
  rcases getFreePages_cases allocator world 1 gfpKernel with
    ⟨_, refused⟩ | ⟨address, after, answered, granted⟩
  · dsimp only at success
    rw [refused, if_pos rfl] at success
    cases success
  · dsimp only
    rw [answered, if_neg granted.notNull]
    refine ⟨granted.notNull, ?_, fun _pool => Sound.not_uses_nil,
      fun _pool _other _different _region uses => absurd uses Sound.not_uses_nil,
      fun _pool _closed => ⟨rfl, rfl⟩, fun _pool _cache isOpen => ?_, fun _pool _cache isOpen => ?_⟩
    · dsimp only
      rw [granted.held]
      exact List.mem_cons_self
    · cases isOpen
    · cases isOpen

theorem Sound.step (isPageSize : m.pageSize = 4096) {s : HeapState m}
    (sound : Sound s.heap s.obtained s.live) (call : Call m) :
    ∃ next, Kmalloc.step s call = some next ∧ Sound next.heap next.obtained next.live := by
  cases call with
  | kmalloc allocator size gfpFlags =>
      rcases kmalloc_spec isPageSize sound allocator size.toNat gfpFlags with
        ⟨result, returned, ⟨noPool, _isNull, same⟩ | ⟨pool, chosen, after⟩⟩
      · refine ⟨{ s with heap := result.heap }, ?_, ?_⟩
        · simp only [Kmalloc.step, returned, noPool, Option.bind_eq_bind, Option.bind_some]
          rfl
        · rw [same]
          exact sound
      · refine ⟨⟨result.heap, _, _⟩, ?_, after⟩
        simp only [Kmalloc.step, returned, chosen, Option.bind_eq_bind, Option.bind_some]
        rfl
  | kfree mem =>
      rcases kfree_spec sound mem.toNat with ⟨result, returned, outcome⟩
      have stepped : Kmalloc.step s (.kfree mem) = some ⟨result.heap, s.obtained,
          if result.err = 0 then fun pool => (s.live pool).erase mem.toNat else s.live⟩ := by
        simp only [Kmalloc.step, returned, Option.bind_eq_bind, Option.bind_some]
        rfl
      refine ⟨_, stepped, ?_⟩
      rcases outcome with ⟨rfl, _notNull, _inLast⟩ | ⟨isAccepted, after, _isLive⟩
      · exact sound
      · dsimp only
        rw [if_pos isAccepted]
        exact after

/-! ## What callers rely on -/

/-- A chunk of a pool is allocated when its bit is set. -/
def IsAllocated (heap : Heap m) (obtained : Pool → List Nat) (pool : Pool) (mem : Nat) : Prop :=
  ∃ slab index, IsSlab m (obtained pool) slab ∧
    isSet (heap.world.slab slab).bitmap index = true ∧
    mem = (heap.world.slab slab).page + index * (_pools pool).chunkSize

/-- The live chunks are those whose bits are set. -/
theorem Sound.mem_live_iff {heap : Heap m} {obtained live : Pool → List Nat}
    (sound : Sound heap obtained live) (pool : Pool) (mem : Nat) :
    mem ∈ live pool ↔ IsAllocated heap obtained pool mem := by
  unfold IsAllocated
  cases isOpen : heap.poolsMemCache pool with
  | none =>
      rcases sound.closed pool isOpen with ⟨noPages, noChunks⟩
      rw [noPages, noChunks]
      refine iff_of_false (List.not_mem_nil) ?_
      rintro ⟨slab, index, ⟨base, isMember, _onPage⟩, _set, _address⟩
      cases isMember
  | some cache =>
      rcases sound.invariant pool cache isOpen with ⟨nodes, invariant⟩
      rw [invariant.records.mem_iff, (sound.ofPool pool cache isOpen).chunkSz]

/-- The block that `kmalloc` returns: at least `size` bytes of a region that is
held, apart from all live chunks of all pools. -/
def GivesBlock (live : Pool → List Nat) (size : Nat) (result : KmallocResult m) : Prop :=
  ∃ bytes region, size ≤ bytes ∧ region ∈ result.heap.world.held.regions ∧
    region.address ≤ result.address ∧
    result.address + bytes ≤ region.address + region.pages * m.pageSize ∧
    result.address + bytes ≤ m.wordLimit ∧
    ∀ pool, ∀ other ∈ live pool,
      result.address + bytes ≤ other ∨ other + (_pools pool).chunkSize ≤ result.address

/-- What `kfree` promises: it accepts null and the live chunks, and gives back
only the chunk at the address; otherwise it returns -1 and changes nothing. -/
structure FreesLive (s : HeapState m) (mem : Nat) (result : KfreeResult m) : Prop where
  accepts_iff : result.err = 0 ↔ mem = 0 ∨ ∃ pool, mem ∈ s.live pool
  removes : result.err = 0 → ∀ pool other,
    IsAllocated result.heap s.obtained pool other ↔ other ∈ s.live pool ∧ other ≠ mem
  rejects : result.err ≠ 0 → result.err = -1 ∧ result.heap = s.heap

theorem givesBlock_of_sound (isPageSize : m.pageSize = 4096) {s : HeapState m}
    (sound : Sound s.heap s.obtained s.live) (allocator : PageAllocator m) (size : Nat)
    (gfpFlags : BitVec 32) :
    ∃ result, Kmalloc.kmalloc allocator s.heap size gfpFlags = some result ∧
      (result.address ≠ 0 → GivesBlock s.live size result) := by
  rcases kmalloc_spec isPageSize sound allocator size gfpFlags with
    ⟨result, returned, ⟨_noPool, isNull, _same⟩ | ⟨pool, chosen, after⟩⟩
  · exact ⟨result, returned, fun notNull => absurd isNull notNull⟩
  · refine ⟨result, returned, fun notNull => ?_⟩
    rw [if_neg notNull] at after
    have isNew : result.address ∈
        Function.update s.live pool (result.address :: s.live pool) pool := by
      rw [Function.update_self]
      exact List.mem_cons_self
    rcases after.live_region isNew with ⟨address, uses, _notNull, _aligned, inside, lower, upper⟩
    refine ⟨(_pools pool).chunkSize, ⟨address, 1⟩, le_of_poolFor chosen,
      after.uses_held uses, lower,
      ?_, Nat.le_trans upper inside, ?_⟩
    · rw [Nat.one_mul]
      exact upper
    · intro second other isLive
      have stillLive :
          other ∈ Function.update s.live pool (result.address :: s.live pool) second := by
        by_cases same : second = pool
        · subst same
          rw [Function.update_self]
          exact List.mem_cons_of_mem _ isLive
        · rw [Function.update_of_ne same]
          exact isLive
      apply after.live_apart isNew stillLive
      by_cases same : pool = second
      · subst same
        refine Or.inr fun sameAddress => ?_
        have nodup := after.live_nodup pool
        rw [Function.update_self, List.nodup_cons] at nodup
        exact nodup.1 (sameAddress ▸ isLive)
      · exact Or.inl same

/-- `kfree` keeps its promises unless the address is a live chunk in the last
page. -/
theorem freesLive_iff {s : HeapState m} (sound : Sound s.heap s.obtained s.live) (mem : Nat) :
    ∃ result, Kmalloc.kfree s.heap mem = some result ∧
      (FreesLive s mem result ↔ ¬∃ pool, mem ∈ s.live pool ∧ m.wordLimit ≤ mem + m.pageSize) := by
  rcases kfree_spec sound mem with
    ⟨result, returned, ⟨rfl, notNull, inLast⟩ | ⟨isAccepted, after, isLive⟩⟩
  · refine ⟨_, returned, ?_⟩
    have isError : (-1 : Int) ≠ 0 := by decide
    constructor
    · rintro ⟨accepts, _removes, _rejects⟩ ⟨pool, isLive, _atEnd⟩
      exact isError (accepts.mpr (Or.inr ⟨pool, isLive⟩))
    · intro notInLast
      refine ⟨iff_of_false isError ?_, fun accepted => absurd accepted isError,
        fun _rejected => ⟨rfl, rfl⟩⟩
      rintro (isNull | ⟨pool, isLive⟩)
      · exact notNull isNull
      · exact notInLast ⟨pool, isLive, inLast pool isLive⟩
  · refine ⟨result, returned, iff_of_true ⟨?_, ?_, fun rejected => absurd isAccepted rejected⟩ ?_⟩
    · refine iff_of_true isAccepted (isLive.imp_right ?_)
      rintro ⟨pool, isMember, _notLast⟩
      exact ⟨pool, isMember⟩
    · intro _accepted pool other
      rw [← after.mem_live_iff, (sound.live_nodup pool).mem_erase_iff, and_comm]
    · rintro ⟨pool, isMember, atEnd⟩
      rcases isLive with rfl | ⟨second, _alsoMember, notLast⟩
      · exact sound.zero_not_live pool isMember
      · omega

/-- In every run after a successful `mem_cache_setup`, the live chunks are those
that are allocated in the pools, `kmalloc` returns null or a block that is apart
from them, and `kfree` keeps its promises for every address that is not a live
chunk in the last page of the address space. -/
theorem kmalloc_kfree_contract_iff (isPageSize : m.pageSize = 4096) (allocator : PageAllocator m)
    (world : World m) (success : (memCacheSetup allocator ⟨0, 0, 0⟩ world).1 = 0)
    (calls : List (Call m)) :
    ∃ s, Transition.run step (boot allocator world) calls = some s ∧
      (∀ pool mem, mem ∈ s.live pool ↔ IsAllocated s.heap s.obtained pool mem) ∧
      (∀ (allocator : PageAllocator m) (size : BitVec m.wordTBits) (gfpFlags : BitVec 32),
        ∃ result, Kmalloc.kmalloc allocator s.heap size.toNat gfpFlags = some result ∧
          (result.address ≠ 0 → GivesBlock s.live size.toNat result)) ∧
      ∀ mem : BitVec m.wordTBits, ∃ result, Kmalloc.kfree s.heap mem.toNat = some result ∧
        (FreesLive s mem.toNat result ↔
          ¬∃ pool, mem.toNat ∈ s.live pool ∧ m.wordLimit ≤ mem.toNat + m.pageSize) := by
  rcases Transition.exists_run
      (fun s call (sound : Sound s.heap s.obtained s.live) => Sound.step isPageSize sound call)
      (sound_boot success) calls with ⟨s, reaches, sound⟩
  exact ⟨s, reaches, sound.mem_live_iff,
    fun allocator size gfpFlags =>
      givesBlock_of_sound isPageSize sound allocator size.toNat gfpFlags,
    fun mem => freesLive_iff sound mem.toNat⟩

/-- A block of 100 bytes on the beagleboard. -/
theorem kmalloc_kfree_contract_iff_beaglexm :
    ∃ s, Transition.run step (boot (chooseFrom [4096]) (bareWorld Machine.beaglexm))
        [.kmalloc (chooseFrom [8192, 12288]) 100#32 gfpKernel] = some s ∧
      (∀ pool mem, mem ∈ s.live pool ↔ IsAllocated s.heap s.obtained pool mem) ∧
      (∀ (allocator : PageAllocator Machine.beaglexm) (size : BitVec 32) (gfpFlags : BitVec 32),
        ∃ result, Kmalloc.kmalloc allocator s.heap size.toNat gfpFlags = some result ∧
          (result.address ≠ 0 → GivesBlock s.live size.toNat result)) ∧
      ∀ mem : BitVec 32, ∃ result, Kmalloc.kfree s.heap mem.toNat = some result ∧
        (FreesLive s mem.toNat result ↔
          ¬∃ pool, mem.toNat ∈ s.live pool ∧ 4294967296 ≤ mem.toNat + 4096) :=
  kmalloc_kfree_contract_iff (by decide) (chooseFrom [4096]) (bareWorld Machine.beaglexm)
    (by decide)
    [.kmalloc (chooseFrom [8192, 12288]) 100#32 gfpKernel]

/-- A chunk in the last page is live, and `kfree` rejects it. -/
theorem not_kmalloc_kfree_contract_lastPage :
    ¬∀ (allocator : PageAllocator Machine.beaglexm) (world : World Machine.beaglexm),
      (memCacheSetup allocator ⟨0, 0, 0⟩ world).1 = 0 → ∀ calls : List (Call Machine.beaglexm),
      ∃ s, Transition.run step (boot allocator world) calls = some s ∧
        ∀ mem : BitVec Machine.beaglexm.wordTBits,
          ∃ result, Kmalloc.kfree s.heap mem.toNat = some result ∧
            FreesLive s mem.toNat result := by
  intro claim
  rcases claim (chooseFrom [4096]) (bareWorld _) (by decide)
      [.kmalloc (chooseFrom [8192, 4294963200]) 2048#32 gfpKernel] with ⟨s, reaches, frees⟩
  rcases frees 4294963200#32 with ⟨result, returned, contract⟩
  have values : (Transition.run step (boot (chooseFrom [4096]) (bareWorld Machine.beaglexm))
      [.kmalloc (chooseFrom [8192, 4294963200]) 2048#32 gfpKernel]).map (fun s =>
        (decide (4294963200 ∈ s.live 6), (Kmalloc.kfree s.heap 4294963200).map KfreeResult.err)) =
      some (true, some (-1)) := by
    decide +kernel
  change Kmalloc.kfree s.heap 4294963200 = some result at returned
  rw [reaches, Option.map_some, Option.some.injEq, Prod.mk.injEq, decide_eq_true_eq, returned,
    Option.map_some, Option.some.injEq] at values
  have accepted := contract.accepts_iff.mpr (Or.inr ⟨6, values.1⟩)
  rw [values.2] at accepted
  cases accepted

end Kmalloc
end ShovelOS
