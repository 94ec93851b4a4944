import ShovelOS.Machine
import ShovelOS.MemCache.Slabs
import ShovelOS.Library.Transition

namespace ShovelOS
namespace BootPages

open SlabCache (gfpZero)

/-!
# Memory during boot (`memory/boot_pages.c`)

Until the page allocator runs, pages are taken from the front of the heap,
which goes from the linker's symbol `__HEAP_BEGIN` to the end of the RAM.  A
counter says how many have been taken.  Nothing is given back.

This is the code of the builds that are not hosted.  All of its arithmetic is
on words, and the null pointer is the address 0.  `_BUG` ends in an endless
loop on every board, so that `get_boot_pages` never comes to the `return NULL`
behind it.
-/

/-- The constants of a build. -/
structure BootConfig (m : Machine) where
  virtualMemoryBaseAddress : Nat
  physicalMemoryLength : Nat
  heapBegin : Nat
  physicalMemoryLength_lt : physicalMemoryLength < m.wordLimit
  end_le : virtualMemoryBaseAddress + physicalMemoryLength ≤ m.wordLimit
  pageSize_dvd : m.pageSize ∣ heapBegin
  base_le : virtualMemoryBaseAddress ≤ heapBegin
  heapBegin_lt : heapBegin < virtualMemoryBaseAddress + physicalMemoryLength

/-- The counter and the memory. -/
structure BootState where
  bootPages : Nat
  memory : Nat → UInt8

variable {m : Machine} (config : BootConfig m)

/-! ## The limit -/

def _heapVirtualBegin : Nat := config.heapBegin

def _heapVirtualEnd : Nat :=
  ((config.virtualMemoryBaseAddress + config.physicalMemoryLength) % m.wordLimit + m.wordLimit -
    _heapVirtualBegin config) % m.wordLimit

def _heapLength : Nat :=
  (_heapVirtualEnd config + m.wordLimit - _heapVirtualBegin config) % m.wordLimit

def _heapPages : Nat := _heapLength config / m.pageSize

theorem _heapPages_mul_lt : _heapPages config * m.pageSize < m.wordLimit :=
  Nat.lt_of_le_of_lt (Nat.div_mul_le_self _ _) (Nat.mod_lt _ m.wordLimit_pos)

theorem _heapPages_add_one_lt : _heapPages config + 1 < m.wordLimit := by
  have below := _heapPages_mul_lt config
  have large := Nat.mul_le_mul_left (_heapPages config) m.thirtyTwo_le_pageSize
  have word := m.two_pow_32_le_wordLimit
  omega

/-! ## The requests -/

/-- The address of a page of the heap, as `get_boot_pages` computes it from
the counter. -/
def pageAddress (page : Nat) : Nat :=
  (_heapVirtualBegin config + page * m.pageSize) % m.wordLimit

/-- `memset` of a range with zeros. -/
def zeroRange (memory : Nat → UInt8) (base length : Nat) : Nat → UInt8 :=
  fun address => if (address + m.wordLimit - base) % m.wordLimit < length then 0 else memory address

/-- What a request comes to: `_BUG` stops the machine, or a pointer is
returned. -/
inductive Outcome where
  | stopped
  | returned (pointer : Nat) (state : BootState)

def getBootPages (state : BootState) (pages : Nat) (flags : BitVec 32) : Outcome :=
  let base := pageAddress config state.bootPages
  if (state.bootPages + pages) % m.wordLimit > _heapPages config then .stopped
  else
    let memory :=
      if flags &&& gfpZero ≠ 0#32 then
        zeroRange (m := m) state.memory base (pages * m.pageSize % m.wordLimit)
      else state.memory
    .returned base ⟨(state.bootPages + pages) % m.wordLimit, memory⟩

/-- The test `base & (alignment - 1)` of a page's address. -/
def IsAligned (alignment page : Nat) : Prop :=
  pageAddress config page &&& (alignment + (m.wordLimit - 1)) % m.wordLimit = 0

instance (alignment page : Nat) : Decidable (IsAligned config alignment page) :=
  inferInstanceAs (Decidable (_ = _))

/-- The loop of `get_aligned_boot_pages`.  The fuel bounds its turns. -/
def alignedLoop (alignment pages : Nat) (flags : BitVec 32) : Nat → BootState → Option Outcome
  | 0, _state => none
  | fuel + 1, state =>
      if IsAligned config alignment state.bootPages then
        some (getBootPages config state pages flags)
      else
        let state := { state with bootPages := (state.bootPages + 1) % m.wordLimit }
        if (state.bootPages + pages) % m.wordLimit > _heapPages config then some (.returned 0 state)
        else alignedLoop alignment pages flags fuel state

def getAlignedBootPages (state : BootState) (alignment pages : Nat) (flags : BitVec 32) :
    Option Outcome :=
  alignedLoop config alignment pages flags (_heapPages config + 3) state

/-- A call of one of the two functions.  The arguments are words. -/
inductive Request (m : Machine) where
  | pages (pages : Fin m.wordLimit) (flags : BitVec 32)
  | alignedPages (alignment pages : Fin m.wordLimit) (flags : BitVec 32)

def Request.count : Request m → Nat
  | .pages count _flags => count
  | .alignedPages _alignment count _flags => count

def serve (state : BootState) : Request m → Option Outcome
  | .pages pages flags => some (getBootPages config state pages flags)
  | .alignedPages alignment pages flags => getAlignedBootPages config state alignment pages flags

/-! ## The loop stops -/

/-- The turns that the loop can still take: the sum that it compares with
the limit grows by one in each, and may wrap once. -/
def turnsLeft (state : BootState) (pages : Nat) : Nat :=
  if (state.bootPages + pages) % m.wordLimit ≤ _heapPages config then
    _heapPages config + 1 - (state.bootPages + pages) % m.wordLimit
  else _heapPages config + 2

theorem alignedLoop_isSome (alignment pages : Nat) (flags : BitVec 32) (fuel : Nat)
    (state : BootState) (enough : turnsLeft config state pages < fuel) :
    (alignedLoop config alignment pages flags fuel state).isSome = true := by
  induction fuel generalizing state with
  | zero => omega
  | succ fuel inductionHypothesis =>
      rw [alignedLoop]
      by_cases aligned : IsAligned config alignment state.bootPages
      · rw [if_pos aligned]
        rfl
      · rw [if_neg aligned]
        dsimp only
        -- The next sum is one larger, or zero after the largest word.
        have next : ((state.bootPages + 1) % m.wordLimit + pages) % m.wordLimit =
            ((state.bootPages + pages) % m.wordLimit + 1) % m.wordLimit := by
          rw [Nat.mod_add_mod, Nat.mod_add_mod]
          congr 1
          omega
        by_cases exceeds : ((state.bootPages + 1) % m.wordLimit + pages) % m.wordLimit >
          _heapPages config
        · rw [if_pos exceeds]
          rfl
        · rw [if_neg exceeds]
          apply inductionHypothesis
          have below : (state.bootPages + pages) % m.wordLimit < m.wordLimit :=
            Nat.mod_lt _ m.wordLimit_pos
          rw [next] at exceeds
          simp only [turnsLeft, next] at enough ⊢
          rw [if_pos (Nat.le_of_not_lt exceeds)]
          rcases Nat.lt_or_ge ((state.bootPages + pages) % m.wordLimit + 1) m.wordLimit with
            inside | last
          · rw [Nat.mod_eq_of_lt inside] at exceeds ⊢
            rw [if_pos (by omega)] at enough
            omega
          · have small := _heapPages_add_one_lt config
            rw [if_neg (by omega)] at enough
            omega

/-- The fuel of `get_aligned_boot_pages` is enough. -/
theorem turnsLeft_lt (state : BootState) (pages : Nat) :
    turnsLeft config state pages < _heapPages config + 3 := by
  unfold turnsLeft
  split <;> omega

theorem serve_isSome (state : BootState) (request : Request m) :
    (serve config state request).isSome = true := by
  cases request with
  | pages pages flags => rfl
  | alignedPages alignment pages flags =>
      exact alignedLoop_isSome config _ _ flags _ state (turnsLeft_lt config state _)

/-! ## Where a request is placed -/

/-- The loop leaves at this page: its address is aligned, or the loop has
come to it and the pages do not fit below the limit. -/
def Leaves (state : BootState) (alignment pages page : Nat) : Prop :=
  IsAligned config alignment page ∨
    (state.bootPages < page ∧ _heapPages config < (page + pages) % m.wordLimit)

/-- The page that the counter has come to when a request is decided.  There
is none if the counter wraps before. -/
def StopsAt (state : BootState) (request : Request m) (page : Nat) : Prop :=
  match request with
  | .pages _pages _flags => page = state.bootPages
  | .alignedPages alignment pages _flags =>
      state.bootPages ≤ page ∧ page < m.wordLimit ∧ Leaves config state alignment pages page ∧
        ∀ before, state.bootPages ≤ before → before < page →
          ¬ Leaves config state alignment pages before

/-- What becomes of pages that are decided at a page: below the limit they are
returned, above it the machine stops, unless the loop has come there and
returns `NULL`. -/
structure DecidedAt (state : BootState) (pages page : Nat) (outcome : Outcome) : Prop where
  admitted : (page + pages) % m.wordLimit ≤ _heapPages config →
    ∃ memory, outcome = .returned (pageAddress config page) ⟨(page + pages) % m.wordLimit, memory⟩
  stopped : _heapPages config < (page + pages) % m.wordLimit → page = state.bootPages →
    outcome = .stopped
  refused : _heapPages config < (page + pages) % m.wordLimit → state.bootPages < page →
    outcome = .returned 0 { state with bootPages := page }

theorem getBootPages_decided (state : BootState) (pages : Nat) (flags : BitVec 32) :
    DecidedAt config state pages state.bootPages (getBootPages config state pages flags) where
  admitted := by
    intro within
    rw [getBootPages]
    exact ⟨_, if_neg (Nat.not_lt.mpr within)⟩
  stopped := by
    intro exceeds _same
    rw [getBootPages]
    exact if_pos exceeds
  refused := fun _exceeds later => absurd later (Nat.lt_irrefl _)

/-- From the next turn on the loop leaves at the same pages, if it does not
leave at the page it comes to. -/
theorem leaves_succ_iff {state : BootState} {alignment pages page : Nat}
    (within : ¬ (state.bootPages + 1 + pages) % m.wordLimit > _heapPages config)
    (fromNext : state.bootPages + 1 ≤ page) :
    Leaves config { state with bootPages := state.bootPages + 1 } alignment pages page ↔
      Leaves config state alignment pages page := by
  refine or_congr_right (and_congr_left fun exceeds => ?_)
  change state.bootPages + 1 < page ↔ state.bootPages < page
  refine ⟨Nat.lt_of_succ_lt, fun later => ?_⟩
  rcases Nat.lt_or_eq_of_le fromNext with after | same
  · exact after
  · rw [← same] at exceeds
    exact absurd exceeds within

/-- A turn that goes on has not decided anything. -/
theorem DecidedAt.of_next {state : BootState} {pages page : Nat} {outcome : Outcome}
    (decided : DecidedAt config { state with bootPages := state.bootPages + 1 } pages page outcome)
    (within : ¬ (state.bootPages + 1 + pages) % m.wordLimit > _heapPages config)
    (later : state.bootPages < page) : DecidedAt config state pages page outcome where
  admitted := decided.admitted
  stopped := fun _exceeds same => absurd same (Nat.ne_of_gt later)
  refused := by
    intro exceeds _later
    refine decided.refused exceeds (Nat.lt_of_le_of_ne later fun same => within ?_)
    change state.bootPages + 1 = page at same
    rw [same]
    exact exceeds

theorem alignedLoop_decided {alignment pages page : Nat} {flags : BitVec 32} {fuel : Nat}
    {state : BootState} {outcome : Outcome} (upTo : state.bootPages ≤ page)
    (below : page < m.wordLimit) (leaves : Leaves config state alignment pages page)
    (first : ∀ before, state.bootPages ≤ before → before < page →
      ¬ Leaves config state alignment pages before)
    (decided : alignedLoop config alignment pages flags fuel state = some outcome) :
    DecidedAt config state pages page outcome := by
  induction fuel generalizing state with
  | zero => cases decided
  | succ fuel inductionHypothesis =>
      rw [alignedLoop] at decided
      by_cases aligned : IsAligned config alignment state.bootPages
      · -- The loop leaves at once, so this is the page.
        have same : page = state.bootPages := by
          rcases Nat.lt_or_eq_of_le upTo with later | same
          · exact absurd (Or.inl aligned) (first _ (Nat.le_refl _) later)
          · exact same.symm
        rw [if_pos aligned, Option.some.injEq] at decided
        rw [← decided, same]
        exact getBootPages_decided config state pages flags
      · have later : state.bootPages < page := by
          rcases Nat.lt_or_eq_of_le upTo with later | same
          · exact later
          · rcases leaves with alignedPage | ⟨later, _⟩
            · rw [← same] at alignedPage
              exact absurd alignedPage aligned
            · exact later
        have next : (state.bootPages + 1) % m.wordLimit = state.bootPages + 1 :=
          Nat.mod_eq_of_lt (by omega)
        simp only [if_neg aligned, next] at decided
        by_cases within : (state.bootPages + 1 + pages) % m.wordLimit > _heapPages config
        · have same : page = state.bootPages + 1 := by
            rcases Nat.lt_or_eq_of_le (Nat.succ_le_of_lt later) with after | same
            · exact absurd (Or.inr ⟨Nat.lt_succ_self _, within⟩) (first _ (Nat.le_succ _) after)
            · exact same.symm
          rw [if_pos within, Option.some.injEq] at decided
          rw [← decided, same]
          exact ⟨fun admitted => absurd admitted (Nat.not_le.mpr within),
            fun _exceeds isCounter => absurd isCounter (Nat.succ_ne_self _),
            fun _exceeds _later => rfl⟩
        · rw [if_neg within] at decided
          -- The pages where the loop leaves are the same for the next turn.
          refine DecidedAt.of_next config
            (inductionHypothesis (Nat.succ_le_of_lt later) ?_ ?_ decided) within later
          · exact (leaves_succ_iff config within later).mpr leaves
          · intro before fromNext beforePage leavesBefore
            exact first before (Nat.le_of_succ_le fromNext) beforePage
              ((leaves_succ_iff config within fromNext).mp leavesBefore)

theorem serve_decided {state : BootState} {request : Request m} {page : Nat}
    (stops : StopsAt config state request page) :
    ∃ outcome, serve config state request = some outcome ∧
      DecidedAt config state request.count page outcome := by
  rcases Option.isSome_iff_exists.mp (serve_isSome config state request) with ⟨outcome, served⟩
  refine ⟨outcome, served, ?_⟩
  cases request with
  | pages count flags =>
      have same : page = state.bootPages := stops
      rw [serve, Option.some.injEq] at served
      rw [← served, same]
      exact getBootPages_decided config state count flags
  | alignedPages alignment count flags =>
      rcases stops with ⟨upTo, below, leaves, first⟩
      change alignedLoop config alignment count flags _ state = _ at served
      exact alignedLoop_decided config upTo below leaves first served

end BootPages
end ShovelOS
