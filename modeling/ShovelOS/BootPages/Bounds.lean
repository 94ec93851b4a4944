import ShovelOS.BootPages.Allocator

namespace ShovelOS
namespace BootPages

open Transition

/-!
# The bounds of the boot pages

`_heap_virtual_end` is already relative to the beginning of the heap, and
`_heap_length` subtracts the beginning once more.  The limit is therefore the
length of the heap less its beginning, on words: too small for a heap in the
lower half of the address space, and far above the length in the upper half.

A request keeps to the heap when the pages fit where the counter comes to
rest.  One that does not fit is refused with `NULL` only by the loop of
`get_aligned_boot_pages`, and only above the limit.  `get_boot_pages` stops the
machine there.
-/

variable {m : Machine} (config : BootConfig m)

/-- The limit in bytes: the beginning is subtracted twice. -/
theorem _heapLength_eq : _heapLength config =
    (config.virtualMemoryBaseAddress + config.physicalMemoryLength + 2 * m.wordLimit -
      2 * config.heapBegin) % m.wordLimit := by
  have inRam := config.heapBegin_lt
  have ramLe := config.end_le
  have regroup : ∀ x : Nat, x + m.wordLimit - config.heapBegin =
      x + (m.wordLimit - config.heapBegin) :=
    fun x => by omega
  unfold _heapLength _heapVirtualEnd _heapVirtualBegin
  rw [regroup, regroup, Nat.mod_add_mod, Nat.add_assoc, Nat.mod_add_mod]
  congr 1
  omega

/-! ## Blocks -/

structure Block where
  base : Nat
  pages : Nat

/-- The pages between the beginning of the heap and the end of the RAM. -/
def ramPages : Nat :=
  (config.virtualMemoryBaseAddress + config.physicalMemoryLength - config.heapBegin) / m.pageSize

/-- The limit of the code in terms of the configuration. -/
def limitPages : Nat :=
  if 2 * config.heapBegin ≤ config.virtualMemoryBaseAddress + config.physicalMemoryLength then
    (config.virtualMemoryBaseAddress + config.physicalMemoryLength - 2 * config.heapBegin) /
      m.pageSize
  else ramPages config + (m.wordLimit - config.heapBegin) / m.pageSize

theorem pageSize_dvd_wordLimit (m : Machine) : m.pageSize ∣ m.wordLimit :=
  Nat.pow_dvd_pow 2 (Nat.le_of_lt m.pageShift_lt_wordTBits)

theorem _heapPages_eq : _heapPages config = limitPages config := by
  have inRam := config.heapBegin_lt
  have ramLe := config.end_le
  have baseLe := config.base_le
  have lengthLt := config.physicalMemoryLength_lt
  rw [_heapPages, _heapLength_eq, limitPages]
  split
  · next low =>
      have regroup : config.virtualMemoryBaseAddress + config.physicalMemoryLength + 2 *
          m.wordLimit -
          2 * config.heapBegin = (config.virtualMemoryBaseAddress + config.physicalMemoryLength -
            2 * config.heapBegin) + m.wordLimit * 2 := by omega
      rw [regroup, Nat.add_mul_mod_self_left, Nat.mod_eq_of_lt (by omega)]
  · next high =>
      have regroup : config.virtualMemoryBaseAddress + config.physicalMemoryLength + 2 *
          m.wordLimit -
          2 * config.heapBegin = (config.virtualMemoryBaseAddress + config.physicalMemoryLength -
            config.heapBegin + (m.wordLimit - config.heapBegin)) + m.wordLimit := by omega
      rcases Nat.dvd_sub (pageSize_dvd_wordLimit m) config.pageSize_dvd with ⟨pages, above⟩
      rw [regroup, Nat.add_mod_right, Nat.mod_eq_of_lt (by omega), above, ramPages,
        Nat.add_mul_div_left _ _ m.pageSize_pos, Nat.mul_div_cancel_left _ m.pageSize_pos]

/-- Every byte of the block lies in the heap. -/
def Inside (block : Block) : Prop :=
  ∀ offset < block.pages * m.pageSize, config.heapBegin ≤ block.base + offset ∧
    block.base + offset < config.virtualMemoryBaseAddress + config.physicalMemoryLength

def Apart (m : Machine) (first second : Block) : Prop :=
  ∀ i < first.pages * m.pageSize, ∀ j < second.pages * m.pageSize, first.base + i ≠ second.base + j

/-- What the callers rely on. -/
structure Safe (granted : List Block) : Prop where
  aligned : ∀ block ∈ granted, m.pageSize ∣ block.base
  apart : granted.Pairwise (Apart m)
  inside : ∀ block ∈ granted, Inside config block

/-- A request can be served at or after the counter. -/
def Fits (state : BootState) (request : Request m) : Prop :=
  request.count = 0 ∨ ∃ page, state.bootPages ≤ page ∧ page + request.count ≤ ramPages config ∧
    match request with
    | .pages _count _flags => True
    | .alignedPages alignment _count _flags => IsAligned config alignment page

theorem pageSize_dvd_pageAddress (page : Nat) : m.pageSize ∣ pageAddress config page := by
  unfold pageAddress _heapVirtualBegin
  rw [Nat.dvd_mod_iff (pageSize_dvd_wordLimit m)]
  exact Nat.dvd_add config.pageSize_dvd (Nat.dvd_mul_left _ _)

theorem ramPages_mul_le : config.heapBegin + ramPages config * m.pageSize ≤
    config.virtualMemoryBaseAddress + config.physicalMemoryLength := by
  have inRam := config.heapBegin_lt
  have atMost : ramPages config * m.pageSize ≤
      config.virtualMemoryBaseAddress + config.physicalMemoryLength - config.heapBegin :=
    Nat.div_mul_le_self _ _
  omega

theorem lt_ramPages_add_one_mul : config.virtualMemoryBaseAddress + config.physicalMemoryLength <
    config.heapBegin + (ramPages config + 1) * m.pageSize := by
  have inRam := config.heapBegin_lt
  have less : config.virtualMemoryBaseAddress + config.physicalMemoryLength - config.heapBegin <
      (ramPages config + 1) * m.pageSize := by
    rw [Nat.mul_comm]
    exact Nat.lt_mul_div_succ _ m.pageSize_pos
  omega

/-- Pages that fit the heap lie in it, at the address that was not reduced. -/
theorem pageAddress_of_fits {page pages : Nat} (some_ : pages ≠ 0)
    (fits : page + pages ≤ ramPages config) :
    pageAddress config page = config.heapBegin + page * m.pageSize ∧
      config.heapBegin + (page + pages) * m.pageSize ≤
        config.virtualMemoryBaseAddress + config.physicalMemoryLength := by
  have upTo := Nat.mul_le_mul_right m.pageSize fits
  have atMost := ramPages_mul_le config
  have positive := m.pageSize_pos
  have before : page * m.pageSize < (page + pages) * m.pageSize :=
    Nat.mul_lt_mul_of_pos_right (by omega) positive
  have ramLe := config.end_le
  exact ⟨Nat.mod_eq_of_lt (by unfold _heapVirtualBegin; omega), by omega⟩

/-- Pages that the limit admits although they do not fit the heap do not lie
in it, wherever the sums have wrapped. -/
theorem not_inside_of_admitted {page pages : Nat} (below : page < m.wordLimit) (some_ : pages ≠ 0)
    (unfit : ramPages config < page + pages)
    (admitted : (page + pages) % m.wordLimit ≤ _heapPages config) :
    ¬ Inside config ⟨pageAddress config page, pages⟩ := by
  intro inside
  have positive := m.pageSize_pos
  have bytes : 0 < pages * m.pageSize := Nat.mul_pos (Nat.pos_of_ne_zero some_) positive
  have firstByte := inside 0 bytes
  have lastByte := inside (pages * m.pageSize - 1) (Nat.sub_lt bytes Nat.one_pos)
  simp only at firstByte lastByte
  have ramLe := config.end_le
  have baseLe := config.base_le
  have lengthLt := config.physicalMemoryLength_lt
  have wordPos := m.wordLimit_pos
  -- `turns` and `laps` say how often the address and the sum have wrapped.
  have address : pageAddress config page +
      (config.heapBegin + page * m.pageSize) / m.wordLimit * m.wordLimit =
        config.heapBegin + page * m.pageSize := Nat.mod_add_div' _ _
  have sum := Nat.mod_add_div' (page + pages) m.wordLimit
  obtain ⟨turns, turnsEq⟩ : ∃ turns, (config.heapBegin + page * m.pageSize) / m.wordLimit = turns :=
    ⟨_, rfl⟩
  obtain ⟨laps, lapsEq⟩ : ∃ laps, (page + pages) / m.wordLimit = laps := ⟨_, rfl⟩
  obtain ⟨rest, restEq⟩ : ∃ rest, (page + pages) % m.wordLimit = rest := ⟨_, rfl⟩
  rw [turnsEq] at address
  rw [lapsEq, restEq] at sum
  rw [restEq] at admitted
  have restBytes : rest * m.pageSize < m.wordLimit :=
    Nat.lt_of_le_of_lt (Nat.mul_le_mul_right _ admitted) (_heapPages_mul_lt config)
  have total : rest * m.pageSize + laps * m.pageSize * m.wordLimit =
      page * m.pageSize + pages * m.pageSize := by
    rw [← Nat.add_mul, ← sum]
    ring
  have past : config.virtualMemoryBaseAddress + config.physicalMemoryLength <
      config.heapBegin + (page * m.pageSize + pages * m.pageSize) := by
    have beyond := lt_ramPages_add_one_mul config
    have grows : (ramPages config + 1) * m.pageSize ≤ (page + pages) * m.pageSize :=
      Nat.mul_le_mul_right _ unfit
    rw [← Nat.add_mul]
    omega
  have turnsPos : 0 < turns := by
    rcases Nat.eq_zero_or_pos turns with zero | positive
    · rw [zero] at address
      omega
    · exact positive
  rcases Nat.lt_trichotomy (laps * m.pageSize) turns with fewer | same | more
  · have atLeast := Nat.mul_le_mul_right m.wordLimit (Nat.succ_le_of_lt fewer)
    rw [Nat.succ_mul] at atLeast
    omega
  · -- The block would end before the pages that the sum leaves, so the page
    -- would not be a word.
    rw [same] at total
    have fewBytes : pages * m.pageSize ≤ rest * m.pageSize := by omega
    have few := Nat.le_of_mul_le_mul_right fewBytes positive
    have lapsPos : laps ≠ 0 := by
      rintro rfl
      omega
    have lap := Nat.mul_le_mul_right m.wordLimit (Nat.one_le_iff_ne_zero.mpr lapsPos)
    omega
  · have atLeast := Nat.mul_le_mul_right m.wordLimit (Nat.succ_le_of_lt more)
    rw [Nat.succ_mul] at atLeast
    omega

/-! ## Runs -/

/-- The state and the blocks that were returned, the last one first. -/
structure BootRun where
  state : BootState
  granted : List Block

def BootRun.initial (memory : Nat → UInt8) : BootRun := ⟨⟨0, memory⟩, []⟩

/-- What a request leaves.  There is no further state when the machine stops,
and no block when `NULL` is returned. -/
def grant (run : BootRun) (request : Request m) : Option BootRun :=
  match serve config run.state request with
  | some (.returned pointer state) =>
      some ⟨state, if pointer = 0 then run.granted else ⟨pointer, request.count⟩ :: run.granted⟩
  | some .stopped | none => none

/-- What is expected of a request: the blocks are safe with it, and it is
refused with `NULL` if it does not fit. -/
structure Answered (run : BootRun) (request : Request m) : Prop where
  safe : ∀ next, grant config run request = some next → Safe config next.granted
  refused : ¬ Fits config run.state request →
    ∃ state, serve config run.state request = some (.returned 0 state)

/-- The pages fit where the counter comes to rest: at the counter itself, or at
the first aligned page.  An aligned request may also exceed the limit on the way
there. -/
def Bounded (run : BootRun) : Request m → Prop
  | .pages count _flags => (count : Nat) = 0 ∨ run.state.bootPages + count ≤ ramPages config
  | .alignedPages alignment count _flags =>
      ∃ page, run.state.bootPages ≤ page ∧ page < m.wordLimit ∧
        (∀ before, run.state.bootPages ≤ before → before < page →
          ¬ IsAligned config alignment before) ∧
        (IsAligned config alignment page ∧ ((count : Nat) = 0 ∨ page + count ≤ ramPages config) ∨
          run.state.bootPages < page ∧ limitPages config < (page + count) % m.wordLimit)

variable {config}

theorem grant_returned {run : BootRun} {request : Request m} {pointer : Nat} {state : BootState}
    (served : serve config run.state request = some (.returned pointer state)) :
    grant config run request =
      some ⟨state,
        if pointer = 0 then run.granted else ⟨pointer, request.count⟩ :: run.granted⟩ := by
  rw [grant, served]

theorem stopsAt_lt {state : BootState} {request : Request m} {page : Nat}
    (isWord : state.bootPages < m.wordLimit) (stops : StopsAt config state request page) :
    state.bootPages ≤ page ∧ page < m.wordLimit := by
  cases request with
  | pages count flags =>
      cases stops
      exact ⟨Nat.le_refl _, isWord⟩
  | alignedPages alignment count flags => exact ⟨stops.1, stops.2.1⟩

/-- A bounded request fits where it is decided, or the loop has gone on to a
page at which the limit refuses it. -/
theorem Bounded.stops {run : BootRun} {request : Request m} (bounded : Bounded config run request) :
    ∃ page, StopsAt config run.state request page ∧
      ((request.count = 0 ∨ page + request.count ≤ ramPages config) ∧
          Fits config run.state request ∨
        run.state.bootPages < page ∧ _heapPages config < (page + request.count) % m.wordLimit) := by
  classical
  cases request with
  | pages count flags =>
      refine ⟨run.state.bootPages, rfl, Or.inl ⟨bounded, ?_⟩⟩
      exact bounded.imp_right fun inRam => ⟨_, Nat.le_refl _, inRam, trivial⟩
  | alignedPages alignment count flags =>
      rcases bounded with ⟨last, upTo, below, unaligned, ends⟩
      rw [← _heapPages_eq] at ends
      have leavesLast : Leaves config run.state alignment count last := ends.imp_left And.left
      have leaves : ∃ page, run.state.bootPages ≤ page ∧
          Leaves config run.state alignment count page :=
        ⟨last, upTo, leavesLast⟩
      -- The loop may leave before the last page, but then because of the limit.
      rcases Nat.find_spec leaves with ⟨fromCounter, leavesFirst⟩
      have atMost : Nat.find leaves ≤ last := Nat.find_min' leaves ⟨upTo, leavesLast⟩
      refine ⟨Nat.find leaves, ⟨fromCounter, Nat.lt_of_le_of_lt atMost below, leavesFirst, ?_⟩, ?_⟩
      · exact fun before notBefore earlier leavesBefore =>
          Nat.find_min leaves earlier ⟨notBefore, leavesBefore⟩
      · rcases leavesFirst with aligned | exceeds
        · have same : Nat.find leaves = last := by
            rcases Nat.lt_or_eq_of_le atMost with earlier | same
            · exact absurd aligned (unaligned _ fromCounter earlier)
            · exact same
          rw [same] at aligned ⊢
          refine ends.imp_left fun fits => ⟨fits.2, fits.2.imp_right fun inRam => ?_⟩
          exact ⟨last, upTo, inRam, aligned⟩
        · exact Or.inr exceeds

theorem Safe.cons {granted : List Block} (safe : Safe config granted) {block : Block}
    (aligned : m.pageSize ∣ block.base) (apart : ∀ old ∈ granted, Apart m block old)
    (inside : Inside config block) : Safe config (block :: granted) where
  aligned := by
    intro other isGranted
    rcases List.mem_cons.mp isGranted with rfl | isOld
    · exact aligned
    · exact safe.aligned other isOld
  apart := List.Pairwise.cons apart safe.apart
  inside := by
    intro other isGranted
    rcases List.mem_cons.mp isGranted with rfl | isOld
    · exact inside
    · exact safe.inside other isOld

/-- The blocks are safe, and the pages of all of them are before the counter. -/
structure Bumped (config : BootConfig m) (run : BootRun) : Prop where
  isWord : run.state.bootPages < m.wordLimit
  safe : Safe config run.granted
  before : ∀ block ∈ run.granted, block.pages ≠ 0 →
    block.base + block.pages * m.pageSize ≤ config.heapBegin + run.state.bootPages * m.pageSize

theorem bumped_initial (memory : Nat → UInt8) : Bumped config (BootRun.initial memory) where
  isWord := m.wordLimit_pos
  safe := ⟨by simp [BootRun.initial], List.Pairwise.nil, by simp [BootRun.initial]⟩
  before := by simp [BootRun.initial]

/-- Pages that fit lie at the place of the page, and their sum does not wrap. -/
theorem placed_of_fits {page pages : Nat} (below : page < m.wordLimit)
    (fits : pages = 0 ∨ page + pages ≤ ramPages config) :
    (pages ≠ 0 → pageAddress config page = config.heapBegin + page * m.pageSize ∧
      config.heapBegin + (page + pages) * m.pageSize ≤
        config.virtualMemoryBaseAddress + config.physicalMemoryLength) ∧
      (page + pages) % m.wordLimit = page + pages := by
  have placed : pages ≠ 0 → pageAddress config page = config.heapBegin + page * m.pageSize ∧
      config.heapBegin + (page + pages) * m.pageSize ≤
        config.virtualMemoryBaseAddress + config.physicalMemoryLength := by
    intro occupied
    exact pageAddress_of_fits config occupied (fits.resolve_left occupied)
  refine ⟨placed, ?_⟩
  apply Nat.mod_eq_of_lt
  by_cases empty : pages = 0
  · omega
  · have atMost := (placed empty).2
    have large := Nat.mul_le_mul_left (page + pages) m.thirtyTwo_le_pageSize
    have ramLe := config.end_le
    omega

namespace Bumped

theorem refused {run run' : BootRun} (bumped : Bumped config run)
    (isWord : run'.state.bootPages < m.wordLimit)
    (upTo : run.state.bootPages ≤ run'.state.bootPages)
    (granted : run'.granted = run.granted) : Bumped config run' where
  isWord := isWord
  safe := by rw [granted]; exact bumped.safe
  before := by
    intro block isGranted occupied
    rw [granted] at isGranted
    have later := Nat.mul_le_mul_right m.pageSize upTo
    exact Nat.le_trans (bumped.before block isGranted occupied) (Nat.add_le_add_left later _)

/-- A block that starts at the counter, or after it, leaves the counter at its end. -/
theorem granted {run run' : BootRun} {page pages : Nat} (bumped : Bumped config run)
    (isWord : run'.state.bootPages < m.wordLimit) (upTo : run.state.bootPages ≤ page)
    (counterEq : run'.state.bootPages = page + pages)
    (placed : pages ≠ 0 → pageAddress config page = config.heapBegin + page * m.pageSize ∧
      config.heapBegin + (page + pages) * m.pageSize ≤
        config.virtualMemoryBaseAddress + config.physicalMemoryLength)
    (granted : run'.granted = ⟨pageAddress config page, pages⟩ :: run.granted) :
    Bumped config run' where
  isWord := isWord
  safe := by
    have sum := Nat.add_mul page pages m.pageSize
    have later : run.state.bootPages * m.pageSize ≤ page * m.pageSize := Nat.mul_le_mul_right _ upTo
    rw [granted]
    apply bumped.safe.cons (pageSize_dvd_pageAddress config page)
    · intro old isGranted i inNew j inOld
      have newPages : pages ≠ 0 := fun empty => by simp [empty] at inNew
      have oldPages : old.pages ≠ 0 := fun empty => by simp [empty] at inOld
      have oldEnd := bumped.before old isGranted oldPages
      have newBase := (placed newPages).1
      change pageAddress config page + i ≠ old.base + j
      omega
    · intro offset inNew
      have newPages : pages ≠ 0 := fun empty => by simp [empty] at inNew
      rcases placed newPages with ⟨newBase, newEnd⟩
      change offset < pages * m.pageSize at inNew
      change _ ≤ pageAddress config page + offset ∧ pageAddress config page + offset < _
      omega
  before := by
    intro block isGranted occupied
    have sum := Nat.add_mul page pages m.pageSize
    have later : run.state.bootPages * m.pageSize ≤ page * m.pageSize := Nat.mul_le_mul_right _ upTo
    rw [granted, List.mem_cons] at isGranted
    rw [counterEq]
    rcases isGranted with rfl | isOld
    · have newBase := (placed occupied).1
      change pageAddress config page + pages * m.pageSize ≤ _
      omega
    · have oldEnd := bumped.before block isOld occupied
      omega

end Bumped

/-- A bounded request leaves the counter at the end of its block, or at the
page where it was refused. -/
theorem Bounded.answered {run : BootRun} {request : Request m}
    (bounded : Bounded config run request) (bumped : Bumped config run) :
    Answered config run request ∧ ∀ next, grant config run request = some next →
      Bumped config next := by
  rcases bounded.stops with ⟨page, stops, ends⟩
  rcases serve_decided config stops with ⟨outcome, served, decided⟩
  rcases stopsAt_lt bumped.isWord stops with ⟨upTo, below⟩
  rcases Nat.lt_or_ge (_heapPages config) ((page + request.count) % m.wordLimit) with
    exceeds | admitted
  · rcases Nat.lt_or_eq_of_le upTo with later | here
    · -- The loop returns `NULL`.
      rw [decided.refused exceeds later] at served
      have kept : Bumped config ⟨{ run.state with bootPages := page }, run.granted⟩ :=
        bumped.refused below upTo rfl
      have granted : ∀ next, grant config run request = some next → Bumped config next := by
        intro next isNext
        rw [grant_returned served, if_pos rfl, Option.some.injEq] at isNext
        exact isNext ▸ kept
      exact ⟨⟨fun next isNext => (granted next isNext).safe, fun _unfit => ⟨_, served⟩⟩, granted⟩
    · -- The machine stops, and the request does fit the heap.
      rw [decided.stopped exceeds here.symm] at served
      have stopped : ∀ next, grant config run request ≠ some next := by
        intro next isNext
        rw [grant, served] at isNext
        cases isNext
      have fits : Fits config run.state request :=
        ends.elim And.right fun gone => absurd gone.1 (Nat.not_lt.mpr here.ge)
      exact ⟨⟨fun next isNext => absurd isNext (stopped next), fun unfit => absurd fits unfit⟩,
        fun next isNext => absurd isNext (stopped next)⟩
  · rcases decided.admitted admitted with ⟨memory, isReturned⟩
    rw [isReturned] at served
    have fits := ends.resolve_right fun gone => absurd gone.2 (Nat.not_lt.mpr admitted)
    rcases placed_of_fits below fits.1 with ⟨placed, whole⟩
    have isWord : (page + request.count) % m.wordLimit < m.wordLimit := Nat.mod_lt _ m.wordLimit_pos
    have granted : ∀ next, grant config run request = some next → Bumped config next := by
      intro next isNext
      rw [grant_returned served, Option.some.injEq] at isNext
      rw [← isNext]
      split
      · refine bumped.refused isWord ?_ rfl
        change run.state.bootPages ≤ (page + request.count) % m.wordLimit
        rw [whole]
        exact Nat.le_trans upTo (Nat.le_add_right _ _)
      · exact bumped.granted isWord upTo whole placed rfl
    exact ⟨⟨fun next isNext => (granted next isNext).safe, fun unfit => absurd fits.2 unfit⟩,
      granted⟩

/-- A request that is decided before the counter wraps, and is answered as
expected but not with `NULL`, is bounded. -/
theorem Answered.bounded {run : BootRun} {request : Request m}
    (answered : Answered config run request)
    (isWord : run.state.bootPages < m.wordLimit) {page : Nat}
    (stops : StopsAt config run.state request page)
    (notNull : ∀ state, serve config run.state request ≠ some (.returned 0 state)) :
    Bounded config run request := by
  rcases serve_decided config stops with ⟨outcome, served, decided⟩
  rcases stopsAt_lt isWord stops with ⟨upTo, below⟩
  -- In both cases the pages fit at the page, which is the counter or aligned.
  have ends : (request.count = 0 ∨ page + request.count ≤ ramPages config) ∧
      ((page + request.count) % m.wordLimit ≤ _heapPages config ∨ page = run.state.bootPages) := by
    rcases Nat.lt_or_ge (_heapPages config) ((page + request.count) % m.wordLimit) with
      exceeds | admitted
    · rcases Nat.lt_or_eq_of_le upTo with later | here
      · rw [decided.refused exceeds later] at served
        exact absurd served (notNull _)
      · rw [decided.stopped exceeds here.symm] at served
        have fits : Fits config run.state request := by
          by_contra unfit
          rcases answered.refused unfit with ⟨state, null⟩
          exact notNull state null
        refine ⟨fits.imp_right ?_, Or.inr here.symm⟩
        rintro ⟨later, fromCounter, inRam, _⟩
        omega
    · rcases decided.admitted admitted with ⟨memory, isReturned⟩
      rw [isReturned] at served
      have address : pageAddress config page ≠ 0 := fun null => notNull _ (null ▸ served)
      have safe := answered.safe _ (grant_returned served)
      rw [if_neg address] at safe
      have inside := safe.inside _ List.mem_cons_self
      refine ⟨?_, Or.inl admitted⟩
      by_contra neither
      rw [not_or, Nat.not_le] at neither
      exact not_inside_of_admitted config below neither.1 neither.2 admitted inside
  cases request with
  | pages count flags =>
      have same : page = run.state.bootPages := stops
      rw [same] at ends
      exact ends.1
  | alignedPages alignment count flags =>
      rcases stops with ⟨_, _, leaves, first⟩
      refine ⟨page, upTo, below, fun before fromCounter earlier aligned =>
        first before fromCounter earlier (Or.inl aligned), Or.inl ⟨?_, ends.1⟩⟩
      rcases leaves with aligned | ⟨later, exceeds⟩
      · exact aligned
      · rcases ends.2 with admitted | here
        · exact absurd exceeds (Nat.not_lt.mpr admitted)
        · exact absurd here (Nat.ne_of_gt later)

/-- In a run of bounded requests each is answered as expected, and so the blocks
are page-aligned, apart and in the heap.  Of the requests that are decided
before the counter wraps, and not with `NULL`, only bounded ones are. -/
theorem boot_pages_safe (config : BootConfig m) (memory : Nat → UInt8) (requests : List (Request m))
    (meets : StepsMeet (grant config) (Bounded config) (BootRun.initial memory) requests) :
    StepsMeet (grant config) (Answered config) (BootRun.initial memory) requests ∧
      ∀ final, run (grant config) (BootRun.initial memory) requests = some final →
        Safe config final.granted ∧
        ∀ request page, StopsAt config final.state request page →
          (∀ state, serve config final.state request ≠ some (.returned 0 state)) →
          (Answered config final request ↔ Bounded config final request) := by
  constructor
  · exact meets.of_invariant (fun _run _request bumped bounded => (bounded.answered bumped).1)
      (fun _run _request next bumped bounded granted => (bounded.answered bumped).2 next granted)
      (bumped_initial memory)
  · intro final reaches
    have bumped : Bumped config final :=
      invariant_of_stepsMeet (fun _run _request next bumped bounded granted =>
        (bounded.answered bumped).2 next granted) (bumped_initial memory) meets reaches
    exact ⟨bumped.safe, fun request page stops notNull =>
      ⟨fun answered => answered.bounded bumped.isWord stops notNull,
        fun bounded => (bounded.answered bumped).1⟩⟩

/-- The beagleboard's RAM with a heap that begins a megabyte into it. -/
def beaglexmConfig : BootConfig Machine.beaglexm where
  virtualMemoryBaseAddress := 0x80200000
  physicalMemoryLength := 0xFE00000
  heapBegin := 0x80300000
  physicalMemoryLength_lt := by decide
  end_le := by decide
  pageSize_dvd := by decide
  base_le := by decide
  heapBegin_lt := by decide

/-- Two pages, and then a request for half of the address space that is aligned
to four pages: the loop goes one page on and refuses it. -/
def twoAndRefused : List (Request Machine.beaglexm) :=
  [.pages ⟨2, by decide⟩ 0#32, .alignedPages ⟨0x4000, by decide⟩ ⟨2 ^ 31, by decide⟩ 0#32]

theorem twoAndRefused_run : (run (grant beaglexmConfig) (BootRun.initial fun _address => 0)
    twoAndRefused).isSome = true := by decide +kernel

def afterTwoAndRefused : BootRun :=
  (run (grant beaglexmConfig) (BootRun.initial fun _address => 0) twoAndRefused).get
    twoAndRefused_run

theorem twoAndRefused_bounded :
    StepsMeet (grant beaglexmConfig) (Bounded beaglexmConfig) (BootRun.initial fun _address => 0)
      twoAndRefused := by
  refine ⟨Or.inr (by decide), fun next granted => ⟨?_, fun _last _refused => trivial⟩⟩
  have isNext : grant beaglexmConfig (BootRun.initial fun _address => 0)
      (.pages ⟨2, by decide⟩ 0#32) = some ⟨⟨2, fun _address => 0⟩, [⟨0x80300000, 2⟩]⟩ := rfl
  cases isNext.symm.trans granted
  refine ⟨3, by decide, by decide, fun before notBefore earlier => ?_,
    Or.inr ⟨by decide, by decide +kernel⟩⟩
  have here : before = 2 := Nat.le_antisymm (Nat.le_of_lt_succ earlier) notBefore
  rw [here]
  decide +kernel

theorem boot_pages_safe_twoAndRefused :
    StepsMeet (grant beaglexmConfig) (Answered beaglexmConfig) (BootRun.initial fun _address => 0)
        twoAndRefused ∧
      Safe beaglexmConfig afterTwoAndRefused.granted ∧
      ∀ request page, StopsAt beaglexmConfig afterTwoAndRefused.state request page →
        (∀ state, serve beaglexmConfig afterTwoAndRefused.state request ≠
          some (.returned 0 state)) →
        (Answered beaglexmConfig afterTwoAndRefused request ↔
          Bounded beaglexmConfig afterTwoAndRefused request) :=
  have safe := boot_pages_safe beaglexmConfig _ twoAndRefused twoAndRefused_bounded
  ⟨safe.1, safe.2 afterTwoAndRefused (Option.some_get twoAndRefused_run).symm⟩

/-- One page more than the heap has. -/
def onePageTooMany : Request Machine.beaglexm := .pages ⟨64769, by decide⟩ 0#32

theorem onePageTooMany_admitted :
    (0 + onePageTooMany.count) % Machine.beaglexm.wordLimit ≤ _heapPages beaglexmConfig := by
  decide +kernel

theorem onePageTooMany_address : pageAddress beaglexmConfig 0 = 0x80300000 := by decide +kernel

theorem onePageTooMany_served : ∃ state,
    serve beaglexmConfig (BootRun.initial fun _address => 0).state onePageTooMany =
      some (.returned 0x80300000 state) := by
  have stops : StopsAt beaglexmConfig (BootRun.initial fun _address => 0).state onePageTooMany 0 :=
    rfl
  rcases serve_decided beaglexmConfig stops with ⟨outcome, served, decided⟩
  rcases decided.admitted onePageTooMany_admitted with ⟨memory, isReturned⟩
  rw [onePageTooMany_address] at isReturned
  exact ⟨_, served.trans (congrArg some isReturned)⟩

/-- The heap has 64768 pages and the limit is 588288. -/
theorem not_boot_pages_safe_onePageTooMany :
    ¬ ∀ (m : Machine) (config : BootConfig m) (memory : Nat → UInt8) (requests : List (Request m)),
      m.wordTBits = 32 →
      StepsMeet (grant config) (Answered config) (BootRun.initial memory) requests := by
  intro answered
  have isAnswered :=
    answered Machine.beaglexm beaglexmConfig (fun _address => 0) [onePageTooMany] rfl
  rcases onePageTooMany_served with ⟨state, served⟩
  have safe := isAnswered.1.safe _ (grant_returned served)
  rw [if_neg (by decide)] at safe
  have inside := safe.inside ⟨0x80300000, 64769⟩ List.mem_cons_self
  exact absurd (inside 0xFD00000 (by decide)) (by decide)

end BootPages
end ShovelOS
