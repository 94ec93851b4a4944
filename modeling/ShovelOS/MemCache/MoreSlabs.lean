import ShovelOS.MemCache.Guarantees

namespace ShovelOS
namespace SlabCache

open LinkedList

/-!
# More slabs than a page holds

`_more_slabs` takes page after page and threads one list through them.  After
the `LINK` loop of a page, `last_slab` points to the `next` of the slab before
the last, which already leads to the last slab of the page.  The next page is
stored there, so that the last slab is lost from the list.

The clean-up looks for the next page behind the last slab of a page, where
none has been stored.  It frees the first page only.  With one page, and with
two of which the second is refused, neither shows.
-/

variable {m : Machine}

/-! ## What is asked for -/

/-- The regions that were handed out, and given back, in a list of dealings
with the page allocator. -/
def grantedRegions (events : List PageEvent) : List Region :=
  events.filterMap fun
    | .granted address pages => some ⟨address, pages⟩
    | _ => none

def releasedRegions (events : List PageEvent) : List Region :=
  events.filterMap fun
    | .released address pages => some ⟨address, pages⟩
    | _ => none

/-- The result is a list of all slabs of the pages that were obtained, at
least so many, or there is none and each page has been freed once. -/
def GivesSlabs (slabs : Nat) (before : World m) (result : MoreSlabs m) : Prop :=
  ∃ events, result.world.log = events ++ before.log ∧
    (result.firstSlab ≠ 0 → ∃ nodes,
      Chain 0 (fun slab => (result.world.slab slab).next) result.firstSlab nodes ∧ nodes.Nodup ∧
        (∀ slab, slab ∈ nodes ↔ IsSlab m ((grantedRegions events).map Region.address) slab) ∧
        slabs ≤ nodes.length) ∧
    (result.firstSlab = 0 → (releasedRegions events).Perm (grantedRegions events))

/-- The pages for so many slabs, where the sum may wrap. -/
def pagesForSlabs (m : Machine) (slabs : Nat) : Nat :=
  (slabs + (slabsPerPage m - 1)) % m.wordLimit / slabsPerPage m

/-- How many of so many requests for a page are granted before one is
refused. -/
def grantedInRow (allocator : PageAllocator m) (flags : BitVec 32) : Nat → Held m → Nat
  | 0, _held => 0
  | requests + 1, held =>
      match allocator held 1 flags with
      | none => 0
      | some grant =>
        grantedInRow allocator flags requests (held.add ⟨grant.address, 1⟩ grant.apart) + 1

theorem grantedInRow_refused {allocator : PageAllocator m} {flags : BitVec 32} {held : Held m}
    (refused : allocator held 1 flags = none) (requests : Nat) :
    grantedInRow allocator flags (requests + 1) held = 0 := by
  rw [grantedInRow, refused]

theorem grantedInRow_granted {allocator : PageAllocator m} {flags : BitVec 32} {held after : Held m}
    {grant : Grant m held 1} (granted : allocator held 1 flags = some grant)
    (isAfter : after.regions = ⟨grant.address, 1⟩ :: held.regions) (requests : Nat) :
    grantedInRow allocator flags (requests + 1) held =
      grantedInRow allocator flags requests after + 1 := by
  have same : held.add ⟨grant.address, 1⟩ grant.apart = after := by
    rcases after with ⟨regions, apart⟩
    cases isAfter
    rfl
  rw [grantedInRow, granted]
  dsimp only
  rw [same]

/-! ## A page more -/

/-- The variables of `_more_slabs` after one more page. -/
def Growth.withPage (growth : Growth m) (base : Nat) (taken : World m) : Growth m :=
  linkSlabs (slabsPerPage m - 1)
    { { growth with world := taken }.setLast base with obtained := base :: growth.obtained }

/-- The `LINK` loop leaves `last_slab` one slab before the last. -/
theorem linkSlabs_lastSlab (turns : Nat) (growth : Growth m) {slab : Nat}
    (first : growth.last = slab) :
    (linkSlabs (turns + 1) growth).lastSlab = .next (slab + turns * slabBytes m) := by
  induction turns generalizing growth slab with
  | zero => rw [linkSlabs, linkSlabs, first, Nat.zero_mul, Nat.add_zero]
  | succ turns inductionHypothesis =>
      have second : ({ growth with
          world := growth.world.setNext slab (slab + slabBytes m)
          lastSlab := .next slab } : Growth m).last = slab + slabBytes m :=
        World.setNext_self growth.world slab _
      rw [linkSlabs, first, inductionHypothesis _ second, Nat.succ_mul]
      congr 1
      omega

/-- The variables of `_more_slabs` when a page is refused. -/
def Growth.refused (growth : Growth m) : Growth m :=
  { growth with world := { growth.world with log := .refused 1 :: growth.world.log } }.setLast 0

/-- A request of the loop is refused, and the clean-up follows, or granted,
and the loop goes on. -/
theorem growPages_succ (allocator : PageAllocator m) (flags : BitVec 32) (pages : Nat)
    (growth : Growth m) :
    (allocator growth.world.held 1 (flags ||| gfpZero) = none ∧
      growPages allocator flags (pages + 1) growth =
        (releaseSlabs
          (growth.obtained.length + 1) growth.refused.firstSlab growth.refused.world).map
          (fun world => ⟨0, world, growth.obtained⟩)) ∨
    ∃ grant taken, allocator growth.world.held 1 (flags ||| gfpZero) = some grant ∧
      Granted growth.world taken 1 (flags ||| gfpZero) grant.address ∧
      growPages allocator flags (pages + 1) growth =
        growPages allocator flags pages (growth.withPage grant.address taken) := by
  have sameObtained : ∀ (growth : Growth m) value, (growth.setLast value).obtained =
      growth.obtained := by
    intro growth value
    unfold Growth.setLast
    cases growth.lastSlab <;> rfl
  rcases getFreePages_answer allocator growth.world 1 (flags ||| gfpZero) with
    ⟨isRefused, refused⟩ | ⟨grant, taken, isGranted, answered, granted⟩
  · refine Or.inl ⟨isRefused, ?_⟩
    rw [growPages, refused]
    dsimp only
    rw [if_pos rfl, sameObtained]
    rfl
  · refine Or.inr ⟨grant, taken, isGranted, granted, ?_⟩
    rw [growPages, answered]
    dsimp only
    rw [if_neg granted.notNull, sameObtained]
    rfl

/-- What one more page changes: its slabs are linked in a row, and the place
that `last_slab` pointed to leads to the first of them. -/
structure PageLinked (growth : Growth m) (base : Nat) (next : Growth m) : Prop where
  obtained : next.obtained = base :: growth.obtained
  held : next.world.held.regions = ⟨base, 1⟩ :: growth.world.held.regions
  log : next.world.log = .granted base 1 :: growth.world.log
  fromHead : growth.lastSlab = .head () → next.firstSlab = base
  fromNext : ∀ slab, growth.lastSlab = .next slab → next.firstSlab = growth.firstSlab ∧
    (next.world.slab slab).next = base
  old : ∀ slab, ¬(base ≤ slab ∧ slab < base + m.pageSize) →
    growth.lastSlab ≠ .next slab → (next.world.slab slab).next = (growth.world.slab slab).next
  row : ∀ i, i + 1 < slabsPerPage m →
    (next.world.slab (base + i * slabBytes m)).next = base + (i + 1) * slabBytes m
  ends : (next.world.slab (base + (slabsPerPage m - 1) * slabBytes m)).next = 0
  single : slabsPerPage m = 1 → next.lastSlab = growth.lastSlab
  several : ∀ before, slabsPerPage m = before + 2 →
    next.lastSlab = .next (base + before * slabBytes m)

/-- Of a page of several slabs, `last_slab` points into the last but one. -/
theorem PageLinked.lastSlab_of_several {growth next : Growth m} {base : Nat}
    (linked : PageLinked growth base next) (several : 2 ≤ slabsPerPage m) :
    ∃ i, i + 2 = slabsPerPage m ∧ next.lastSlab = .next (base + i * slabBytes m) := by
  rcases Nat.exists_eq_add_of_le several with ⟨i, count⟩
  rw [Nat.add_comm] at count
  exact ⟨i, count.symm, linked.several i count⟩

theorem setLast_spec (growth : Growth m) (base : Nat) :
    (growth.setLast base).last = base ∧ (growth.setLast base).lastSlab = growth.lastSlab ∧
      (growth.setLast base).world.held = growth.world.held ∧
      (growth.setLast base).world.log = growth.world.log ∧
      (growth.lastSlab = .head () → (growth.setLast base).firstSlab = base) ∧
      (∀ slab, growth.lastSlab = .next slab → (growth.setLast base).firstSlab = growth.firstSlab) ∧
      ∀ slab, growth.lastSlab ≠ .next slab →
        (growth.setLast base).world.slab slab = growth.world.slab slab := by
  rcases growth with ⟨firstSlab, lastSlab, world, obtained⟩
  cases lastSlab with
  | head _ =>
      exact ⟨rfl, rfl, rfl, rfl, fun _isHead => rfl, fun _slab isNext => (by cases isNext),
        fun _slab _notLast => rfl⟩
  | next last =>
      refine ⟨World.setNext_self _ _ _, rfl, rfl, rfl, fun isHead => (by cases isHead),
        fun _slab _isNext => rfl, fun slab notLast => ?_⟩
      exact World.setNext_of_ne world _ fun same => notLast (congrArg Link.next same.symm)

/-- `last_slab` does not point into the new page. -/
theorem withPage_linked {growth : Growth m} {base : Nat} {taken : World m} {flags : BitVec 32}
    (granted : Granted growth.world taken 1 (flags ||| gfpZero) base)
    (outside : ∀ slab, growth.lastSlab = .next slab → ¬(base ≤ slab ∧ slab < base + m.pageSize)) :
    PageLinked growth base (growth.withPage base taken) := by
  have positive := slabsPerPage_pos m
  rcases setLast_spec { growth with world := taken } base with
    ⟨last, lastSlab, held, log, fromHead, fromNext, others⟩
  unfold Growth.withPage
  generalize { growth with world := taken }.setLast base = attached at *
  have first : { attached with obtained := base :: growth.obtained }.last = base := last
  rcases linkSlabs_spec (slabsPerPage m - 1)
      { attached with obtained := base :: growth.obtained } first with
    ⟨sameFirst, sameObtained, onlyNext, links, notLinked⟩
  have onPage : ∀ i, i < slabsPerPage m → base + i * slabBytes m ∈ slabsOfPage m base :=
    fun i below => mem_slabsOfPage.mpr ⟨i, below, rfl⟩
  have offPage : ∀ slab, ¬(base ≤ slab ∧ slab < base + m.pageSize) → ∀ i, i < slabsPerPage m - 1 →
      slab ≠ base + i * slabBytes m := by
    intro slab isOutside i below same
    rw [same] at isOutside
    exact isOutside (slabsOfPage_inside (onPage i (by omega)))
  refine ⟨sameObtained, ?_, ?_, ?_, ?_, ?_, ?_, ?_, ?_, ?_⟩
  · rw [onlyNext.held]
    exact (congrArg Held.regions held).trans granted.held
  · rw [onlyNext.log]
    exact log.trans granted.log
  · intro isHead
    exact sameFirst.trans (fromHead isHead)
  · intro slab isNext
    refine ⟨sameFirst.trans (fromNext slab isNext), ?_⟩
    rw [notLinked slab (offPage slab (outside slab isNext))]
    unfold Growth.last at last
    rw [lastSlab, isNext] at last
    exact last
  · intro slab isOutside notLast
    rw [notLinked slab (offPage slab isOutside)]
    exact congrArg Slab.next
      ((others slab notLast).trans (granted.outside slab (by rwa [Nat.one_mul])))
  · intro i below
    exact links i (by omega)
  · have inside := slabsOfPage_inside (onPage (slabsPerPage m - 1) (by omega))
    rw [notLinked]
    · have cleared :=
        granted.cleared (gfpZero_or flags) _ inside.1 (by rw [Nat.one_mul]; exact inside.2)
      exact (congrArg Slab.next (others _ fun isNext => outside _ isNext inside)).trans
        (congrArg Slab.next cleared)
    · intro i below same
      have spaced := Nat.eq_of_mul_eq_mul_right (slabBytes_pos m) (Nat.add_left_cancel same)
      omega
  · intro single
    rw [single]
    exact lastSlab
  · intro before several
    rw [several]
    exact linkSlabs_lastSlab before { attached with obtained := base :: growth.obtained } first

/-! ## The lost slab -/

/-- A slab of the pages that is not the lost one. -/
def Kept (m : Machine) (obtained : List Nat) (lost slab : Nat) : Prop :=
  IsSlab m obtained slab ∧ slab ≠ lost

/-- Once a page has been taken, its last slab is behind the place that
`last_slab` points to, and nothing else leads to it. -/
structure Losing (growth : Growth m) (lost : Nat) : Prop where
  isSlab : IsSlab m growth.obtained lost
  held : ∀ base ∈ growth.obtained, base ≠ 0 ∧ ⟨base, 1⟩ ∈ growth.world.held.regions
  start : growth.lastSlab = .head () ∧ slabsPerPage m = 1 ∨
    (∃ slab, growth.lastSlab = .next slab) ∧ 2 ≤ slabsPerPage m ∧
      growth.firstSlab + (slabsPerPage m - 1) * slabBytes m = lost ∧
      growth.firstSlab ∈ growth.obtained ∧
      Kept m growth.obtained lost growth.firstSlab
  last : ∀ slab, growth.lastSlab = .next slab → Kept m growth.obtained lost slab
  closed : ∀ slab, Kept m growth.obtained lost slab → growth.lastSlab ≠ .next slab →
    (growth.world.slab slab).next = 0 ∨ Kept m growth.obtained lost (growth.world.slab slab).next
  ends : (growth.world.slab lost).next = 0

/-- With the next page nothing leads to it at all. -/
structure Lost (growth : Growth m) (lost : Nat) : Prop extends Losing growth lost where
  first : Kept m growth.obtained lost growth.firstSlab
  lastClosed : ∀ slab, growth.lastSlab = .next slab →
    (growth.world.slab slab).next = 0 ∨ Kept m growth.obtained lost (growth.world.slab slab).next

variable {growth next : Growth m} {lost base : Nat} {taken : World m} {flags : BitVec 32}

namespace Losing

/-- A slab of the pages is outside a page that is granted. -/
theorem outside (losing : Losing growth lost)
    (granted : Granted growth.world taken 1 (flags ||| gfpZero) base) {slab : Nat}
    (isSlab : IsSlab m growth.obtained slab) : ¬(base ≤ slab ∧ slab < base + m.pageSize) := by
  rcases isSlab with ⟨page, isMember, onPage⟩
  have apart := granted.fresh _ (losing.held page isMember).2
  have inside := slabsOfPage_inside onPage
  unfold Region.Apart at apart
  simp only [Nat.one_mul] at apart
  omega

/-- The slabs of a granted page are none of the lost ones. -/
theorem kept_new (losing : Losing growth lost)
    (granted : Granted growth.world taken 1 (flags ||| gfpZero) base) {slab : Nat}
    (onPage : slab ∈ slabsOfPage m base) : Kept m (base :: growth.obtained) lost slab := by
  refine ⟨isSlab_cons.mpr (Or.inl onPage), fun isLost => ?_⟩
  rw [isLost] at onPage
  exact losing.outside granted losing.isSlab (slabsOfPage_inside onPage)

/-- A slab that is kept stays so with one more page. -/
theorem kept_old {obtained : List Nat} {slab : Nat} (kept : Kept m obtained lost slab) :
    Kept m (base :: obtained) lost slab :=
  ⟨isSlab_cons.mpr (Or.inr kept.1), kept.2⟩

/-- The first slab of a granted page is kept. -/
theorem kept_base (losing : Losing growth lost)
    (granted : Granted growth.world taken 1 (flags ||| gfpZero) base) :
    Kept m (base :: growth.obtained) lost base := by
  have onPage : base + 0 * slabBytes m ∈ slabsOfPage m base :=
    mem_slabsOfPage.mpr ⟨0, slabsPerPage_pos m, rfl⟩
  rw [Nat.zero_mul, Nat.add_zero] at onPage
  exact losing.kept_new granted onPage

/-- Every slab that is kept leads to another one, also the last one so far. -/
theorem closed_of_page (losing : Losing growth lost)
    (granted : Granted growth.world taken 1 (flags ||| gfpZero) base)
    (linked : PageLinked growth base next) {slab : Nat}
    (kept : Kept m (base :: growth.obtained) lost slab) :
    (next.world.slab slab).next = 0 ∨
      Kept m (base :: growth.obtained) lost (next.world.slab slab).next := by
  rcases kept with ⟨isSlab, notLost⟩
  rcases isSlab_cons.mp isSlab with onPage | isOld
  · rcases mem_slabsOfPage.mp onPage with ⟨i, below, rfl⟩
    by_cases atEnd : i + 1 = slabsPerPage m
    · refine Or.inl ?_
      rw [show i = slabsPerPage m - 1 by omega]
      exact linked.ends
    · rw [linked.row i (by omega)]
      exact Or.inr (losing.kept_new granted (mem_slabsOfPage.mpr ⟨i + 1, by omega, rfl⟩))
  · by_cases isLast : growth.lastSlab = .next slab
    · rw [(linked.fromNext slab isLast).2]
      exact Or.inr (losing.kept_base granted)
    · rw [linked.old slab (losing.outside granted isOld) isLast]
      rcases losing.closed slab ⟨isOld, notLost⟩ isLast with isNull | kept
      · exact Or.inl isNull
      · exact Or.inr (kept_old kept)

/-- The list starts with a slab that is kept. -/
theorem first_of_page (losing : Losing growth lost)
    (granted : Granted growth.world taken 1 (flags ||| gfpZero) base)
    (linked : PageLinked growth base next) :
    Kept m (base :: growth.obtained) lost next.firstSlab := by
  rcases losing.start with ⟨isHead, _single⟩ | ⟨⟨slab, isNext⟩, _several, _isLost, _isMember, kept⟩
  · rw [linked.fromHead isHead]
    exact losing.kept_base granted
  · rw [(linked.fromNext slab isNext).1]
    exact kept_old kept

/-- `last_slab` points into a slab that is kept, if into one at all. -/
theorem last_of_page (losing : Losing growth lost)
    (granted : Granted growth.world taken 1 (flags ||| gfpZero) base)
    (linked : PageLinked growth base next) {slab : Nat} (isNext : next.lastSlab = .next slab) :
    Kept m (base :: growth.obtained) lost slab := by
  rcases losing.start with ⟨isHead, single⟩ | ⟨_isNext, several, _isLost, _isMember, _kept⟩
  · rw [linked.single single, isHead] at isNext
    cases isNext
  · rcases linked.lastSlab_of_several several with ⟨i, count, isLast⟩
    rw [isLast] at isNext
    cases isNext
    exact losing.kept_new granted (mem_slabsOfPage.mpr ⟨i, by omega, rfl⟩)

/-- After one more page the last slab of the first is lost. -/
theorem lost_of_page (losing : Losing growth lost)
    (granted : Granted growth.world taken 1 (flags ||| gfpZero) base)
    (linked : PageLinked growth base next) : Lost next lost := by
  have obtained := linked.obtained
  have first := losing.first_of_page granted linked
  have last : ∀ slab, next.lastSlab = .next slab → Kept m (base :: growth.obtained) lost slab :=
    fun _slab isNext => losing.last_of_page granted linked isNext
  have closed : ∀ slab, Kept m (base :: growth.obtained) lost slab →
      (next.world.slab slab).next = 0 ∨
      Kept m (base :: growth.obtained) lost (next.world.slab slab).next :=
    fun _slab kept => losing.closed_of_page granted linked kept
  rw [← obtained] at first last closed
  refine ⟨⟨?_, ?_, ?_, last, fun slab kept _notLast => closed slab kept, ?_⟩, first,
    fun slab isNext => closed slab (last slab isNext)⟩
  · rw [obtained]
    exact isSlab_cons.mpr (Or.inr losing.isSlab)
  · intro page isMember
    rw [obtained] at isMember
    rw [linked.held]
    rcases List.mem_cons.mp isMember with rfl | isOld
    · exact ⟨granted.notNull, List.mem_cons_self⟩
    · exact ⟨(losing.held page isOld).1, List.mem_cons_of_mem _ (losing.held page isOld).2⟩
  · rcases losing.start with ⟨isHead, single⟩ | ⟨⟨slab, isNext⟩, several, isLost, isMember, _kept⟩
    · exact Or.inl ⟨(linked.single single).trans isHead, single⟩
    · rcases linked.lastSlab_of_several several with ⟨_i, _count, isLast⟩
      refine Or.inr ⟨⟨_, isLast⟩, several, ?_, ?_, first⟩
      · rw [(linked.fromNext slab isNext).1]
        exact isLost
      · rw [(linked.fromNext slab isNext).1, obtained]
        exact List.mem_cons_of_mem _ isMember
  · rw [linked.old lost (losing.outside granted losing.isSlab) fun isNext =>
      (losing.last lost isNext).2 rfl]
    exact losing.ends

end Losing

theorem losing_firstPage {world : World m}
    (granted : Granted world taken 1 (flags ||| gfpZero) base)
    (linked : PageLinked (⟨0, .head (), world, []⟩ : Growth m) base next) :
    Losing next (base + (slabsPerPage m - 1) * slabBytes m) := by
  have positive := slabsPerPage_pos m
  have obtained : next.obtained = [base] := linked.obtained
  have onPage : ∀ i, i < slabsPerPage m → IsSlab m next.obtained (base + i * slabBytes m) := by
    intro i below
    rw [obtained]
    exact ⟨base, List.mem_singleton_self base, mem_slabsOfPage.mpr ⟨i, below, rfl⟩⟩
  have kept : ∀ i, i + 1 < slabsPerPage m →
      Kept m next.obtained (base + (slabsPerPage m - 1) * slabBytes m)
        (base + i * slabBytes m) := by
    intro i below
    refine ⟨onPage i (by omega), fun same => ?_⟩
    have spaced := Nat.eq_of_mul_eq_mul_right (slabBytes_pos m) (Nat.add_left_cancel same)
    omega
  have single : slabsPerPage m = 1 → next.lastSlab = .head () := linked.single
  refine ⟨onPage _ (by omega), ?_, ?_, ?_, ?_, linked.ends⟩
  · intro page isMember
    rw [obtained] at isMember
    rw [linked.held, List.mem_singleton.mp isMember]
    exact ⟨granted.notNull, List.mem_cons_self⟩
  · by_cases one : slabsPerPage m = 1
    · exact Or.inl ⟨single one, one⟩
    · rcases linked.lastSlab_of_several (by omega) with ⟨_i, _count, isLast⟩
      have first : next.firstSlab = base := linked.fromHead rfl
      refine Or.inr ⟨⟨_, isLast⟩, by omega, congrArg (· + _) first, ?_, ?_⟩
      · rw [obtained, first]
        exact List.mem_singleton_self base
      · have isFirst := kept 0 (by omega)
        rw [Nat.zero_mul, Nat.add_zero] at isFirst
        rw [first]
        exact isFirst
  · intro slab isNext
    by_cases one : slabsPerPage m = 1
    · rw [single one] at isNext
      cases isNext
    · rcases linked.lastSlab_of_several (by omega) with ⟨i, count, isLast⟩
      rw [isLast] at isNext
      cases isNext
      exact kept i (by omega)
  · rintro slab ⟨isSlab, notLost⟩ notLast
    rw [obtained] at isSlab
    rcases isSlab with ⟨page, isMember, isOnPage⟩
    rw [List.mem_singleton.mp isMember] at isOnPage
    rcases mem_slabsOfPage.mp isOnPage with ⟨i, below, rfl⟩
    have notEnd : i + 1 ≠ slabsPerPage m := by
      intro atEnd
      rw [show i = slabsPerPage m - 1 by omega] at notLost
      exact notLost rfl
    have notBefore : i + 2 ≠ slabsPerPage m :=
      fun isBefore => notLast (linked.several i isBefore.symm)
    rw [linked.row i (by omega)]
    exact Or.inr (kept (i + 1) (by omega))

/-! ## The clean-up -/

/-- A list of one page, as the clean-up sees it, is freed. -/
theorem releaseSlabs_one (fuel : Nat) {world : World m} {firstSlab : Nat} (notNull : firstSlab ≠ 0)
    (ends : (world.slab (firstSlab + (slabsPerPage m - 1) * slabBytes m)).next = 0) :
    releaseSlabs (fuel + 2) firstSlab world = some (freePages world firstSlab 1) := by
  rw [releaseSlabs, if_neg notNull, ends, releaseSlabs, if_pos rfl]

/-- The clean-up frees the first page, or nothing when a page has one slab. -/
theorem Losing.release (losing : Losing growth lost) :
    ∃ released, releaseSlabs
      (growth.obtained.length + 1) growth.refused.firstSlab growth.refused.world =
        some released ∧
      (slabsPerPage m = 1 → released.log = .refused 1 :: growth.world.log) ∧
      (2 ≤ slabsPerPage m →
        released.log = .released growth.firstSlab 1 :: .refused 1 :: growth.world.log) := by
  rcases setLast_spec
    { growth with world := { growth.world with log := .refused 1 :: growth.world.log } } 0 with
    ⟨_last, _lastSlab, _held, log, fromHead, fromNext, others⟩
  rcases losing.start with ⟨isHead, single⟩ | ⟨⟨slab, isNext⟩, several, isLost, isMember, _kept⟩
  · refine ⟨growth.refused.world, ?_, fun _single => log, fun several => absurd single (by omega)⟩
    rw [show growth.refused.firstSlab = 0 from fromHead isHead, releaseSlabs, if_pos rfl]
  · have first : growth.refused.firstSlab = growth.firstSlab := fromNext slab isNext
    have length := List.length_pos_of_mem isMember
    have notNull := (losing.held _ isMember).1
    have ends : (growth.refused.world.slab lost).next = 0 := by
      refine (congrArg Slab.next (others lost fun isLast => ?_)).trans losing.ends
      exact (losing.last lost isLast).2 rfl
    refine ⟨freePages growth.refused.world growth.firstSlab 1, ?_,
      fun single => absurd single (by omega),
      fun _several => congrArg (_ :: ·) log⟩
    rw [first, show growth.obtained.length + 1 = growth.obtained.length - 1 + 2 by omega]
    exact releaseSlabs_one _ notNull (by rw [isLost]; exact ends)

/-! ## Outcomes -/

/-- All that has happened since is that the pages were granted. -/
def Traced (before : World m) (growth : Growth m) : Prop :=
  ∃ events, growth.world.log = events ++ before.log ∧
    grantedRegions events = growth.obtained.map (fun base => ⟨base, 1⟩) ∧
    releasedRegions events = []

variable {before : World m} {slabs : Nat}

theorem Traced.page (traced : Traced before growth) (linked : PageLinked growth base next) :
    Traced before next := by
  rcases traced with ⟨events, log, granted, released⟩
  refine ⟨.granted base 1 :: events, ?_, ?_, released⟩
  · rw [linked.log, log]
    rfl
  · rw [linked.obtained, List.map_cons, ← granted]
    rfl

/-- The dealings since are determined by the log. -/
theorem givesSlabs_of_log {result : MoreSlabs m} {events : List PageEvent}
    (log : result.world.log = events ++ before.log) :
    GivesSlabs slabs before result ↔
      (result.firstSlab ≠ 0 → ∃ nodes,
        Chain 0 (fun slab => (result.world.slab slab).next) result.firstSlab nodes ∧ nodes.Nodup ∧
          (∀ slab, slab ∈ nodes ↔ IsSlab m ((grantedRegions events).map Region.address) slab) ∧
          slabs ≤ nodes.length) ∧
      (result.firstSlab = 0 → (releasedRegions events).Perm (grantedRegions events)) := by
  constructor
  · rintro ⟨others, alsoLog, gives⟩
    rw [List.append_cancel_right (alsoLog.symm.trans log)] at gives
    exact gives
  · exact fun gives => ⟨events, log, gives⟩

/-- Without a list every page has to be freed. -/
theorem givesSlabs_null {world : World m} {obtained : List Nat} {events : List PageEvent}
    (log : world.log = events ++ before.log) :
    GivesSlabs slabs before ⟨0, world, obtained⟩ ↔
      (releasedRegions events).Perm (grantedRegions events) := by
  rw [givesSlabs_of_log
    (show (MoreSlabs.mk 0 world obtained).world.log = events ++ before.log from log)]
  constructor
  · exact fun gives => gives.2 rfl
  · exact fun freed => ⟨fun notNull => absurd rfl notNull, fun _isNull => freed⟩

/-- A refusal after some pages is dealt with only after the first page, and
when a page has more than one slab. -/
theorem Losing.refused_iff (slabs : Nat) (losing : Losing growth lost)
    (traced : Traced before growth) {world : World m}
    (released : releaseSlabs
      (growth.obtained.length + 1) growth.refused.firstSlab growth.refused.world =
      some world) :
    GivesSlabs slabs before ⟨0, world, growth.obtained⟩ ↔
      2 ≤ slabsPerPage m ∧ growth.obtained.length = 1 := by
  rcases traced with ⟨events, log, granted, none⟩
  rcases losing.release with ⟨result, isResult, single, several⟩
  cases released.symm.trans isResult
  rcases losing.start with ⟨_isHead, one⟩ | ⟨_isNext, two, _isLost, isMember, _kept⟩
  · have alsoLog : world.log = (.refused 1 :: events) ++ before.log := by
      rw [single one, log]
      rfl
    rw [givesSlabs_null alsoLog]
    change (releasedRegions events).Perm (grantedRegions events) ↔ _
    rw [none, granted, List.nil_perm, List.map_eq_nil_iff]
    refine iff_of_false (fun isEmpty => ?_) (by omega)
    rcases losing.isSlab with ⟨page, isMember, _onPage⟩
    rw [isEmpty] at isMember
    cases isMember
  · have alsoLog : world.log = (.released growth.firstSlab 1 :: .refused 1 :: events) ++
        before.log := by
      rw [several two, log]
      rfl
    rw [givesSlabs_null alsoLog, and_iff_right two]
    change (⟨growth.firstSlab, 1⟩ :: releasedRegions events).Perm (grantedRegions events) ↔ _
    rw [none, granted, List.singleton_perm]
    constructor
    · intro isOne
      rw [← List.length_map (fun base => Region.mk base 1), ← isOne, List.length_singleton]
    · intro isOne
      rcases List.length_eq_one_iff.mp isOne with ⟨base, isBase⟩
      rw [isBase] at isMember ⊢
      rw [List.mem_singleton.mp isMember, List.map_singleton]

/-- A list without the lost slab is not what was asked for. -/
theorem Lost.not_gives (isLost : Lost growth lost) (traced : Traced before growth) :
    ¬GivesSlabs slabs before ⟨growth.firstSlab, growth.world, growth.obtained⟩ := by
  rcases traced with ⟨events, log, granted, _none⟩
  have notNull : growth.firstSlab ≠ 0 := by
    rcases isLost.first.1 with ⟨page, isMember, onPage⟩
    have pageNotNull := (isLost.held page isMember).1
    have inside := slabsOfPage_inside onPage
    omega
  rw [givesSlabs_of_log
    (show (MoreSlabs.mk growth.firstSlab growth.world growth.obtained).world.log =
    events ++ before.log from log)]
  rintro ⟨isList, _isNull⟩
  rcases isList notNull with ⟨nodes, chain, _nodup, complete, _enough⟩
  rw [granted, List.map_map] at complete
  have isSlab : IsSlab m (growth.obtained.map fun base => base) lost := by
    rw [List.map_id']
    exact isLost.isSlab
  have closed : ∀ slab, Kept m growth.obtained lost slab →
      (growth.world.slab slab).next = 0 ∨
        Kept m growth.obtained lost (growth.world.slab slab).next := by
    intro slab kept
    by_cases isLast : growth.lastSlab = .next slab
    · exact isLost.lastClosed slab isLast
    · exact isLost.closed slab kept isLast
  exact (chain.mem_of_closed closed (Or.inr isLost.first) lost ((complete lost).mpr isSlab)).2 rfl

/-- Once a slab is lost, nothing that follows repairs it. -/
theorem Lost.growPages_not_gives (allocator : PageAllocator m) (isLost : Lost growth lost)
    (traced : Traced before growth) (two : 2 ≤ growth.obtained.length) (pages : Nat)
    {result : MoreSlabs m}
    (returned : growPages allocator flags pages growth = some result) :
    ¬GivesSlabs slabs before result := by
  induction pages generalizing growth with
  | zero =>
      cases returned
      exact isLost.not_gives traced
  | succ pages inductionHypothesis =>
      rcases growPages_succ allocator flags pages growth with
        ⟨_isRefused, cleaned⟩ | ⟨grant, taken, _isGranted, granted, further⟩
      · rw [cleaned] at returned
        rcases Option.map_eq_some_iff.mp returned with ⟨world, released, rfl⟩
        rw [Losing.refused_iff slabs isLost.toLosing traced released]
        omega
      · rw [further] at returned
        have linked := withPage_linked granted fun slab isNext =>
          isLost.outside granted (isLost.last slab isNext).1
        refine inductionHypothesis (isLost.lost_of_page granted linked)
          (traced.page linked) ?_ returned
        rw [linked.obtained, List.length_cons]
        omega

/-- The slabs of one page. -/
theorem gives_firstPage {world : World m} (granted : Granted world taken 1 (flags ||| gfpZero) base)
    (linked : PageLinked (⟨0, .head (), world, []⟩ : Growth m) base next)
    (few : slabs ≤ slabsPerPage m) :
    GivesSlabs slabs world ⟨next.firstSlab, next.world, next.obtained⟩ := by
  have first : next.firstSlab = base := linked.fromHead rfl
  refine ⟨[.granted base 1], linked.log,
    fun _notNull => ⟨slabsOfPage m base, ?_, slabsOfPage_nodup base, ?_, ?_⟩,
    fun isNull => absurd (first.symm.trans isNull) granted.notNull⟩
  · rw [first]
    exact chain_of_row (slabsPerPage_pos m) granted.notNull linked.row linked.ends
  · intro slab
    constructor
    · exact fun onPage => ⟨base, List.mem_singleton_self base, onPage⟩
    · rintro ⟨page, isMember, onPage⟩
      rwa [List.mem_singleton.mp isMember] at onPage
  · rw [slabsOfPage_length]
    exact few

/-- One page is asked for only when it has room for all slabs. -/
theorem le_of_pagesForSlabs_eq_one (isWord : slabs < m.wordLimit)
    (one : pagesForSlabs m slabs = 1) :
    slabs ≤ slabsPerPage m := by
  have positive := slabsPerPage_pos m
  have small : slabsPerPage m ≤ m.wordLimit := by
    have perPage : slabsPerPage m ≤ m.pageSize := Nat.div_le_self _ _
    have page : m.pageSize < m.wordLimit :=
      Nat.pow_lt_pow_right (by decide) m.pageShift_lt_wordTBits
    omega
  rw [pagesForSlabs, Nat.div_eq_iff positive] at one
  by_cases wraps : slabs + (slabsPerPage m - 1) < m.wordLimit
  · rw [Nat.mod_eq_of_lt wraps] at one
    omega
  · rw [Nat.mod_eq_sub_mod (Nat.le_of_not_lt wraps), Nat.mod_eq_of_lt (by omega)] at one
    omega

/-- After the first page, asking for another one is repaired only when it is
refused. -/
theorem Losing.growPages_iff (allocator : PageAllocator m) (losing : Losing growth lost)
    (traced : Traced before growth) (obtained : growth.obtained = [base]) (pages : Nat) :
    (∃ result, growPages allocator flags (pages + 1) growth = some result ∧
      GivesSlabs slabs before result) ↔
      grantedInRow allocator (flags ||| gfpZero) (pages + 1) growth.world.held = 0 ∧
        2 ≤ slabsPerPage m := by
  rcases growPages_succ allocator flags pages growth with
    ⟨isRefused, cleaned⟩ | ⟨grant, taken, isGranted, granted, further⟩
  · rcases losing.release with ⟨released, isReleased, _log⟩
    have outcome := losing.refused_iff slabs traced isReleased
    rw [grantedInRow_refused isRefused, cleaned, isReleased, Option.map_some, eq_self, true_and]
    rw [obtained, List.length_singleton, eq_self, and_true] at outcome
    rw [← outcome, ← obtained]
    constructor
    · rintro ⟨result, isResult, gives⟩
      cases isResult
      exact gives
    · exact fun gives => ⟨_, rfl, gives⟩
  · have linked := withPage_linked granted fun slab isNext =>
      losing.outside granted (losing.last slab isNext).1
    rw [further, grantedInRow_granted isGranted linked.held]
    refine iff_of_false ?_ (fun none => Nat.succ_ne_zero _ none.1)
    rintro ⟨result, isResult, gives⟩
    refine (losing.lost_of_page granted linked).growPages_not_gives allocator
      (traced.page linked) ?_ pages
      isResult gives
    rw [linked.obtained, obtained]
    exact Nat.le_refl 2

/-- `_more_slabs` returns all slabs of its pages, or frees each page once,
exactly when one page is enough or no more than one is granted; a page with
one slab is lost as soon as another is asked for. -/
theorem more_slabs_gives_slabs_iff (allocator : PageAllocator m) (flags : BitVec 32)
    (world : World m) {slabs : Nat} (isWord : slabs < m.wordLimit) :
    (∃ result, _moreSlabs allocator slabs flags world = some result ∧
      GivesSlabs slabs world result) ↔
      pagesForSlabs m slabs ≤ 1 ∨
        grantedInRow allocator (flags ||| gfpZero) (pagesForSlabs m slabs) world.held = 0 ∨
        grantedInRow allocator (flags ||| gfpZero) (pagesForSlabs m slabs) world.held = 1 ∧
          2 ≤ slabsPerPage m := by
  have one := le_of_pagesForSlabs_eq_one isWord
  change (∃ result, growPages allocator flags (pagesForSlabs m slabs) ⟨0, .head (), world, []⟩ =
    some result ∧ _) ↔ _
  generalize pagesForSlabs m slabs = pages at one ⊢
  cases pages with
  | zero =>
      refine iff_of_true ⟨_, rfl, ?_⟩ (Or.inl (Nat.zero_le 1))
      rw [givesSlabs_null (List.nil_append _).symm]
      exact List.Perm.refl _
  | succ pages =>
      rcases growPages_succ allocator flags pages ⟨0, .head (), world, []⟩ with
        ⟨isRefused, cleaned⟩ | ⟨grant, taken, isGranted, granted, further⟩
      · rw [grantedInRow_refused isRefused]
        refine iff_of_true ⟨_, cleaned.trans rfl, ?_⟩ (Or.inr (Or.inl rfl))
        have log : ({ world with log := .refused 1 :: world.log } : World m).log =
            [.refused 1] ++ world.log :=
          rfl
        exact (givesSlabs_null log).mpr (List.Perm.refl _)
      · have linked := withPage_linked granted fun _slab isNext => (by cases isNext)
        rw [further, grantedInRow_granted isGranted linked.held]
        cases pages with
        | zero =>
            exact iff_of_true ⟨_, rfl, gives_firstPage granted linked (one rfl)⟩
              (Or.inl (Nat.le_refl 1))
        | succ pages =>
            rw [(losing_firstPage granted linked).growPages_iff allocator
              (Traced.page ⟨[], rfl, rfl, rfl⟩ linked) linked.obtained pages]
            omega

/-- Two slabs fit into one small page. -/
theorem more_slabs_gives_slabs_iff_onePage :
    ∃ result, _moreSlabs (chooseFrom [64]) 2 gfpKernel emptyWorld = some result ∧
      GivesSlabs 2 emptyWorld result :=
  (more_slabs_gives_slabs_iff (chooseFrom [64]) gfpKernel emptyWorld (by decide)).mpr
    (Or.inl (by decide))

/-- Three slabs need two small pages.  Of four slabs in them the list has
three, and the second slab of the first page is not one of them.  When a
third page is refused, the second is not freed. -/
theorem not_more_slabs_gives_slabs_twoPages :
    (¬∃ result, _moreSlabs (chooseFrom [64, 96]) 3 gfpKernel emptyWorld = some result ∧
        GivesSlabs 3 emptyWorld result) ∧
      (_moreSlabs (chooseFrom [64, 96]) 5 gfpKernel emptyWorld).map (fun result =>
        (result.firstSlab, releasedRegions result.world.log, grantedRegions result.world.log)) =
          some (0, [⟨64, 1⟩], [⟨96, 1⟩, ⟨64, 1⟩]) := by
  refine ⟨?_, by decide +kernel⟩
  rintro ⟨result, isResult, events, log, isList, _isNull⟩
  have values : (_moreSlabs (chooseFrom [64, 96]) 3 gfpKernel emptyWorld).map (fun result =>
      (result.firstSlab, result.world.log, (result.world.slab 64).next, (result.world.slab 96).next,
        (result.world.slab 112).next)) = some (64, [.granted 96 1, .granted 64 1], 96, 112, 0) := by
    decide +kernel
  rw [isResult] at values
  simp only [Option.map_some, Option.some.injEq, Prod.mk.injEq] at values
  rcases values with ⟨first, isLog, next64, next96, next112⟩
  rcases isList (by rw [first]; decide) with ⟨nodes, chain, _nodup, complete, _enough⟩
  have closed : ∀ slab, slab = 64 ∨ slab = 96 ∨ slab = 112 → (result.world.slab slab).next = 0 ∨
      ((result.world.slab slab).next = 64 ∨ (result.world.slab slab).next = 96 ∨
        (result.world.slab slab).next = 112) := by
    rintro slab (rfl | rfl | rfl)
    · exact Or.inr (Or.inr (Or.inl next64))
    · exact Or.inr (Or.inr (Or.inr next96))
    · exact Or.inl next112
  have isEvents : [.granted 96 1, .granted 64 1] = events := by
    rw [isLog] at log
    exact log.trans (List.append_nil events)
  have onList : 80 ∈ nodes := by
    rw [complete, ← isEvents]
    exact ⟨64, by decide, by decide⟩
  have listed := chain.mem_of_closed closed (Or.inr (Or.inl first)) 80 onList
  omega

end SlabCache
end ShovelOS
