import ShovelOS.MemCache.Growth

namespace ShovelOS
namespace SlabCache

open LinkedList Bitmap

/-!
# The footprint of a cache

Several caches share the memory and the page allocator.  A call on one of them
writes to slab structures in the regions that this cache uses and in regions
that it is granted, and it gives back regions that it uses.  `Confined` says so
from the side of the others: a region that is held, and that the cache does not
use, stays held with its slab structures unchanged, and does not become one that
the cache uses.

`Confined` holds of every change that the calls are made of and composes, so
that a cache keeps its books while others are called.
-/

variable {m : Machine}

/-! ## Addresses in regions -/

def Region.Contains (m : Machine) (region : Region) (address : Nat) : Prop :=
  region.address ≤ address ∧ address < region.address + region.pages * m.pageSize

theorem Region.Apart.not_contains {region other : Region} (apart : region.Apart m other)
    {address : Nat} (contains : region.Contains m address) : ¬other.Contains m address := by
  intro alsoContains
  rw [Region.Apart] at apart
  rw [Region.Contains] at contains alsoContains
  omega

/-- A region that is granted was not held. -/
theorem not_held_of_fresh {held : List Region} {address pages : Nat} (positive : 0 < pages)
    (fresh : ∀ other ∈ held, Region.Apart m ⟨address, pages⟩ other) {others : Nat}
    (someOthers : 0 < others) : ⟨address, others⟩ ∉ held := by
  intro isHeld
  have apart := fresh _ isHeld
  have size : 0 < pages * m.pageSize := Nat.mul_pos positive m.pageSize_pos
  have otherSize : 0 < others * m.pageSize := Nat.mul_pos someOthers m.pageSize_pos
  rw [Region.Apart] at apart
  dsimp only at apart
  omega

/-! ## Changes within the footprint -/

/-- From one world to another, a cache leaves alone what it does not use. -/
structure Confined (pagesPerSlab : Nat) (world : World m) (obtained : List Nat) (after : World m)
    (obtainedAfter : List Nat) : Prop where
  stillHeld : ∀ region ∈ world.held.regions, ¬Uses pagesPerSlab world obtained region →
    region ∈ after.held.regions
  sameSlab : ∀ region ∈ world.held.regions, ¬Uses pagesPerSlab world obtained region →
    ∀ slab, region.Contains m slab → after.slab slab = world.slab slab
  onlyNew : ∀ region, Uses pagesPerSlab after obtainedAfter region →
    Uses pagesPerSlab world obtained region ∨ region ∉ world.held.regions

namespace Confined

variable {pagesPerSlab : Nat} {cache : MemCache} {world middle after : World m}
  {obtained between obtainedAfter : List Nat}

theorem refl (pagesPerSlab : Nat) (world : World m) (obtained : List Nat) :
    Confined pagesPerSlab world obtained world obtained :=
  ⟨fun _region isHeld _unused => isHeld, fun _region _isHeld _unused _slab _contains => rfl,
    fun _region uses => Or.inl uses⟩

theorem trans (first : Confined pagesPerSlab world obtained middle between)
    (second : Confined pagesPerSlab middle between after obtainedAfter) :
    Confined pagesPerSlab world obtained after obtainedAfter := by
  have unusedBetween : ∀ region ∈ world.held.regions, ¬Uses pagesPerSlab world obtained region →
      ¬Uses pagesPerSlab middle between region := by
    intro region isHeld unused uses
    rcases first.onlyNew region uses with wasUsed | notHeld
    · exact unused wasUsed
    · exact notHeld isHeld
  refine ⟨?_, ?_, ?_⟩
  · intro region isHeld unused
    exact second.stillHeld region (first.stillHeld region isHeld unused)
      (unusedBetween region isHeld unused)
  · intro region isHeld unused slab contains
    have later := second.sameSlab region (first.stillHeld region isHeld unused)
      (unusedBetween region isHeld unused) slab contains
    rw [later, first.sameSlab region isHeld unused slab contains]
  · intro region uses
    by_contra neither
    rw [not_or, not_not] at neither
    rcases second.onlyNew region uses with usedBetween | notHeld
    · exact unusedBetween region neither.2 neither.1 usedBetween
    · exact notHeld (first.stillHeld region neither.2 neither.1)

theorem not_contains (owns : Owns pagesPerSlab world obtained) {region other : Region}
    (isHeld : region ∈ world.held.regions) (unused : ¬Uses pagesPerSlab world obtained region)
    (uses : Uses pagesPerSlab world obtained other) {address : Nat}
    (contains : region.Contains m address) : ¬other.Contains m address := by
  have different : region ≠ other := fun same => unused (same ▸ uses)
  exact (Held.apart_of_ne isHeld (owns.uses_held uses) different).not_contains contains

/-- Changes of slab structures in the regions of the cache that leave its page
pointers. -/
theorem of_inside (owns : Owns pagesPerSlab world obtained)
    (sameHeld : after.held.regions = world.held.regions)
    (samePage : ∀ slab, IsSlab m obtained slab → (after.slab slab).page = (world.slab slab).page)
    (outside : ∀ slab, (∀ region, Uses pagesPerSlab world obtained region →
      ¬region.Contains m slab) → after.slab slab = world.slab slab) :
    Confined pagesPerSlab world obtained after obtained where
  stillHeld := by
    intro region isHeld _unused
    rw [sameHeld]
    exact isHeld
  sameSlab := by
    intro region isHeld unused slab contains
    apply outside
    intro other uses
    exact not_contains owns isHeld unused uses contains
  onlyNew := by
    rintro region (⟨base, isMember, rfl⟩ | ⟨slab, isSlab, attached, rfl⟩)
    · exact Or.inl (Or.inl ⟨base, isMember, rfl⟩)
    · rw [samePage slab isSlab] at attached ⊢
      exact Or.inl (Or.inr ⟨slab, isSlab, attached, rfl⟩)

theorem uses_slab (pagesPerSlab : Nat) (world : World m) {slab : Nat}
    (isSlab : IsSlab m obtained slab) :
    ∃ region, Uses pagesPerSlab world obtained region ∧ region.Contains m slab := by
  rcases isSlab with ⟨base, isMember, onPage⟩
  have inside := slabsOfPage_inside onPage
  refine ⟨⟨base, 1⟩, Or.inl ⟨base, isMember, rfl⟩, inside.1, ?_⟩
  rw [Nat.one_mul]
  exact inside.2

/-- A slab structure of the cache does not lie in a region that the cache does not
use. -/
theorem not_slab (owns : Owns pagesPerSlab world obtained) {slab : Nat}
    (isSlab : IsSlab m obtained slab) {region : Region} (isHeld : region ∈ world.held.regions)
    (unused : ¬Uses pagesPerSlab world obtained region) {address : Nat}
    (contains : region.Contains m address) : address ≠ slab := by
  rintro rfl
  rcases uses_slab pagesPerSlab world isSlab with ⟨other, uses, alsoContains⟩
  exact not_contains owns isHeld unused uses contains alsoContains

theorem modify (owns : Owns pagesPerSlab world obtained) {slab : Nat}
    (isSlab : IsSlab m obtained slab) (change : Slab m → Slab m)
    (samePage : (change (world.slab slab)).page = (world.slab slab).page) :
    Confined pagesPerSlab world obtained (world.modify slab change) obtained := by
  refine of_inside owns rfl (fun later _isSlab =>
    OnlyNext.modify_field Slab.page world slab change samePage later) ?_
  intro later outside
  rcases uses_slab pagesPerSlab world isSlab with ⟨region, uses, contains⟩
  exact World.modify_of_ne world change fun same => outside region uses (same ▸ contains)

theorem log (owns : Owns pagesPerSlab world obtained) (entries : List PageEvent) :
    Confined pagesPerSlab world obtained { world with log := entries } obtained :=
  of_inside owns rfl (fun _slab _isSlab => rfl) (fun _slab _outside => rfl)

theorem memset (owns : Owns pagesPerSlab world obtained) {slab address bytes : Nat}
    (isSlab : IsSlab m obtained slab) (hasPages : (world.slab slab).page ≠ 0)
    (lower : (world.slab slab).page ≤ address)
    (upper : address + bytes ≤ (world.slab slab).page + pagesPerSlab * m.pageSize) :
    Confined pagesPerSlab world obtained (world.memset address bytes) obtained := by
  have insidePages : ∀ later, address ≤ later ∧ later < address + bytes →
      Region.Contains m ⟨(world.slab slab).page, pagesPerSlab⟩ later := by
    rintro later ⟨fromAddress, toEnd⟩
    exact ⟨Nat.le_trans lower fromAddress, Nat.lt_of_lt_of_le toEnd upper⟩
  refine of_inside owns rfl ?_ ?_
  · intro later alsoSlab
    refine congrArg Slab.page (if_neg fun within => ?_)
    exact owns.slab_outside_chunks alsoSlab isSlab hasPages (insidePages later within)
  · intro later outside
    refine if_neg fun within => ?_
    exact outside _ (Or.inr ⟨slab, isSlab, hasPages, rfl⟩) (insidePages later within)

theorem writeLink (owns : Owns pagesPerSlab world obtained) {link : Link ListName Nat}
    (isLink : ∀ slab, link = .next slab → IsSlab m obtained slab) (value : Nat) :
    Confined pagesPerSlab world obtained (writeLink cache world link value).2 obtained := by
  cases link with
  | head name => exact refl pagesPerSlab world obtained
  | next slab => exact modify owns (isLink slab rfl) (fun s => { s with next := value }) rfl

theorem moveSlab (owns : Owns pagesPerSlab world obtained) {link : Link ListName Nat}
    (isLink : ∀ slab, link = .next slab → IsSlab m obtained slab) {slab : Nat}
    (isSlab : IsSlab m obtained slab) (target : ListName) :
    Confined pagesPerSlab world obtained (moveSlab cache world link slab target).2 obtained := by
  have keep : ∀ {before later : World m}, Owns pagesPerSlab before obtained →
      OnlyNext before later → Owns pagesPerSlab later obtained := by
    intro before later ownsBefore onlyNext
    apply ownsBefore.congr fun slab _isSlab => onlyNext.page slab
    intro region isHeld
    rw [onlyNext.held]
    exact isHeld
  have isNext : ∀ later, (.next slab : Link ListName Nat) = .next later →
      IsSlab m obtained later := by
    intro later same
    cases same
    exact isSlab
  have notNext : ∀ later, (.head target : Link ListName Nat) = .next later →
      IsSlab m obtained later := by
    intro later same
    cases same
  unfold SlabCache.moveSlab
  dsimp only
  have unlinked := keep owns (OnlyNext.writeLink cache world link (world.slab slab).next)
  apply (writeLink owns isLink (world.slab slab).next).trans
  apply (writeLink unlinked isNext _).trans
  exact writeLink (keep unlinked (OnlyNext.writeLink _ _ _ _)) notNext slab

/-- The link after some slabs of a list is in the cache. -/
theorem isSlab_of_linkAfter {nodes : ListName → List Nat} {name : ListName} {before rest : List Nat}
    {slab : Nat} (consistent : Consistent cache world obtained nodes)
    (split : nodes name = before ++ slab :: rest) (later : Nat)
    (isNext : linkAfter (.head name) before = .next later) : IsSlab m obtained later := by
  rcases linkAfter_cases (.head name) before with isHead | ⟨last, isMember, isLast⟩
  · rw [isHead] at isNext
    cases isNext
  · rw [isLast] at isNext
    cases isNext
    have onList : later ∈ nodes name := by
      rw [split]
      exact List.mem_append_left _ isMember
    exact consistent.isSlab onList

theorem attach (owns : Owns pagesPerSlab world obtained) {flags : BitVec 32} {address slab : Nat}
    (granted : Granted world after pagesPerSlab flags address) (positive : 1 ≤ pagesPerSlab)
    (isSlab : IsSlab m obtained slab) :
    Confined pagesPerSlab world obtained (after.modify slab (fun s => { s with page := address }))
      obtained where
  stillHeld := by
    intro region isHeld _unused
    change region ∈ after.held.regions
    rw [granted.held]
    exact List.mem_cons_of_mem _ isHeld
  sameSlab := by
    intro region isHeld unused later contains
    rw [World.modify_of_ne _ _ (not_slab owns isSlab isHeld unused contains)]
    exact granted.outside later fun within =>
      (granted.fresh region isHeld).not_contains within contains
  onlyNew := by
    rintro region (⟨base, isMember, rfl⟩ | ⟨later, alsoSlab, attached, rfl⟩)
    · exact Or.inl (Or.inl ⟨base, isMember, rfl⟩)
    · by_cases same : later = slab
      · rw [same, World.modify_self]
        exact Or.inr (not_held_of_fresh positive granted.fresh positive)
      · rw [World.modify_of_ne _ _ same, (granted.keeps owns).sameSlab later alsoSlab] at attached ⊢
        exact Or.inl (Or.inr ⟨later, alsoSlab, attached, rfl⟩)

theorem detachPages (owns : Owns cache.pagesPerSlab world obtained) {slab : Nat}
    (isSlab : IsSlab m obtained slab) (hasPages : (world.slab slab).page ≠ 0) :
    Confined cache.pagesPerSlab world obtained (detachPages cache world slab) obtained := by
  unfold SlabCache.detachPages
  by_cases returns : cache.gfpFlags &&& gfpAtomic = 0#32
  · rw [if_pos returns]
    refine ⟨?_, ?_, ?_⟩
    · intro region isHeld unused
      refine (List.mem_erase_of_ne fun same => unused ?_).mpr isHeld
      exact Or.inr ⟨slab, isSlab, hasPages, same⟩
    · intro region isHeld unused later contains
      exact World.modify_of_ne _ _ (not_slab owns isSlab isHeld unused contains)
    · rintro region (⟨base, isMember, rfl⟩ | ⟨later, alsoSlab, attached, rfl⟩)
      · exact Or.inl (Or.inl ⟨base, isMember, rfl⟩)
      · by_cases same : later = slab
        · rw [same, World.modify_self] at attached
          exact absurd rfl attached
        · rw [World.modify_of_ne _ _ same] at attached ⊢
          exact Or.inl (Or.inr ⟨later, alsoSlab, attached, rfl⟩)
  · rw [if_neg returns]
    exact refl _ _ _

theorem grown {base : Nat} (owns : Owns pagesPerSlab world obtained)
    (grown : Grown world after base) :
    Confined pagesPerSlab world obtained after (base :: obtained) where
  stillHeld := by
    intro region isHeld _unused
    rw [grown.held]
    exact List.mem_cons_of_mem _ isHeld
  sameSlab := by
    intro region isHeld _unused slab contains
    apply grown.old
    rintro ⟨lower, upper⟩
    apply (grown.fresh region isHeld).not_contains _ contains
    exact ⟨lower, by rwa [Nat.one_mul]⟩
  onlyNew := by
    rintro region (⟨page, isMember, rfl⟩ | ⟨slab, isSlab, attached, rfl⟩)
    · rcases List.mem_cons.mp isMember with rfl | isOld
      · exact Or.inr (not_held_of_fresh Nat.one_pos grown.fresh Nat.one_pos)
      · exact Or.inl (Or.inl ⟨page, isOld, rfl⟩)
    · rcases isSlab_cons.mp isSlab with isNew | isOld
      · exact absurd (grown.page slab isNew) attached
      · rw [grown.old_slab owns isOld] at attached ⊢
        exact Or.inl (Or.inr ⟨slab, isOld, attached, rfl⟩)

end Confined

end SlabCache
end ShovelOS
