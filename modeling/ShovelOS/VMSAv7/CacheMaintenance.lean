import Mathlib.Data.Nat.Log
import Mathlib.Data.List.Nodup
import Mathlib.Tactic.Ring

namespace ShovelOS
namespace VMSAv7

/-!
# Cache maintenance by set and way (`arch/arm_a/mm/VMSAv7/cache.c`)

A data cache is cleaned or invalidated line by line.  Each operation takes a
word that names the line: the way in the top bits, the set above the bits of
the byte offset in a line, and the level in bits three to one.  How many bits
the way takes is the logarithm of the associativity, rounded up.

The geometry of a cache is read from `CCSIDR` after the cache has been
selected in `CSSELR`.  The model takes the contents of `CCSIDR` for every
selection as a parameter, and returns the operations in the order in which
they are issued.
-/

/-! ## The logarithms -/

/-- The loop of `_log2`.  A word is zero after 32 shifts. -/
def log2From : Nat → BitVec 32 → BitVec 32 → BitVec 32
  | 0, _l, r => r
  | remaining + 1, l, r =>
      let l := l >>> 1
      if l ≠ 0#32 then log2From remaining l (r + 1#32) else r

def _log2 (l : BitVec 32) : BitVec 32 := log2From 32 l 0#32

def _log2Roundup (l : BitVec 32) : BitVec 32 :=
  let r := _log2 l
  if l > 1#32 <<< r.toNat then r + 1#32 else r

theorem log2From_spec (remaining : Nat) (l r : BitVec 32) (enough : l.toNat < 2 ^ (remaining + 1))
    (small : r.toNat + remaining < 2 ^ 32) :
    (log2From remaining l r).toNat = r.toNat + Nat.log 2 l.toNat := by
  induction remaining generalizing l r with
  | zero =>
      have bit : l.toNat < 2 := enough
      rw [log2From, Nat.log_of_lt bit, Nat.add_zero]
  | succ remaining inductionHypothesis =>
      rw [log2From]
      have halved : (l >>> 1).toNat = l.toNat / 2 := by
        rw [BitVec.toNat_ushiftRight, Nat.shiftRight_eq_div_pow, Nat.pow_one]
      have isZero : l >>> 1 = 0#32 ↔ l.toNat / 2 = 0 := by
        rw [← halved, ← BitVec.toNat_inj]
        rfl
      by_cases done : l >>> 1 = 0#32
      · have bit : l.toNat < 2 := by
          have := isZero.mp done
          omega
        rw [if_neg (not_not_intro done), Nat.log_of_lt bit, Nat.add_zero]
      · have next : (r + 1#32).toNat = r.toNat + 1 := by
          rw [BitVec.toNat_add]
          exact Nat.mod_eq_of_lt (by simp only [BitVec.toNat_ofNat]; omega)
        have more : 2 ≤ l.toNat := by
          have := mt isZero.mpr done
          omega
        rw [if_pos done, inductionHypothesis _ _ (by rw [halved]; omega) (by omega), next, halved,
          Nat.log_of_one_lt_of_le (by decide) more]
        omega

theorem _log2_eq (l : BitVec 32) : (_log2 l).toNat = Nat.log 2 l.toNat := by
  rw [_log2, log2From_spec 32 l 0#32 (Nat.lt_trans l.isLt (by decide)) (by decide)]
  exact Nat.zero_add _

theorem log_lt (l : BitVec 32) : Nat.log 2 l.toNat < 32 := by
  rcases Nat.eq_zero_or_pos l.toNat with zero | positive
  · rw [zero, Nat.log_zero_right]
    decide
  · exact Nat.log_lt_of_lt_pow (Nat.ne_of_gt positive) l.isLt

/-- `_log2_roundup` is the logarithm rounded up. -/
theorem _log2Roundup_eq (l : BitVec 32) : (_log2Roundup l).toNat = Nat.clog 2 l.toNat := by
  have below := log_lt l
  have power : (1#32 <<< (_log2 l).toNat).toNat = 2 ^ Nat.log 2 l.toNat := by
    rw [_log2_eq, BitVec.toNat_shiftLeft, Nat.shiftLeft_eq, BitVec.toNat_ofNat]
    have small : 2 ^ Nat.log 2 l.toNat < 2 ^ 32 := Nat.pow_lt_pow_right (by decide) below
    rw [show 1 % 2 ^ 32 = 1 by decide, Nat.one_mul, Nat.mod_eq_of_lt small]
  rw [_log2Roundup]
  by_cases more : l > 1#32 <<< (_log2 l).toNat
  · have above : 2 ^ Nat.log 2 l.toNat < l.toNat := by
      rw [← power]
      exact more
    rw [if_pos more, BitVec.toNat_add, _log2_eq]
    rw [show (1#32).toNat = 1 by rfl, Nat.mod_eq_of_lt (by omega)]
    refine Nat.le_antisymm ?_ ?_
    · exact (Nat.lt_clog_iff_pow_lt (by decide)).mpr above
    · exact (Nat.clog_le_iff_le_pow (by decide)).mpr
        (Nat.le_of_lt (Nat.lt_pow_succ_log_self (by decide) _))
  · have most : l.toNat ≤ 2 ^ Nat.log 2 l.toNat := by
      rw [← power]
      exact Nat.le_of_not_lt more
    rw [if_neg more, _log2_eq]
    exact Nat.le_antisymm (Nat.log_le_clog _ _) ((Nat.clog_le_iff_le_pow (by decide)).mpr most)

/-! ## The operations -/

inductive DcacheOp where
  | clean
  | invalidate
  | cleanInvalidate
  deriving DecidableEq

/-- `encode_set_way`.  A way is shifted by 32 only if there is one way, and
that is way zero. -/
def encodeSetWay (cacheLevel associativity lineword set way : BitVec 32) : BitVec 32 :=
  let a := _log2Roundup associativity
  (way <<< (32#32 - a).toNat) ||| (set <<< lineword.toNat) ||| (cacheLevel <<< 1)

structure CacheGeometry where
  nsets : BitVec 32
  associativity : BitVec 32
  lineword : BitVec 32
  deriving DecidableEq

/-- The geometry, as `dcache_do_level` reads it. -/
def cacheGeometry (ccsidr : BitVec 32) : CacheGeometry where
  nsets := 1#32 + ((ccsidr &&& 0x0FFFE000#32) >>> 13)
  associativity := 1#32 + ((ccsidr &&& 0x00001FF8#32) >>> 3)
  lineword := 4#32 + ((ccsidr &&& 0x00000007#32) >>> 0)

/-- `dcache_do_level`: the operations, each with the word that is written to
its register.  `ccsidr` is what `CCSIDR` reads for a value of `CSSELR`. -/
def dcacheDoLevel (ccsidr : BitVec 32 → BitVec 32) (op : DcacheOp) (level : BitVec 32) :
    List (DcacheOp × BitVec 32) :=
  let geometry := cacheGeometry (ccsidr (level <<< 1))
  (List.range geometry.associativity.toNat).flatMap fun way =>
    (List.range geometry.nsets.toNat).map fun set =>
      (op, encodeSetWay level geometry.associativity geometry.lineword (BitVec.ofNat 32 set)
        (BitVec.ofNat 32 way))

/-- The types of a level that has a data or a unified cache. -/
def hasDataCache (ctype : BitVec 32) : Bool := ctype = 2#32 || ctype = 3#32 || ctype = 4#32

def dcacheDoAll (clidr : BitVec 32) (ccsidr : BitVec 32 → BitVec 32) (op : DcacheOp) :
    List (DcacheOp × BitVec 32) :=
  (List.range 7).flatMap fun index =>
    let ctype := (clidr >>> (index * 3)) &&& 7#32
    if hasDataCache ctype then dcacheDoLevel ccsidr op (BitVec.ofNat 32 index) else []

/-! ## What the words name -/

/-- A line of the caches. -/
structure CacheLine where
  level : Nat
  set : Nat
  way : Nat
  deriving DecidableEq

namespace CacheGeometry

variable (geometry : CacheGeometry)

/-- The number of bits of a set, rounded up. -/
def setBits : Nat := Nat.clog 2 geometry.nsets.toNat

/-- The number of bits of a way, rounded up. -/
def wayBits : Nat := Nat.clog 2 geometry.associativity.toNat

/-- The fields of a word fit next to each other. -/
def Fits : Prop := geometry.lineword.toNat + geometry.setBits + geometry.wayBits ≤ 32

/-- The line that a word names, by the architecture's placement of the
fields. -/
def decodeSetWay (word : BitVec 32) : CacheLine where
  level := word.toNat / 2 % 8
  set := word.toNat / 2 ^ geometry.lineword.toNat % 2 ^ geometry.setBits
  way := word.toNat / 2 ^ (32 - geometry.wayBits)

/-- All lines of a cache, way by way. -/
def lines (level : Nat) : List CacheLine :=
  (List.range geometry.associativity.toNat).flatMap fun way =>
    (List.range geometry.nsets.toNat).map fun set => ⟨level, set, way⟩

theorem mem_lines {level : Nat} {line : CacheLine} :
    line ∈ geometry.lines level ↔
      line.level = level ∧ line.set < geometry.nsets.toNat ∧
        line.way < geometry.associativity.toNat := by
  rw [lines, List.mem_flatMap]
  constructor
  · rintro ⟨way, isWay, isLine⟩
    rcases List.mem_map.mp isLine with ⟨set, isSet, rfl⟩
    exact ⟨rfl, List.mem_range.mp isSet, List.mem_range.mp isWay⟩
  · rintro ⟨rfl, isSet, isWay⟩
    exact ⟨line.way, List.mem_range.mpr isWay,
      List.mem_map.mpr ⟨line.set, List.mem_range.mpr isSet, rfl⟩⟩

theorem lines_nodup (level : Nat) : (geometry.lines level).Nodup := by
  rw [lines, List.nodup_flatMap]
  refine ⟨fun way _ => List.nodup_range.map fun set set' same => (CacheLine.mk.inj same).2.1, ?_⟩
  refine List.nodup_range.imp fun {way way'} different line isLine isLine' => different ?_
  rcases List.mem_map.mp isLine with ⟨set, _, rfl⟩
  rcases List.mem_map.mp isLine' with ⟨set', _, same⟩
  exact (CacheLine.mk.inj same).2.2.symm

end CacheGeometry

/-- A line has at least sixteen bytes, so that the level lies below the set. -/
theorem four_le_lineword (ccsidr : BitVec 32) : 4 ≤ (cacheGeometry ccsidr).lineword.toNat := by
  change 4 ≤ (4#32 + ((ccsidr &&& 0x00000007#32) >>> 0)).toNat
  have small : ((ccsidr &&& 0x00000007#32) >>> 0).toNat ≤ 7 := Nat.and_le_right
  rw [BitVec.toNat_add, show (4#32).toNat = 4 by rfl, Nat.mod_eq_of_lt (by omega)]
  exact Nat.le_add_right _ _

/-- Three values that each fit below the next one are the sum of their
places. -/
theorem or_of_fields {low middle high lowBits middleBits : Nat} (lowFits : low < 2 ^ lowBits)
    (middleFits : 2 ^ lowBits * middle + low < 2 ^ middleBits) :
    2 ^ middleBits * high ||| 2 ^ lowBits * middle ||| low =
      2 ^ middleBits * high + (2 ^ lowBits * middle + low) := by
  rw [Nat.or_assoc, ← Nat.two_pow_add_eq_or_of_lt lowFits, ← Nat.two_pow_add_eq_or_of_lt middleFits]

theorem toNat_ofNat_shiftLeft {value shift : Nat} (fits : 2 ^ shift * value < 2 ^ 32) :
    (BitVec.ofNat 32 value <<< shift).toNat = 2 ^ shift * value := by
  have small : value < 2 ^ 32 :=
    Nat.lt_of_le_of_lt (Nat.le_mul_of_pos_left value (Nat.two_pow_pos shift)) fits
  rw [BitVec.toNat_shiftLeft, BitVec.toNat_ofNat, Nat.mod_eq_of_lt small, Nat.shiftLeft_eq,
    Nat.mul_comm, Nat.mod_eq_of_lt fits]

section Words

variable {geometry : CacheGeometry} (lineBytes : 4 ≤ geometry.lineword.toNat) (fits : geometry.Fits)
variable {level set way : Nat} (isLevel : level ≤ 6) (isSet : set < geometry.nsets.toNat)
variable (isWay : way < geometry.associativity.toNat)

include isSet in
theorem set_lt : set < 2 ^ geometry.setBits :=
  Nat.lt_of_lt_of_le isSet (Nat.le_pow_clog (by decide) _)

include isWay in
theorem way_lt : way < 2 ^ geometry.wayBits :=
  Nat.lt_of_lt_of_le isWay (Nat.le_pow_clog (by decide) _)

include lineBytes isLevel in
theorem level_lt : 2 * level < 2 ^ geometry.lineword.toNat :=
  Nat.lt_of_lt_of_le (by omega : 2 * level < 2 ^ 4) (Nat.pow_le_pow_right (by decide) lineBytes)

include fits in
theorem wayBits_le : geometry.wayBits ≤ 32 := Nat.le_trans (Nat.le_add_left _ _) fits

include lineBytes fits isLevel isSet in
/-- The set and the level end below the way. -/
theorem set_level_lt :
    2 ^ geometry.lineword.toNat * set + 2 * level < 2 ^ (32 - geometry.wayBits) := by
  have setBelow := set_lt isSet
  have levelBelow := level_lt lineBytes isLevel
  have room : geometry.lineword.toNat + geometry.setBits ≤ 32 - geometry.wayBits :=
    Nat.le_sub_of_add_le fits
  calc 2 ^ geometry.lineword.toNat * set + 2 * level
      < 2 ^ geometry.lineword.toNat * set + 2 ^ geometry.lineword.toNat :=
        Nat.add_lt_add_left levelBelow _
    _ = 2 ^ geometry.lineword.toNat * (set + 1) := (Nat.mul_succ _ _).symm
    _ ≤ 2 ^ geometry.lineword.toNat * 2 ^ geometry.setBits := Nat.mul_le_mul_left _ setBelow
    _ = 2 ^ (geometry.lineword.toNat + geometry.setBits) := (Nat.pow_add _ _ _).symm
    _ ≤ 2 ^ (32 - geometry.wayBits) := Nat.pow_le_pow_right (by decide) room

include fits isWay in
/-- The way ends with the word. -/
theorem way_shifted_lt : 2 ^ (32 - geometry.wayBits) * way < 2 ^ 32 := by
  have split : 2 ^ (32 - geometry.wayBits) * 2 ^ geometry.wayBits = 2 ^ 32 := by
    rw [← Nat.pow_add, Nat.sub_add_cancel (wayBits_le fits)]
  rw [← split]
  exact Nat.mul_lt_mul_of_pos_left (way_lt isWay) (Nat.two_pow_pos _)

include lineBytes fits isLevel isSet isWay

/-- The word of a line is the sum of its fields, each in its place. -/
theorem encodeSetWay_toNat :
    (encodeSetWay (BitVec.ofNat 32 level) geometry.associativity geometry.lineword
      (BitVec.ofNat 32 set)
        (BitVec.ofNat 32 way)).toNat =
      2 ^ (32 - geometry.wayBits) * way + (2 ^ geometry.lineword.toNat * set + 2 * level) := by
  have below := set_level_lt lineBytes fits isLevel isSet
  have wordBelow : 2 ^ (32 - geometry.wayBits) ≤ 2 ^ 32 :=
    Nat.pow_le_pow_right (by decide) (Nat.sub_le _ _)
  have shift : (32#32 - _log2Roundup geometry.associativity).toNat = 32 - geometry.wayBits := by
    have atMost : (_log2Roundup geometry.associativity).toNat ≤ 32 := by
      rw [_log2Roundup_eq]
      exact wayBits_le fits
    rw [BitVec.toNat_sub_of_le (BitVec.le_def.mpr atMost), _log2Roundup_eq]
    rfl
  rw [encodeSetWay, BitVec.toNat_or, BitVec.toNat_or, shift,
    toNat_ofNat_shiftLeft (way_shifted_lt fits isWay),
    toNat_ofNat_shiftLeft (by omega), toNat_ofNat_shiftLeft (by omega), Nat.pow_one]
  exact or_of_fields (level_lt lineBytes isLevel) below

theorem decodeSetWay_encodeSetWay :
    geometry.decodeSetWay
      (encodeSetWay (BitVec.ofNat 32 level) geometry.associativity geometry.lineword
        (BitVec.ofNat 32 set) (BitVec.ofNat 32 way)) = ⟨level, set, way⟩ := by
  have below := set_level_lt lineBytes fits isLevel isSet
  have levelBelow := level_lt lineBytes isLevel
  have setBelow := set_lt isSet
  have room : geometry.lineword.toNat + geometry.setBits ≤ 32 - geometry.wayBits :=
    Nat.le_sub_of_add_le fits
  rw [CacheGeometry.decodeSetWay, encodeSetWay_toNat lineBytes fits isLevel isSet isWay]
  generalize geometry.setBits = setBits at setBelow room
  generalize 32 - geometry.wayBits = wayStart at below room
  generalize geometry.lineword.toNat = lineword at lineBytes below levelBelow room
  obtain ⟨gap, rfl⟩ := Nat.exists_eq_add_of_le room
  obtain ⟨rest, rfl⟩ := Nat.exists_eq_add_of_le lineBytes
  congr 1
  · have regroup : 2 ^ (4 + rest + setBits + gap) * way + (2 ^ (4 + rest) * set + 2 * level) =
        2 * (8 * (2 ^ (rest + setBits + gap) * way + 2 ^ rest * set) + level) := by ring
    rw [regroup, Nat.mul_div_cancel_left _ (by decide), Nat.mul_add_mod,
      Nat.mod_eq_of_lt (by omega)]
  · have regroup : 2 ^ (4 + rest + setBits + gap) * way + (2 ^ (4 + rest) * set + 2 * level) =
        2 ^ (4 + rest) * (2 ^ setBits * (2 ^ gap * way) + set) + 2 * level := by ring
    rw [regroup, Nat.mul_add_div (Nat.two_pow_pos _), Nat.div_eq_of_lt levelBelow, Nat.add_zero,
      Nat.mul_add_mod, Nat.mod_eq_of_lt setBelow]
  · rw [Nat.mul_add_div (Nat.two_pow_pos _), Nat.div_eq_of_lt below, Nat.add_zero]

end Words

/-! ## Every line once -/

section Levels

variable {ccsidr : BitVec 32 → BitVec 32} {level : Nat}

/-- The geometry of the cache that `dcache_do_level` selects for a level. -/
def geometryOf (ccsidr : BitVec 32 → BitVec 32) (level : Nat) : CacheGeometry :=
  cacheGeometry (ccsidr (BitVec.ofNat 32 level <<< 1))

/-- Decoded, the words of a level are its lines in order. -/
theorem dcacheDoLevel_lines (op : DcacheOp) (isLevel : level ≤ 6)
    (fits : (geometryOf ccsidr level).Fits) :
    (dcacheDoLevel ccsidr op (BitVec.ofNat 32 level)).map
        (fun issued => (issued.1, (geometryOf ccsidr level).decodeSetWay issued.2)) =
      ((geometryOf ccsidr level).lines level).map fun line => (op, line) := by
  have lineBytes : 4 ≤ (geometryOf ccsidr level).lineword.toNat := four_le_lineword _
  rw [dcacheDoLevel, CacheGeometry.lines, List.map_flatMap, List.map_flatMap]
  refine List.flatMap_congr fun way isWay => ?_
  rw [List.map_map, List.map_map]
  refine List.map_congr_left fun set isSet => ?_
  exact congrArg (Prod.mk op)
    (decodeSetWay_encodeSetWay lineBytes fits isLevel (List.mem_range.mp isSet)
    (List.mem_range.mp isWay))

/-- Every operation that is issued for a level is the one asked for, and names
a line of the level. -/
theorem issued_names_line {op : DcacheOp} (isLevel : level ≤ 6)
    (fits : (geometryOf ccsidr level).Fits)
    {issued : DcacheOp × BitVec 32}
    (isIssued : issued ∈ dcacheDoLevel ccsidr op (BitVec.ofNat 32 level)) :
    issued.1 = op ∧
      (geometryOf ccsidr level).decodeSetWay issued.2 ∈ (geometryOf ccsidr level).lines level := by
  have isNamed := List.mem_map_of_mem (f := fun issued : DcacheOp × BitVec 32 =>
    (issued.1, (geometryOf ccsidr level).decodeSetWay issued.2)) isIssued
  rw [dcacheDoLevel_lines op isLevel fits] at isNamed
  rcases List.mem_map.mp isNamed with ⟨line, isLine, same⟩
  rcases Prod.mk.inj same with ⟨sameOp, names⟩
  exact ⟨sameOp.symm, names ▸ isLine⟩

/-- The decoded words of a level, without the operation. -/
theorem dcacheDoLevel_decoded (op : DcacheOp) (isLevel : level ≤ 6)
    (fits : (geometryOf ccsidr level).Fits) :
    ((dcacheDoLevel ccsidr op (BitVec.ofNat 32 level)).map Prod.snd).map
      (geometryOf ccsidr level).decodeSetWay = (geometryOf ccsidr level).lines level := by
  have withOp := dcacheDoLevel_lines op isLevel fits
  have lines := congrArg (List.map Prod.snd) withOp
  simp only [List.map_map, Function.comp_def, List.map_id'] at lines ⊢
  exact lines

end Levels

def levelType (clidr : BitVec 32) (index : Nat) : BitVec 32 := (clidr >>> (index * 3)) &&& 7#32

/-- Maintenance of all caches issues no word twice, and what it issues for a
level with a data cache is what it issues for that level alone. -/
theorem dcacheDoAll_spec (clidr : BitVec 32) (ccsidr : BitVec 32 → BitVec 32) (op : DcacheOp)
    (fits : ∀ level, level ≤ 6 → hasDataCache (levelType clidr level) →
      (geometryOf ccsidr level).Fits) :
    ((dcacheDoAll clidr ccsidr op).map Prod.snd).Nodup ∧
    ∀ level issued, level ≤ 6 →
      (issued ∈ dcacheDoAll clidr ccsidr op ∧ issued.2.toNat / 2 % 8 = level ↔
        hasDataCache (levelType clidr level) ∧
          issued ∈ dcacheDoLevel ccsidr op (BitVec.ofNat 32 level)) := by
  have levelField : ∀ {level issued}, level ≤ 6 → hasDataCache (levelType clidr level) →
      issued ∈ dcacheDoLevel ccsidr op (BitVec.ofNat 32 level) →
      issued.2.toNat / 2 % 8 = level := by
    intro level issued isLevel hasCache isIssued
    have names := (issued_names_line isLevel (fits level isLevel hasCache) isIssued).2
    exact ((geometryOf ccsidr level).mem_lines.mp names).1
  have issuedAt : ∀ {level issued}, issued ∈ (if hasDataCache (levelType clidr level) then
        dcacheDoLevel ccsidr op (BitVec.ofNat 32 level) else []) ↔
      hasDataCache (levelType clidr level) ∧
        issued ∈ dcacheDoLevel ccsidr op (BitVec.ofNat 32 level) := by
    intro level issued
    split
    · rename_i hasCache
      exact (and_iff_right hasCache).symm
    · rename_i noCache
      exact iff_of_false List.not_mem_nil fun both => noCache both.1
  constructor
  · rw [dcacheDoAll, List.map_flatMap, List.nodup_flatMap]
    refine ⟨fun level isLevel => ?_, ?_⟩
    · have atMost : level ≤ 6 := Nat.le_of_lt_succ (List.mem_range.mp isLevel)
      change ((if hasDataCache (levelType clidr level) then _ else []).map Prod.snd).Nodup
      split
      · rename_i hasCache
        have decoded := dcacheDoLevel_decoded op atMost (fits level atMost hasCache)
        exact List.Nodup.of_map _ (decoded ▸ (geometryOf ccsidr level).lines_nodup level)
      · exact List.nodup_nil
    · refine List.pairwise_lt_range.imp_of_mem ?_
      intro level level' isLevel isLevel' below word isWord isWord'
      rcases List.mem_map.mp isWord with ⟨issued, isIssued, rfl⟩
      rcases List.mem_map.mp isWord' with ⟨issued', isIssued', same⟩
      rcases issuedAt.mp isIssued with ⟨hasCache, isIssued⟩
      rcases issuedAt.mp isIssued' with ⟨hasCache', isIssued'⟩
      have first := levelField (Nat.le_of_lt_succ (List.mem_range.mp isLevel)) hasCache isIssued
      have second := levelField (Nat.le_of_lt_succ (List.mem_range.mp isLevel')) hasCache' isIssued'
      rw [same, first] at second
      exact absurd second (Nat.ne_of_lt below)
  · intro level issued isLevel
    rw [dcacheDoAll, List.mem_flatMap]
    constructor
    · rintro ⟨⟨index, isIndex, isIssued⟩, field⟩
      rcases issuedAt.mp isIssued with ⟨hasCache, isIssued⟩
      have same := levelField (Nat.le_of_lt_succ (List.mem_range.mp isIndex)) hasCache isIssued
      rw [← field, same]
      exact ⟨hasCache, isIssued⟩
    · rintro ⟨hasCache, isIssued⟩
      exact ⟨⟨level, List.mem_range.mpr (Nat.lt_succ_of_le isLevel),
        issuedAt.mpr ⟨hasCache, isIssued⟩⟩, levelField isLevel hasCache isIssued⟩

end VMSAv7
end ShovelOS
