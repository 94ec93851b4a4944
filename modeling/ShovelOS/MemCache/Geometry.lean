import ShovelOS.MemCache.Cache
import Mathlib.Tactic.Linarith

namespace ShovelOS
namespace SlabCache

open LinkedList Bitmap

/-!
# Sizes

What the accepted sizes of a cache imply: the chunks of a slab lie in its pages,
each has a bit in the bitmap, and a page has room for at least one slab
structure.  This holds for any chunk size for which the sum in `BITMAP_BYTES`
does not wrap.  When the chunk size is a power of two that divides the page
size, the chunks fill the pages of the slab exactly.
-/

variable {m : Machine}

/-- The sizes of a cache that `mem_cache_new` has accepted, with a slab size
that is a word and a chunk size that is a power of two dividing the page
size. -/
structure Shape (m : Machine) (cache : MemCache) : Prop where
  one_le_pagesPerSlab : 1 ≤ cache.pagesPerSlab
  noOverflow : cache.pagesPerSlab * m.pageSize < m.wordLimit
  powerOfTwo : ∃ shift, cache.chunkSz = 2 ^ shift
  dvd_pageSize : cache.chunkSz ∣ m.pageSize
  bitmapFits : bitmapWords m cache.pagesPerSlab cache.chunkSz ≤ maxBitmapWords m

theorem pageSize_dvd_wordLimit (m : Machine) : m.pageSize ∣ m.wordLimit :=
  Nat.pow_dvd_pow 2 (Nat.le_of_lt m.pageShift_lt_wordTBits)

/-- The chunks of a slab, with one for what is left over behind the last. -/
def bitsNeeded (m : Machine) (pages chunk : Nat) : Nat := (pages * m.pageSize + (chunk - 1)) / chunk

/-- The chunks that fill some pages. -/
theorem bitsNeeded_eq {pages chunk chunks : Nat} (positive : 0 < chunk)
    (size : pages * m.pageSize = chunks * chunk) : bitsNeeded m pages chunk = chunks := by
  rw [bitsNeeded, size, Nat.add_comm, Nat.add_mul_div_right _ _ positive,
    Nat.div_eq_of_lt (by omega), Nat.zero_add]

/-- A chunk starts at every address of the slab, or lies in front of it. -/
theorem div_lt_bitsNeeded {pages chunk offset : Nat} (positive : 0 < chunk)
    (inside : offset < pages * m.pageSize) : offset / chunk < bitsNeeded m pages chunk := by
  apply Nat.lt_of_succ_le
  rw [bitsNeeded, Nat.le_div_iff_mul_le positive, Nat.succ_mul]
  have whole := Nat.div_mul_le_self offset chunk
  omega

/-- The bitmap words when the size of the slab does not overflow. -/
theorem bitmapWords_eq {pages chunk : Nat} (below : pages * m.pageSize + (chunk - 1) < m.wordLimit)
    (few : bitsNeeded m pages chunk + 8 ≤ m.wordLimit) :
    bitmapWords m pages chunk =
      ((bitsNeeded m pages chunk + 7) / 8 + (m.wordTBytes - 1)) / m.wordTBytes := by
  have large := m.two_pow_32_le_wordLimit
  have bytes : bitmapBytes m pages chunk = (bitsNeeded m pages chunk + 7) / 8 := by
    unfold bitmapBytes
    rw [Nat.mod_eq_of_lt below, ← bitsNeeded, Nat.mod_eq_of_lt (by omega)]
  have narrow : m.wordTBytes ≤ 8 := by
    unfold Machine.wordTBytes
    rcases m.wordTBits_eq with width | width <;> omega
  rw [bitmapWords, bytes, Nat.mod_eq_of_lt (by omega)]

/-- `MAX_BITMAP_WORDS` is the bitmap of a page of the smallest chunks. -/
theorem maxBitmapWords_eq (m : Machine) :
    maxBitmapWords m =
      ((m.pageSize / 32 + 7) / 8 + (m.wordTBytes - 1)) / m.wordTBytes := by
  have large := m.two_pow_32_le_wordLimit
  have small : m.pageSize ≤ 2 ^ 31 :=
    Nat.pow_le_pow_right (by decide) (Nat.le_of_lt_succ m.pageShift_lt)
  have whole : m.pageSize / 32 * 32 = m.pageSize :=
    Nat.div_mul_cancel (Nat.pow_dvd_pow 2 m.five_le_pageShift)
  have fill : 1 * m.pageSize = m.pageSize / 32 * 32 := by rw [Nat.one_mul, whole]
  have chunks := bitsNeeded_eq (by decide) fill
  have below : 1 * m.pageSize + (32 - 1) < m.wordLimit := by omega
  have few : bitsNeeded m 1 32 + 8 ≤ m.wordLimit := by omega
  have words := bitmapWords_eq below few
  rw [chunks] at words
  exact words

/-- A page has room for a slab structure. -/
theorem slabBytes_le_pageSize (m : Machine) : slabBytes m ≤ m.pageSize := by
  have enough := m.thirtyTwo_le_pageSize
  rw [slabBytes, maxBitmapWords_eq]
  unfold Machine.wordTBytes
  rcases m.wordTBits_eq with width | width <;> rw [width] <;> omega

theorem slabBytes_pos (m : Machine) : 0 < slabBytes m :=
  Nat.mul_pos m.wordTBytes_pos (Nat.succ_pos _)

theorem slabsPerPage_pos (m : Machine) : 0 < slabsPerPage m :=
  Nat.div_pos (slabBytes_le_pageSize m) (slabBytes_pos m)

/-- A request for one slab takes one page. -/
theorem pages_for_one_slab (m : Machine) :
    (1 + (slabsPerPage m - 1)) % m.wordLimit / slabsPerPage m = 1 := by
  have positive := slabsPerPage_pos m
  have small : slabsPerPage m ≤ m.pageSize := Nat.div_le_self _ _
  have below : m.pageSize < m.wordLimit :=
    Nat.pow_lt_pow_right (by decide) m.pageShift_lt_wordTBits
  rw [show 1 + (slabsPerPage m - 1) = slabsPerPage m by omega,
    Nat.mod_eq_of_lt (Nat.lt_of_le_of_lt small below), Nat.div_self positive]

def bitmapBits (m : Machine) : Nat := maxBitmapWords m * m.wordTBits

/-- The pages of a slab leave at least a page of the address space. -/
theorem slab_add_pageSize_le {pages : Nat} (noOverflow : pages * m.pageSize < m.wordLimit) :
    pages * m.pageSize + m.pageSize ≤ m.wordLimit := by
  rcases pageSize_dvd_wordLimit m with ⟨all, limit⟩
  have fewer : pages < all := by
    apply Nat.lt_of_mul_lt_mul_left (a := m.pageSize)
    rw [← limit, Nat.mul_comm]
    exact noOverflow
  have grown := Nat.mul_le_mul_right m.pageSize fewer
  rw [Nat.succ_mul] at grown
  rw [limit, Nat.mul_comm m.pageSize all]
  exact grown

/-- A bitmap that is accepted has the bits needed, unless the sum in
`BITMAP_BYTES` wraps. -/
theorem bitsNeeded_le_bitmapBits {pages chunk : Nat} (positive : 0 < chunk)
    (noOverflow : pages * m.pageSize < m.wordLimit)
    (noWrap : pages * m.pageSize + (chunk - 1) < m.wordLimit)
    (fits : bitmapWords m pages chunk ≤ maxBitmapWords m) :
    bitsNeeded m pages chunk ≤ bitmapBits m := by
  have room := slab_add_pageSize_le noOverflow
  have pageLarge := m.thirtyTwo_le_pageSize
  have fewer : bitsNeeded m pages chunk ≤ pages * m.pageSize := by
    rw [bitsNeeded, Nat.div_le_iff_le_mul_add_pred positive]
    exact Nat.add_le_add_right (Nat.le_mul_of_pos_left _ positive) _
  rw [bitmapWords_eq noWrap (by omega)] at fits
  apply Nat.le_trans _ (Nat.mul_le_mul_right m.wordTBits fits)
  unfold Machine.wordTBytes
  rcases m.wordTBits_eq with width | width <;> rw [width] <;> omega

/-! ## Sizes with which a cache works -/

/-- Sizes with which every chunk has an address: a slab is not larger than a word
counts and has room for a chunk. -/
structure Sizes (m : Machine) (cache : MemCache) : Prop where
  one_le_pagesPerSlab : 1 ≤ cache.pagesPerSlab
  noOverflow : cache.pagesPerSlab * m.pageSize < m.wordLimit
  chunkSz_pos : 0 < cache.chunkSz
  chunkSz_le : cache.chunkSz ≤ cache.pagesPerSlab * m.pageSize

/-- The bitmap has the bits needed.  Without them the searches may read behind
its end. -/
def HasBits (m : Machine) (cache : MemCache) : Prop :=
  bitsNeeded m cache.pagesPerSlab cache.chunkSz ≤ bitmapBits m

namespace Sizes

variable {cache : MemCache}

theorem chunksPerSlab_eq (sizes : Sizes m cache) :
    cache.chunksPerSlab m = cache.pagesPerSlab * m.pageSize / cache.chunkSz := by
  rw [MemCache.chunksPerSlab, Nat.mod_eq_of_lt sizes.noOverflow]

/-- The chunks of a slab lie in its pages. -/
theorem chunksPerSlab_mul_le (sizes : Sizes m cache) :
    cache.chunksPerSlab m * cache.chunkSz ≤ cache.pagesPerSlab * m.pageSize := by
  rw [sizes.chunksPerSlab_eq]
  exact Nat.div_mul_le_self _ _

theorem chunksPerSlab_pos (sizes : Sizes m cache) : 0 < cache.chunksPerSlab m := by
  rw [sizes.chunksPerSlab_eq]
  exact Nat.div_pos sizes.chunkSz_le sizes.chunkSz_pos

theorem chunksPerSlab_lt (sizes : Sizes m cache) : cache.chunksPerSlab m < m.wordLimit := by
  rw [sizes.chunksPerSlab_eq]
  exact Nat.lt_of_le_of_lt (Nat.div_le_self _ _) sizes.noOverflow

/-- The chunks do not all have a bit when one lies behind the bitmap. -/
theorem not_hasBits_of_chunk (sizes : Sizes m cache) {index : Nat}
    (below : index < cache.chunksPerSlab m) (behind : bitmapBits m ≤ index) : ¬HasBits m cache := by
  intro bits
  have enough : cache.chunksPerSlab m ≤ bitmapBits m := by
    apply Nat.le_trans _ bits
    rw [sizes.chunksPerSlab_eq]
    exact Nat.div_le_div_right (Nat.le_add_right _ _)
  omega

/-- So do not the addresses in the slab, which may lie behind the last chunk. -/
theorem not_hasBits_of_offset (sizes : Sizes m cache) {offset : Nat}
    (inside : offset < cache.pagesPerSlab * m.pageSize)
    (behind : bitmapBits m ≤ offset / cache.chunkSz) : ¬HasBits m cache := by
  intro bits
  have index := div_lt_bitsNeeded sizes.chunkSz_pos inside
  unfold HasBits at bits
  omega

/-- A chunk ends inside the pages of its slab. -/
theorem chunk_inside (sizes : Sizes m cache) {index : Nat} (below : index < cache.chunksPerSlab m) :
    index * cache.chunkSz + cache.chunkSz ≤ cache.pagesPerSlab * m.pageSize := by
  rw [← Nat.succ_mul]
  exact Nat.le_trans (Nat.mul_le_mul_right _ below) sizes.chunksPerSlab_mul_le

end Sizes

namespace Shape

variable {cache : MemCache}

theorem chunkSz_pos (shape : Shape m cache) : 0 < cache.chunkSz := by
  rcases shape.powerOfTwo with ⟨shift, size⟩
  rw [size]
  exact Nat.two_pow_pos shift

theorem chunkSz_le_pageSize (shape : Shape m cache) : cache.chunkSz ≤ m.pageSize :=
  Nat.le_of_dvd m.pageSize_pos shape.dvd_pageSize

theorem sizes (shape : Shape m cache) : Sizes m cache where
  one_le_pagesPerSlab := shape.one_le_pagesPerSlab
  noOverflow := shape.noOverflow
  chunkSz_pos := shape.chunkSz_pos
  chunkSz_le := Nat.le_trans shape.chunkSz_le_pageSize
    (Nat.le_mul_of_pos_left _ shape.one_le_pagesPerSlab)

/-- A chunk size that is a power of two dividing the page size gives each
chunk a bit. -/
theorem hasBits (shape : Shape m cache) : HasBits m cache := by
  have room := slab_add_pageSize_le shape.noOverflow
  have positive := shape.chunkSz_pos
  have small := shape.chunkSz_le_pageSize
  exact bitsNeeded_le_bitmapBits positive shape.noOverflow (by omega) shape.bitmapFits

end Shape

/-! ## The slabs of a page -/

/-- The slab structures in a page, from the first on. -/
def slabsOfPage (m : Machine) (base : Nat) : List Nat :=
  (List.range (slabsPerPage m)).map (fun i => base + i * slabBytes m)

theorem mem_slabsOfPage {base slab : Nat} :
    slab ∈ slabsOfPage m base ↔ ∃ i, i < slabsPerPage m ∧ slab = base + i * slabBytes m := by
  simp only [slabsOfPage, List.mem_map, List.mem_range, eq_comm]

theorem slabsOfPage_length (base : Nat) : (slabsOfPage m base).length = slabsPerPage m := by
  rw [slabsOfPage, List.length_map, List.length_range]

theorem slabsOfPage_nodup (base : Nat) : (slabsOfPage m base).Nodup := by
  apply List.nodup_range.map
  intro i j same
  exact Nat.eq_of_mul_eq_mul_right (slabBytes_pos m) (Nat.add_left_cancel same)

/-- A slab structure starts inside its page. -/
theorem slabsOfPage_inside {base slab : Nat} (isSlab : slab ∈ slabsOfPage m base) :
    base ≤ slab ∧ slab < base + m.pageSize := by
  rcases mem_slabsOfPage.mp isSlab with ⟨i, below, rfl⟩
  have ends : (i + 1) * slabBytes m ≤ m.pageSize :=
    Nat.le_trans (Nat.mul_le_mul_right _ below) (Nat.div_mul_le_self _ _)
  have positive := slabBytes_pos m
  rw [Nat.succ_mul] at ends
  omega

/-- The slabs in the pages that a cache has obtained for them. -/
def IsSlab (m : Machine) (obtained : List Nat) (slab : Nat) : Prop :=
  ∃ base ∈ obtained, slab ∈ slabsOfPage m base

end SlabCache
end ShovelOS
