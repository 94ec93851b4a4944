import ShovelOS.Library.Numeral

namespace ShovelOS
namespace Stdlib

open Numeral

/-!
# Reading decimal numbers (`stdlib/stdlib.c`)

`atoi` finds the end of the number and walks back over its digits with a
running power of ten.  The power has 16 bits, so it is no power of ten any
more from the sixth digit on.  A sign comes last on the way back, when digits
have already been seen, and is then taken for an error.

A pointer into a string is the list of the bytes from there to the end of the
object, the NUL included.  Reading behind the end has no value.
-/

def ascii (c : Char) : UInt8 := c.toUInt8

/-- The value of a 32-bit signed integer after an overflow. -/
def wrap32 (value : Int) : Int := value.bmod (2 ^ 32)

def isnum (c : UInt8) : Bool := c ≥ ascii '0' && c ≤ ascii '9'

def isdigit (c : UInt8) : Bool := isnum c

/-- `while(isnum(*str++)) ret++`. -/
def declenLoop : List UInt8 → Option Nat
  | [] => none
  | c :: str => if isnum c then (declenLoop str).map (· + 1) else some 0

def declen : List UInt8 → Option Nat
  | [] => none
  | c :: str =>
      if c = ascii '-' then
        match str with
        | [] => none
        | d :: str => if isnum d then (declenLoop str).map (· + 2) else some 0
      else declenLoop (c :: str)

/-- The loop of `atoq`, over the bytes in the order in which it reads them. -/
def atoqLoop : List UInt8 → Int → Bool → Nat → Bool → Int
  | [], ret, negflag, _power, _started => if negflag then wrap32 (-ret) else ret
  | c :: before, ret, negflag, power, started =>
      if c = ascii '-' then
        if negflag || started then 0 else atoqLoop before ret true (power * 10 % 2 ^ 16) started
      else if isnum c then
        atoqLoop before (wrap32 (ret + (power * (c - ascii '0').toNat : Nat))) negflag
          (power * 10 % 2 ^ 16) true
      else if negflag then wrap32 (-ret) else ret

def atoq (str : List UInt8) : Option Int :=
  (declen str).map fun length => atoqLoop (str.take length).reverse 0 false 1 false

/-- `atoi`.  The mask keeps the low 31 bits. -/
def atoi (str : List UInt8) : Option Int :=
  (atoq str).map fun r64 =>
    let r32 := r64 % 2 ^ 31
    if r64 < 0 then -r32 else r32

/-! ## Runs of digits -/

def decimalDigit (digit : Nat) : UInt8 := UInt8.ofNat (48 + digit)

theorem toNat_decimalDigit {digit : Nat} (small : digit < 10) :
    (decimalDigit digit).toNat = 48 + digit := by
  rw [decimalDigit, UInt8.toNat_ofNat']
  omega

theorem isnum_iff (c : UInt8) : isnum c = true ↔ 48 ≤ c.toNat ∧ c.toNat ≤ 57 := by
  rw [isnum, Bool.and_eq_true, decide_eq_true_eq, decide_eq_true_eq]
  rfl

theorem isnum_decimalDigit {digit : Nat} (small : digit < 10) :
    isnum (decimalDigit digit) = true := by
  rw [isnum_iff, toNat_decimalDigit small]
  omega

theorem decimalDigit_ne_minus {digit : Nat} (small : digit < 10) :
    decimalDigit digit ≠ ascii '-' := by
  intro same
  have value := congrArg UInt8.toNat same
  rw [toNat_decimalDigit small] at value
  change 48 + digit = 45 at value
  omega

theorem decimalDigit_sub {digit : Nat} (small : digit < 10) :
    (decimalDigit digit - ascii '0').toNat = digit := by
  have zero : (ascii '0').toNat = 48 := rfl
  rw [UInt8.toNat_sub, toNat_decimalDigit small, zero]
  omega

theorem declenLoop_run {digits : List Nat} (areDigits : ∀ digit ∈ digits, digit < 10) {next : UInt8}
    (ends : isnum next = false) (rest : List UInt8) :
    declenLoop (digits.map decimalDigit ++ next :: rest) = some digits.length := by
  induction digits with
  | nil =>
      change (if isnum next then _ else some 0) = _
      rw [ends]
      rfl
  | cons digit digits inductionHypothesis =>
      rw [List.map_cons, List.cons_append, declenLoop,
        if_pos (isnum_decimalDigit (areDigits digit List.mem_cons_self)),
        inductionHypothesis fun other isDigit => areDigits other (List.mem_cons_of_mem _ isDigit)]
      rfl

/-- The weight that `atoq` gives to a place. -/
def weight16 (place : Nat) : Nat := 10 ^ place % 2 ^ 16

theorem weight16_succ (place : Nat) : weight16 place * 10 % 2 ^ 16 = weight16 (place + 1) := by
  rw [weight16, weight16, Nat.mod_mul_mod]
  exact congrArg (· % 2 ^ 16) (Nat.pow_succ ..).symm

theorem weight16_le (place : Nat) : weight16 place ≤ 10 ^ place := Nat.mod_le _ _

/-- The loop adds digits with the weights of their places. -/
theorem atoqLoop_digits {digits : List Nat} (areDigits : ∀ digit ∈ digits, digit < 10)
    (before : List UInt8)
    {ret place : Nat} (small : ret + weigh weight16 place digits < 2 ^ 31)
    (negflag started : Bool) :
    atoqLoop (digits.map decimalDigit ++ before) ret negflag (weight16 place) started =
      atoqLoop before (ret + weigh weight16 place digits : Nat) negflag
        (weight16 (place + digits.length))
        (started || !digits.isEmpty) := by
  induction digits generalizing ret place started with
  | nil =>
      rw [List.isEmpty_nil, Bool.not_true, Bool.or_false]
      rfl
  | cons digit digits inductionHypothesis =>
      have isDigit := areDigits digit List.mem_cons_self
      rw [weigh] at small
      have kept : wrap32 ((ret : Int) + (weight16 place * digit : Nat)) =
          (ret + digit * weight16 place : Nat) := by
        rw [wrap32, Nat.mul_comm, ← Int.natCast_add, Int.bmod_eq_of_le (by omega) (by omega)]
      rw [List.map_cons, List.cons_append, atoqLoop, if_neg (decimalDigit_ne_minus isDigit),
        if_pos (isnum_decimalDigit isDigit), decimalDigit_sub isDigit, kept, weight16_succ,
        inductionHypothesis (fun other isOther => areDigits other (List.mem_cons_of_mem _ isOther))
          (by omega), weigh]
      simp [Nat.add_assoc, Nat.add_comm 1]

/-! ## Numerals -/

/-- The text of a number: its decimal numeral. -/
def digitText (n : Nat) : List UInt8 := (numeral 10 n).map decimalDigit

/-- The decimal text of an integer, with a minus sign in front of the negative
ones. -/
def decimalText (n : Int) : List UInt8 := (if n < 0 then [ascii '-'] else []) ++ digitText n.natAbs

theorem lt_ten_of_mem_numeral (n : Nat) : ∀ digit ∈ numeral 10 n, digit < 10 :=
  fun _digit isDigit => lt_of_mem_numeral (by decide) isDigit

/-- What `atoq` makes of a numeral. -/
def truncatedValue (n : Nat) : Nat := weigh weight16 0 (numeral 10 n).reverse

/-- Five digits have the weights that they should have. -/
theorem truncatedValue_eq {n : Nat} (small : n < 100000) : truncatedValue n = n := by
  have short : (numeral 10 n).length ≤ 5 := numeral_length_le (by decide) (by decide) small
  have sameWeights : ∀ place, place < 0 + (numeral 10 n).reverse.length →
      weight16 place = 10 ^ place := by
    intro place below
    rw [List.length_reverse] at below
    have power : 10 ^ place ≤ 10 ^ 4 := Nat.pow_le_pow_right (by decide) (by omega)
    exact Nat.mod_eq_of_lt (by omega)
  rw [truncatedValue, weigh_congr sameWeights, weigh_numeral]

/-- The sixth digit counts less than it should. -/
theorem truncatedValue_lt {n : Nat} (large : 100000 ≤ n) : truncatedValue n < n := by
  have long : 5 < (numeral 10 n).length := lt_numeral_length (by decide) large
  have headNonzero := head_numeral_ne_zero 10 (show n ≠ 0 by omega)
  have value := weigh_numeral 10 n
  rw [truncatedValue]
  revert long headNonzero value
  cases numeral 10 n with
  | nil => exact fun long => absurd long (by decide)
  | cons top digits =>
      intro long headNonzero value
      have counts : top ≠ 0 := fun zero => headNonzero (by rw [zero]; rfl)
      have less : weight16 digits.length < 10 ^ digits.length := by
        have power : 10 ^ 5 ≤ 10 ^ digits.length :=
          Nat.pow_le_pow_right (by decide) (Nat.le_of_lt_succ long)
        have below : weight16 digits.length < 2 ^ 16 := Nat.mod_lt _ (by decide)
        omega
      exact Nat.lt_of_lt_of_eq (weigh_reverse_cons_lt weight16_le counts less) value

theorem truncatedValue_le (n : Nat) : truncatedValue n ≤ n := by
  rcases Nat.lt_or_ge n 100000 with small | large
  · exact Nat.le_of_eq (truncatedValue_eq small)
  · exact Nat.le_of_lt (truncatedValue_lt large)

/-- The value is right exactly for the numbers of at most five digits. -/
theorem truncatedValue_eq_iff (n : Nat) : truncatedValue n = n ↔ n < 100000 := by
  constructor
  · intro same
    by_contra large
    exact absurd same (Nat.ne_of_lt (truncatedValue_lt (Nat.le_of_not_lt large)))
  · exact truncatedValue_eq

/-- A value that is too small is too small by a multiple of what the power lost. -/
theorem truncatedValue_eq_or_le (n : Nat) :
    (truncatedValue n = n ∧ n < 100000) ∨ (truncatedValue n + 65536 ≤ n ∧ 100000 ≤ n) := by
  rcases Nat.lt_or_ge n 100000 with small | large
  · exact Or.inl ⟨truncatedValue_eq small, small⟩
  · have remainder : truncatedValue n % 2 ^ 16 = n % 2 ^ 16 := by
      have same :=
        weigh_mod (fun place => Nat.mod_mod (10 ^ place) (2 ^ 16)) 0 (numeral 10 n).reverse
      rw [weigh_numeral] at same
      exact same
    have less := truncatedValue_lt large
    exact Or.inr ⟨by omega, large⟩

theorem truncatedValue_lt_two_pow {n : Nat} (bound : n ≤ 2 ^ 31) : truncatedValue n < 2 ^ 31 := by
  rcases Nat.lt_or_ge n 100000 with small | large
  · rw [truncatedValue_eq small]
    omega
  · exact Nat.lt_of_lt_of_le (truncatedValue_lt large) bound

theorem declen_digitText (n : Nat) {next : UInt8} (ends : isnum next = false) (rest : List UInt8) :
    declen (digitText n ++ next :: rest) = some (digitText n).length := by
  have run := declenLoop_run (lt_ten_of_mem_numeral n) ends rest
  have positive := numeral_length_pos 10 n
  have areDigits := lt_ten_of_mem_numeral n
  rw [digitText, List.length_map]
  revert run positive areDigits
  cases numeral 10 n with
  | nil => exact fun _run positive => absurd positive (Nat.lt_irrefl 0)
  | cons digit digits =>
      intro run _positive areDigits
      exact (if_neg (decimalDigit_ne_minus (areDigits digit List.mem_cons_self))).trans run

theorem declen_negative (n : Nat) {next : UInt8} (ends : isnum next = false) (rest : List UInt8) :
    declen (ascii '-' :: (digitText n ++ next :: rest)) = some ((digitText n).length + 1) := by
  have positive := numeral_length_pos 10 n
  have areDigits := lt_ten_of_mem_numeral n
  rw [digitText, List.length_map]
  revert positive areDigits
  cases numeral 10 n with
  | nil => exact fun positive => absurd positive (Nat.lt_irrefl 0)
  | cons digit digits =>
      intro _positive areDigits
      have isDigit := isnum_decimalDigit (areDigits digit List.mem_cons_self)
      have run := declenLoop_run
        (fun other isOther => areDigits other (List.mem_cons_of_mem _ isOther))
        ends rest
      rw [List.map_cons, List.cons_append, declen, if_pos rfl]
      refine (if_pos isDigit).trans ?_
      rw [run]
      rfl

/-- The loop on the digits of a number, read from the last one back. -/
theorem atoqLoop_digitText {n : Nat} (bound : n ≤ 2 ^ 31) (before : List UInt8) :
    atoqLoop ((digitText n).reverse ++ before) 0 false 1 false =
      atoqLoop before (truncatedValue n) false (weight16 (numeral 10 n).length) true := by
  have areDigits : ∀ digit ∈ (numeral 10 n).reverse, digit < 10 := fun digit isDigit =>
    lt_ten_of_mem_numeral n digit (List.mem_reverse.mp isDigit)
  have small : 0 + weigh weight16 0 (numeral 10 n).reverse < 2 ^ 31 := by
    rw [Nat.zero_add]
    exact truncatedValue_lt_two_pow bound
  have run := atoqLoop_digits areDigits before small false false
  have nonempty : (numeral 10 n).reverse.isEmpty = false := by
    rw [List.isEmpty_reverse, List.isEmpty_eq_false_iff]
    exact List.ne_nil_of_length_pos (numeral_length_pos 10 n)
  rw [nonempty, List.length_reverse, Nat.zero_add, Nat.zero_add, List.map_reverse] at run
  exact run

theorem atoi_digitText {n : Nat} (bound : n ≤ 2 ^ 31) {next : UInt8} (ends : isnum next = false)
    (rest : List UInt8) : atoi (digitText n ++ next :: rest) = some (truncatedValue n : Int) := by
  have run := atoqLoop_digitText bound []
  have small := truncatedValue_lt_two_pow bound
  rw [List.append_nil] at run
  rw [atoi, atoq, declen_digitText n ends, Option.map_some, Option.map_some, List.take_left, run]
  change some (if (truncatedValue n : Int) < 0 then _ else (truncatedValue n : Int) % 2 ^ 31) = _
  rw [if_neg (by omega), Int.emod_eq_of_lt (by omega) (by omega)]

/-- A text with a minus sign gives zero: the sign comes after digits. -/
theorem atoi_negative {n : Nat} (bound : n ≤ 2 ^ 31) {next : UInt8} (ends : isnum next = false)
    (rest : List UInt8) : atoi (ascii '-' :: (digitText n ++ next :: rest)) = some 0 := by
  have read : (ascii '-' :: (digitText n ++ next :: rest)).take ((digitText n).length + 1) =
      ascii '-' :: digitText n := by
    rw [List.take_succ_cons, List.take_left]
  rw [atoi, atoq, declen_negative n ends, Option.map_some, Option.map_some, read, List.reverse_cons,
    atoqLoop_digitText bound]
  rfl

/-- Reading decimal text back gives the number exactly when it is not negative
and has at most five digits. -/
theorem atoi_decimalText_iff {n : Int} (lower : -2 ^ 31 ≤ n) (upper : n < 2 ^ 31) {next : UInt8}
    (ends : isnum next = false) (rest : List UInt8) :
    atoi (decimalText n ++ next :: rest) = some n ↔ 0 ≤ n ∧ n < 100000 := by
  have bound : n.natAbs ≤ 2 ^ 31 := by omega
  rw [decimalText]
  by_cases negative : n < 0
  · rw [if_pos negative]
    change atoi (ascii '-' :: (digitText n.natAbs ++ next :: rest)) = some n ↔ _
    rw [atoi_negative bound ends]
    constructor
    · intro same
      have zero := Option.some.inj same
      omega
    · rintro ⟨nonneg, _small⟩
      omega
  · rw [if_neg negative, List.nil_append, atoi_digitText bound ends]
    have exactly := truncatedValue_eq_iff n.natAbs
    constructor
    · intro same
      have value := Option.some.inj same
      have small := exactly.mp (by omega)
      omega
    · rintro ⟨_nonneg, small⟩
      have same := exactly.mpr (by omega)
      exact congrArg some (by omega)

/-- A number of five digits, at the end of a string. -/
theorem atoi_decimalText_iff_fiveDigits : atoi (decimalText 65535 ++ [0]) = some 65535 := by
  have ends : isnum 0 = false := by decide
  exact (atoi_decimalText_iff (by decide) (by decide) ends []).mpr ⟨by decide, by decide⟩

/-- `-5` reads as zero. -/
theorem not_atoi_decimalText :
    ¬ ∀ (n : Int), -2 ^ 31 ≤ n → n < 2 ^ 31 → ∀ (next : UInt8), isnum next = false → ∀ rest,
      atoi (decimalText n ++ next :: rest) = some n := by
  intro inverts
  have minusFive := inverts (-5) (by decide) (by decide) 0 (by decide) []
  revert minusFive
  decide +kernel

end Stdlib
end ShovelOS
