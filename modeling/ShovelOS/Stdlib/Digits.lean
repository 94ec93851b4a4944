import ShovelOS.Stdlib.Emit

namespace ShovelOS
namespace Stdlib

open Numeral

/-!
# The digit emitters (`stdlib/fprintf.c`)

`_putu`, `_putlu` and `__putxX` go through the places of a number from the top
and skip the zeros in front.  What they print is a numeral, if the first place
they look at is high enough.  Ten decimal places are enough for 32 bits, and
eight hexadecimal ones.  `_putlu` begins at `10 ^ 18`, the highest of nineteen
places, and a number of 64 bits can have twenty.
-/

def decimalChars : List UInt8 := "0123456789".toList.map ascii

def lowerHexChars : List UInt8 := "0123456789abcdef".toList.map ascii

def upperHexChars : List UInt8 := "0123456789ABCDEF".toList.map ascii

/-- The canonical numeral of a number in the base that has these digits. -/
def numeralText (chars : List UInt8) (n : Nat) : List UInt8 :=
  (numeral chars.length n).map fun digit => chars.getD digit 0

/-- A function passes a numeral to the file and returns the number of its
digits. -/
def PrintsNumeral (print : List UInt8 → Int × List UInt8) (chars : List UInt8) (n : Nat) : Prop :=
  ∀ out, print out = (((numeralText chars n).length : Int), out ++ numeralText chars n)

theorem map_numeral_eq_numeralText {chars : List UInt8} {char : Nat → UInt8}
    (wide : 2 ≤ chars.length)
    (same : ∀ digit, digit < chars.length → char digit = chars.getD digit 0) (n : Nat) :
    (numeral chars.length n).map char = numeralText chars n :=
  List.map_congr_left fun digit isDigit => same digit (lt_of_mem_numeral wide isDigit)

theorem digitText_eq_numeralText (n : Nat) : digitText n = numeralText decimalChars n := by
  have wide : 2 ≤ decimalChars.length := by decide
  exact map_numeral_eq_numeralText wide (by decide) n

/-- The loop of the decimal emitters prints the numeral when the number fits
the places. -/
theorem putuLoop_printsNumeral {file : File} (isOpen : file ≠ .null) {n count : Nat}
    (positive : 0 < count)
    (small : n < 10 ^ count) : PrintsNumeral (putuLoop file n count 0) decimalChars n := by
  intro out
  have loop := putuLoop_eq isOpen n count 0 out
  have whole : significant 10 n count (decide (0 ≠ 0)) = numeral 10 n :=
    significant_eq_numeral (by decide) positive small
  rw [whole, Nat.zero_add] at loop
  rw [← digitText_eq_numeralText, digitText, List.length_map]
  exact loop

/-- A number that does not fit the places loses digits. -/
theorem not_putuLoop_printsNumeral {file : File} (isOpen : file ≠ .null) {n count : Nat}
    (large : 10 ^ count ≤ n) : ¬ PrintsNumeral (putuLoop file n count 0) decimalChars n := by
  intro prints
  have loop := (prints []).symm.trans (putuLoop_eq isOpen n count 0 [])
  have counted := congrArg Prod.fst loop
  have printed := significant_length_le 10 n count (decide (0 ≠ 0))
  have digits : count < (numeral 10 n).length := lt_numeral_length (by decide) large
  have length : (numeralText decimalChars n).length = (numeral 10 n).length := List.length_map ..
  simp only [Nat.zero_add, Int.natCast_inj] at counted
  omega

/-- The loop of the hexadecimal emitters prints the numeral in the digits of
the letter it is given. -/
theorem putxXLoop_printsNumeral {file : File} (prints : file.Prints) {n count : Nat} {a : UInt8}
    {chars : List UInt8} (hex : chars.length = 16) (areChars : ∀ x, x < 16 → digitChar a x ≠ 0)
    (same : ∀ x, x < 16 → digitChar a x = chars.getD x 0) (positive : 0 < count)
    (small : n < 16 ^ count)
    (places : count < 2 ^ 31) : PrintsNumeral (putxXLoop file n a count 0) chars n := by
  intro out
  have loop := putxXLoop_eq prints n areChars count (l := 0) (by omega) out
  have whole : significant 16 n count (decide (0 ≠ 0)) = numeral 16 n :=
    significant_eq_numeral (by decide) positive small
  rw [← hex] at same
  have text := map_numeral_eq_numeralText (by omega) same n
  rw [hex] at text
  rw [whole, Nat.zero_add, text] at loop
  rw [← text, List.length_map, text]
  exact loop

/-- `_putu` prints the decimal numeral of every 32-bit number, `__putxX` the
hexadecimal one, and both return the number of digits.  The hexadecimal loop
counts what the file has taken. -/
theorem putu_putxX_print_numerals {file : File} (isOpen : file ≠ .null) (n : BitVec 32) :
    PrintsNumeral (putu file n.toNat) decimalChars n.toNat ∧
      (file.Prints → PrintsNumeral (putxX file n (ascii 'a')) lowerHexChars n.toNat ∧
        PrintsNumeral (putxX file n (ascii 'A')) upperHexChars n.toNat) := by
  have below := n.isLt
  refine ⟨putuLoop_printsNumeral isOpen (by decide) (by omega), fun prints => ⟨?_, ?_⟩⟩
  · exact putxXLoop_printsNumeral prints rfl lowerCase (by decide) (by decide) (by omega)
      (by decide)
  · exact putxXLoop_printsNumeral prints rfl upperCase (by decide) (by decide) (by omega)
      (by decide)

/-- A number with zeros inside and at its end. -/
theorem putu_putxX_print_numerals_interiorZeros :
    PrintsNumeral (putu .debugOut 0xA0F0) decimalChars 0xA0F0 ∧
      PrintsNumeral (putxX .debugOut 0xA0F0#32 (ascii 'a')) lowerHexChars 0xA0F0 ∧
        PrintsNumeral (putxX .debugOut 0xA0F0#32 (ascii 'A')) upperHexChars 0xA0F0 := by
  have numerals := putu_putxX_print_numerals File.debugOut_prints.ne_null 0xA0F0#32
  exact ⟨numerals.1, numerals.2 File.debugOut_prints⟩

/-- `_putlu` prints the decimal numeral, and returns the number of its digits,
exactly for the numbers of at most nineteen digits. -/
theorem putlu_prints_numeral_iff {file : File} (isOpen : file ≠ .null) (n : BitVec 64) :
    PrintsNumeral (putlu file n) decimalChars n.toNat ↔ n.toNat < 10 ^ 19 := by
  constructor
  · intro prints
    by_contra large
    exact not_putuLoop_printsNumeral isOpen (Nat.le_of_not_lt large) prints
  · intro small
    exact putuLoop_printsNumeral isOpen (by decide) small

/-- The largest number that is printed whole. -/
theorem putlu_prints_numeral_iff_nineteenNines :
    PrintsNumeral (putlu .debugOut 9999999999999999999#64) decimalChars 9999999999999999999 :=
  (putlu_prints_numeral_iff File.debugOut_prints.ne_null 9999999999999999999#64).mpr (by decide)

/-- Of `10 ^ 19` only the last zero is printed. -/
theorem not_putlu_prints_numeral :
    putlu .debugOut 10000000000000000000#64 [] = (1, [ascii '0']) ∧
      ¬ ∀ n : BitVec 64, PrintsNumeral (putlu .debugOut n) decimalChars n.toNat := by
  refine ⟨by decide, fun prints => ?_⟩
  have isOpen : File.debugOut ≠ .null := File.debugOut_prints.ne_null
  have large : 10 ^ 19 ≤ (10000000000000000000#64).toNat := by decide
  exact not_putuLoop_printsNumeral isOpen large (prints 10000000000000000000#64)

/-- `_putll` prints every number.  The largest magnitude has nineteen digits. -/
theorem putll_emits {file : File} (prints : file.Prints) (n : BitVec 64) :
    Emits (putll file n)
      ((if n.toInt < 0 then [ascii '-'] else []) ++ numeralText decimalChars n.toInt.natAbs) := by
  have below := n.isLt
  have small : n.toInt.natAbs < 10 ^ 19 := by
    rw [BitVec.toInt]
    split <;> omega
  intro out
  by_cases negative : n.toInt < 0
  · have magnitude : (-n).toNat = n.toInt.natAbs := by
      rw [BitVec.toNat_neg]
      rw [BitVec.toInt] at negative ⊢
      split at negative <;> omega
    have fits : (-n).toNat < 10 ^ 19 := by omega
    have digits := putuLoop_printsNumeral prints.ne_null (by decide) fits (out ++ [ascii '-'])
    rw [putll, if_neg (by omega), prints (ascii '-') (by decide), if_pos negative, ← magnitude]
    change (wrap32 (wrap32 1 + (putuLoop file (-n).toNat 19 0 (out ++ [ascii '-'])).1), _) = _
    rw [putlu, digits, wrap32_add_left, List.append_assoc, List.length_append]
    rfl
  · have magnitude : n.toNat = n.toInt.natAbs := by
      rw [BitVec.toInt] at negative ⊢
      split at negative <;> omega
    have fits : n.toNat < 10 ^ 19 := by omega
    have digits := putuLoop_printsNumeral prints.ne_null (by decide) fits out
    have short : (numeralText decimalChars n.toNat).length ≤ 19 := by
      have wide : 2 ≤ decimalChars.length := by decide
      rw [numeralText, List.length_map]
      exact numeral_length_le wide (by decide) fits
    rw [putll, if_pos (by omega), if_neg negative, List.nil_append, ← magnitude, putlu, digits,
      wrap32_of_lt (by omega)]

end Stdlib
end ShovelOS
