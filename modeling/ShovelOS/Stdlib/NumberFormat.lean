import ShovelOS.Stdlib.Vfprintf

namespace ShovelOS
namespace Stdlib

open Numeral

/-!
# Number conversions in ISO C

A number conversion has flags, a field width and one of five letters.  ISO C
says which bytes it prints: the numeral with its sign, and padding up to the
field width.  Zeros go between the sign and the digits.
-/

/-- A field width: none, a decimal number, or an argument. -/
inductive FieldWidth where
  | absent
  | literal (width : Nat)
  | star (width : BitVec 32)

namespace FieldWidth

def text : FieldWidth → List UInt8
  | .absent => []
  | .literal width => digitText width
  | .star _width => [ascii '*']

def args {m : Machine} : FieldWidth → List (Arg m)
  | .star width => [.int32 width]
  | _ => []

/-- A field width is below `2 ^ 31`, and a decimal one is not zero, which would
be a flag. -/
def Valid : FieldWidth → Prop
  | .absent => True
  | .literal width => 0 < width ∧ width < 2 ^ 31
  | .star width => width ≠ BitVec.intMin 32

/-- The number of bytes that a field has at least. -/
def value : FieldWidth → Nat
  | .absent => 0
  | .literal width => width
  | .star width => width.toInt.natAbs

/-- A negative argument is a minus flag and a width. -/
def negative : FieldWidth → Bool
  | .star width => decide (width.toInt < 0)
  | _ => false

end FieldWidth

inductive NumberConversion where
  | d | i | u | x | X
  deriving DecidableEq

namespace NumberConversion

def letter : NumberConversion → UInt8
  | .d => ascii 'd'
  | .i => ascii 'i'
  | .u => ascii 'u'
  | .x => ascii 'x'
  | .X => ascii 'X'

def signed : NumberConversion → Bool
  | .d | .i => true
  | _ => false

def base : NumberConversion → Nat
  | .x | .X => 16
  | _ => 10

/-- The number whose numeral is printed. -/
def magnitude (conversion : NumberConversion) (arg : BitVec 32) : Nat :=
  if conversion.signed then arg.toInt.natAbs else arg.toNat

def chars : NumberConversion → List UInt8
  | .X => "0123456789ABCDEF".toList.map ascii
  | _ => "0123456789abcdef".toList.map ascii

def digits (conversion : NumberConversion) (arg : BitVec 32) : List UInt8 :=
  (numeral conversion.base (conversion.magnitude arg)).map fun digit =>
    conversion.chars.getD digit 0

def sign (conversion : NumberConversion) (arg : BitVec 32) : List UInt8 :=
  if conversion.signed = true ∧ arg.toInt < 0 then [ascii '-'] else []

def number (conversion : NumberConversion) (arg : BitVec 32) : List UInt8 :=
  conversion.sign arg ++ conversion.digits arg

end NumberConversion

/-- A number conversion with its flags and its field width. -/
structure NumberFormat where
  flags : List UInt8
  areFlags : ∀ c ∈ flags, c = ascii '0' ∨ c = ascii '-'
  width : FieldWidth
  valid : width.Valid
  conversion : NumberConversion

namespace NumberFormat

def text (format : NumberFormat) : List UInt8 :=
  ascii '%' :: (format.flags ++ (format.width.text ++ [format.conversion.letter]))

def left (format : NumberFormat) : Bool :=
  decide (ascii '-' ∈ format.flags) || format.width.negative

def zero (format : NumberFormat) : Bool := decide (ascii '0' ∈ format.flags)

/-- The bytes that ISO C prints.  The minus flag overrules the zero flag. -/
def iso (format : NumberFormat) (arg : BitVec 32) : List UInt8 :=
  let missing := format.width.value - (format.conversion.number arg).length
  if format.left then format.conversion.number arg ++ List.replicate missing (ascii ' ')
  else if format.zero then
    format.conversion.sign arg ++
      (List.replicate missing (ascii '0') ++ format.conversion.digits arg)
  else List.replicate missing (ascii ' ') ++ format.conversion.number arg

end NumberFormat

end Stdlib
end ShovelOS
