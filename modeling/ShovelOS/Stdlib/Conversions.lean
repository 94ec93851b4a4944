import Mathlib.Data.List.TakeWhile
import ShovelOS.Stdlib.NumberFormat
import ShovelOS.Stdlib.Turn

namespace ShovelOS
namespace Stdlib

open Numeral

/-!
# Number conversions of `vfprintf`

`vfprintf` reads the field width with `atoi`.  It computes the length of the
numeral apart from the numeral itself, from the argument as a signed number.
And it puts all its padding in front of the sign.  Each of the three makes a
difference to ISO C for some of the arguments.
-/

/-- The field width as `vfprintf` reads it. -/
def FieldWidth.pad : FieldWidth → Nat
  | .literal width => truncatedValue width
  | other => other.value

/-- The length that `_nstrlen32` finds: the argument as a signed number, and two
characters for the smallest one. -/
def signedLength (base : Nat) (arg : BitVec 32) : Nat :=
  if arg.toInt ≥ 0 then (numeral base arg.toNat).length
  else if arg = BitVec.intMin 32 then 2
  else 1 + (numeral base arg.toInt.natAbs).length

theorem toInt_of_nonneg {arg : BitVec 32} (natural : arg.toInt ≥ 0) : arg.toInt = arg.toNat := by
  rw [BitVec.toInt_eq_toNat_cond] at natural ⊢
  have bound := arg.isLt
  split at natural
  · rename_i small
    rw [if_pos small]
  · omega

theorem nstrlen32_eq {base : Nat} (wide : 2 ≤ base) (arg : BitVec 32) :
    nstrlen32 arg.toInt base = signedLength base arg := by
  rw [signedLength]
  by_cases natural : arg.toInt ≥ 0
  · rw [if_pos natural, toInt_of_nonneg natural]
    exact nstrlen_natural wide (by have bound := arg.isLt; omega)
  · rw [if_neg natural]
    by_cases isSmallest : arg = BitVec.intMin 32
    · have value : arg.toInt = -2 ^ 31 := by rw [isSmallest]; decide
      rw [if_pos isSmallest, value, nstrlen32_smallest]
      rfl
    · have bounds := toInt_bounds isSmallest
      rw [if_neg isSmallest, nstrlen32_negative wide bounds.1 (by omega)]
      omega

theorem signedLength_pos (base : Nat) (arg : BitVec 32) : 0 < signedLength base arg := by
  have natural := numeral_length_pos base arg.toNat
  rw [signedLength]
  split
  · exact natural
  · split <;> omega

theorem signedLength_le {base : Nat} (wide : 10 ≤ base) (arg : BitVec 32) :
    signedLength base arg ≤ 11 := by
  have bound := arg.isLt
  have fits : ∀ n, n < 2 ^ 32 → (numeral base n).length ≤ 10 := by
    intro n small
    have power : 10 ^ 10 ≤ base ^ 10 := Nat.pow_le_pow_left wide 10
    exact numeral_length_le (by omega) (by decide) (by omega)
  have lower := BitVec.le_toInt arg
  have natural := fits arg.toNat bound
  have absolute := fits arg.toInt.natAbs (by have upper := BitVec.toInt_lt (x := arg); omega)
  rw [signedLength]
  split
  · omega
  · split <;> omega

/-! ### The flags and the field width -/

section

variable {m : Machine}

/-- The zeros and the minus signs in front of a field width. -/
theorem flagsLoop_signs {flags : List UInt8} (areFlags : ∀ c ∈ flags, c = ascii '0' ∨ c = ascii '-')
    (turns : Nat) (string : List UInt8) (va : List (Arg m)) (read : Flags) :
    flagsLoop (turns + flags.length) (flags ++ string) va read =
      flagsLoop turns string va { read with
        leftalign := read.leftalign || decide (ascii '-' ∈ flags)
        zlead := read.zlead || decide (ascii '0' ∈ flags) } := by
  induction flags generalizing read with
  | nil => simp
  | cons c flags inductionHypothesis =>
      have areFlags' : ∀ other ∈ flags, other = ascii '0' ∨ other = ascii '-' := fun other member =>
        areFlags other (List.mem_cons_of_mem _ member)
      rw [List.length_cons, ← Nat.add_assoc, List.cons_append, flagsLoop]
      rcases areFlags c List.mem_cons_self with rfl | rfl
      · have different : ascii '-' ≠ ascii '0' := by decide
        rw [if_pos rfl, inductionHypothesis areFlags']
        simp [different]
      · have different : ascii '0' ≠ ascii '-' := by decide
        rw [if_neg different.symm, if_pos rfl, inductionHypothesis areFlags']
        simp [different]

theorem FieldWidth.pad_lt {width : FieldWidth} (valid : width.Valid) : width.pad < 2 ^ 31 := by
  cases width with
  | absent => exact Nat.two_pow_pos 31
  | literal width => exact Nat.lt_of_le_of_lt (truncatedValue_le width) valid.2
  | star width =>
      have bounds := toInt_bounds valid
      change width.toInt.natAbs < 2 ^ 31
      omega

theorem star_eq {width : BitVec 32} (valid : width ≠ BitVec.intMin 32) (read : Flags) :
    read.star width.toInt =
      { read with
        leftalign := read.leftalign || decide (width.toInt < 0)
        pad := width.toInt.natAbs } := by
  have bounds := toInt_bounds valid
  rw [Flags.star]
  by_cases negative : width.toInt < 0
  · have negated : wrap32 (-width.toInt) = width.toInt.natAbs :=
      (wrap32_eq (by omega) (by omega)).trans (by omega)
    rw [if_pos negative, negated, decide_eq_true negative, Bool.or_true]
  · have absolute : width.toInt = width.toInt.natAbs := by omega
    rw [if_neg negative, decide_eq_false negative, Bool.or_false, ← absolute]

theorem flagsLoop_end {c : UInt8} (noFlag : isFlag c = false) (turns : Nat) (rest : List UInt8)
    (va : List (Arg m)) (read : Flags) :
    flagsLoop (turns + 1) (c :: rest) va read = some (c :: rest, va, read) := by
  rcases not_isFlag_cases noFlag with ⟨noZero, noMinus, noStar, noDigit⟩
  rw [flagsLoop, if_neg noZero, if_neg noMinus, if_neg noStar, if_neg (by rw [noDigit]; decide)]

/-- A decimal field width is read by `atoi`. -/
theorem flagsLoop_literal {width : Nat} (positive : 0 < width) (small : width < 2 ^ 31) {c : UInt8}
    (noFlag : isFlag c = false) (turns : Nat) (rest : List UInt8) (va : List (Arg m))
    (read : Flags) :
    flagsLoop (turns + 2) (digitText width ++ c :: rest) va read =
      some (c :: rest, va, { read with pad := truncatedValue width }) := by
  have noDigit := (not_isFlag_cases noFlag).2.2.2
  have value := atoi_digitText (Nat.le_of_lt small) noDigit rest
  have head := head_numeral_ne_zero 10 (Nat.ne_of_gt positive)
  have long := numeral_length_pos 10 width
  have areDigits := lt_ten_of_mem_numeral width
  have skipped : skipDigits (digitText width ++ c :: rest) = some (c :: rest) := by
    rw [skipDigits_append noDigit, digitText, List.dropWhile_eq_nil_iff.mpr, List.nil_append]
    intro char member
    rcases List.mem_map.mp member with ⟨digit, isDigit, rfl⟩
    exact isnum_decimalDigit (areDigits digit isDigit)
  revert value skipped
  rw [digitText]
  revert head long areDigits
  cases numeral 10 width with
  | nil => exact fun _head long => absurd long (Nat.lt_irrefl 0)
  | cons digit digits =>
      intro head _long areDigits value skipped
      have isDigit := areDigits digit List.mem_cons_self
      have isNumber := isnum_decimalDigit isDigit
      have notZero : decimalDigit digit ≠ ascii '0' := by
        intro same
        have code := congrArg UInt8.toNat same
        rw [toNat_decimalDigit isDigit] at code
        change 48 + digit = 48 at code
        exact head (congrArg some (by omega))
      have notStar : decimalDigit digit ≠ ascii '*' := by
        intro same
        rw [same] at isNumber
        cases isNumber
      rw [List.map_cons, List.cons_append] at value skipped ⊢
      rw [flagsLoop, if_neg notZero, if_neg (decimalDigit_ne_minus isDigit), if_neg notStar]
      refine (if_pos isNumber).trans ?_
      rw [value, Option.bind_some, skipped, Option.bind_some]
      exact flagsLoop_end noFlag turns rest va _

/-- Every field width is read like this. -/
theorem flagsLoop_width {width : FieldWidth} (valid : width.Valid) {c : UInt8}
    (noFlag : isFlag c = false)
    {turns : Nat} (enough : width.text.length < turns) (rest : List UInt8) (va : List (Arg m))
    (leftalign zlead : Bool) :
    flagsLoop turns (width.text ++ c :: rest) (width.args ++ va) ⟨leftalign, zlead, 0⟩ =
      some (c :: rest, va, ⟨leftalign || width.negative, zlead, width.pad⟩) := by
  cases width with
  | absent =>
      rcases Nat.exists_eq_add_of_lt enough with ⟨more, rfl⟩
      change _ = some (c :: rest, va, (⟨leftalign || false, zlead, 0⟩ : Flags))
      rw [Bool.or_false]
      exact flagsLoop_end noFlag _ rest va ⟨leftalign, zlead, 0⟩
  | literal width =>
      have long : 0 < (digitText width).length := by
        rw [digitText, List.length_map]
        exact numeral_length_pos 10 width
      rcases Nat.exists_eq_add_of_le (show 2 ≤ turns from Nat.lt_of_le_of_lt long enough) with
        ⟨more, rfl⟩
      change _ = some (c :: rest, va, (⟨leftalign || false, zlead, _⟩ : Flags))
      rw [Bool.or_false, Nat.add_comm]
      exact flagsLoop_literal valid.1 valid.2 noFlag more rest va ⟨leftalign, zlead, 0⟩
  | star width =>
      rcases Nat.exists_eq_add_of_le (show 2 ≤ turns from enough) with ⟨more, rfl⟩
      have loop := flagsLoop_end noFlag more rest va (Flags.star ⟨leftalign, zlead, 0⟩ width.toInt)
      rw [Nat.add_comm]
      refine Eq.trans loop ?_
      rw [star_eq valid]
      rfl

/-! ### The bytes of a field -/

/-- A printing function returns and passes these bytes. -/
def Passes (print : Printer) (bytes : List UInt8) : Prop :=
  ∀ out, ∃ count, print out = some (count, out ++ bytes)

theorem Passes.of_emits {print : List UInt8 → Int × List UInt8} {bytes : List UInt8}
    (emits : Emits print bytes) : Passes (fun out => some (print out)) bytes := by
  intro out
  exact ⟨wrap32 bytes.length, congrArg some (emits out)⟩

theorem emit_passes {print : Printer} {bytes : List UInt8} (passes : Passes print bytes)
    (s : PrintState m) :
    ∃ s', s.emit print = some s' ∧ s'.out = s.out ++ bytes := by
  rcases passes s.out with ⟨count, result⟩
  exact ⟨{ s with l := s.l + BitVec.ofInt m.wordTBits count, out := s.out ++ bytes },
    by rw [PrintState.emit, result]; rfl, rfl⟩

theorem field_passes {pad : Bool → Printer} {padBytes : Bool → List UInt8}
    (pads : ∀ leftalign, Passes (pad leftalign) (padBytes leftalign)) {body : Printer}
    {bytes : List UInt8} (passes : Passes body bytes) (leftalign : Bool) (s : PrintState m) :
    ∃ s', s.field pad body leftalign = some s' ∧
      s'.out = s.out ++ (padBytes leftalign ++ (bytes ++ padBytes !leftalign)) := by
  rcases emit_passes (pads leftalign) s with ⟨first, left, firstOut⟩
  rcases emit_passes passes first with ⟨second, middle, secondOut⟩
  rcases emit_passes (pads !leftalign) second with ⟨third, right, thirdOut⟩
  refine ⟨third, ?_, ?_⟩
  · rw [PrintState.field, left, Option.bind_some, middle, Option.bind_some, right]
  · rw [thirdOut, secondOut, firstOut]
    simp only [List.append_assoc]

variable {file : File}

/-- The call that prints a number. -/
def NumberConversion.print (file : File) (depth : Nat) (conversion : NumberConversion)
    (arg : BitVec 32) :
    Printer :=
  match conversion with
  | .d | .i => putd file depth arg.toInt
  | .u => fun out => some (putu file arg.toNat out)
  | .x => fun out => some (putx file arg out)
  | .X => fun out => some (putX file arg out)

theorem conversion_number (with64BitMath : Bool) (depth : Nat) (flags : Flags)
    (number : NumberConversion) (s : PrintState m) :
    conversion with64BitMath depth file flags number.letter s =
      (vaArg32 s.va).bind fun (arg, va) =>
        field32 file flags number.base arg (number.print file depth arg) { s with va := va } := by
  cases number <;> rfl

theorem putxX_passes (prints : file.Prints) (arg : BitVec 32) {a : UInt8} {chars : List UInt8}
    (areChars : ∀ x, x < 16 → digitChar a x ≠ 0)
    (same : ∀ x, x < 16 → digitChar a x = chars.getD x 0) :
    Passes (fun out => some (putxX file arg a out))
      ((numeral 16 arg.toNat).map fun digit => chars.getD digit 0) := by
  have emits := putxXLoop_emits prints arg.toNat areChars (show 8 < 2 ^ 31 by decide)
  have whole : significant 16 arg.toNat 8 false = numeral 16 arg.toNat :=
    significant_eq_numeral (by decide) (by decide) arg.isLt
  have table : (numeral 16 arg.toNat).map (digitChar a) =
      (numeral 16 arg.toNat).map fun digit => chars.getD digit 0 :=
    List.map_congr_left fun digit isDigit => same digit (lt_of_mem_numeral (by decide) isDigit)
  rw [whole, table] at emits
  exact Passes.of_emits emits

/-- A decimal digit by the table of characters. -/
theorem digitText_eq (n : Nat) :
    digitText n = (numeral 10 n).map fun digit => NumberConversion.d.chars.getD digit 0 := by
  have same : ∀ digit, digit < 10 →
    decimalDigit digit = NumberConversion.d.chars.getD digit 0 := by decide
  exact List.map_congr_left fun digit isDigit => same digit (lt_of_mem_numeral (by decide) isDigit)

theorem decimalText_eq (arg : BitVec 32) :
    decimalText arg.toInt = NumberConversion.d.number arg := by
  rw [decimalText, digitText_eq]
  by_cases negative : arg.toInt < 0
  · rw [if_pos negative, NumberConversion.number, NumberConversion.sign, if_pos ⟨rfl, negative⟩]
    rfl
  · rw [if_neg negative, NumberConversion.number, NumberConversion.sign,
      if_neg fun both => negative both.2]
    rfl

theorem print_passes (prints : file.Prints) (depth : Nat) {conversion : NumberConversion}
    {arg : BitVec 32} (negatable : conversion.signed = true → arg ≠ BitVec.intMin 32) :
    Passes (conversion.print file (depth + 2) arg) (conversion.number arg) := by
  have signed : arg ≠ BitVec.intMin 32 → Passes (putd file (depth + 2) arg.toInt)
      (NumberConversion.d.number arg) := by
    intro notSmallest out
    have bounds := toInt_bounds notSmallest
    rcases putd_eq prints.ne_null bounds.1 bounds.2 depth out with ⟨count, result, _counted⟩
    rw [decimalText_eq] at result
    exact ⟨count, result⟩
  cases conversion with
  | d => exact signed (negatable rfl)
  | i => exact signed (negatable rfl)
  | u =>
      have emits := putu_emits prints.ne_null arg.isLt
      rw [digitText_eq] at emits
      exact Passes.of_emits emits
  | x => exact putxX_passes prints arg lowerCase (by decide)
  | X => exact putxX_passes prints arg upperCase (by decide)

/-- The padding of a number on one of its sides. -/
theorem padn32_passes (prints : file.Prints) {base : Nat} (wide : 10 ≤ base) (arg : BitVec 32)
    {pad : Nat} (small : pad < 2 ^ 31) (zlead leftalign : Bool) :
    Passes (fun out => some (padn32 file arg.toInt base pad zlead leftalign out))
      (if leftalign then [] else List.replicate (pad - signedLength base arg)
        (padcharOf zlead)) := by
  have isChar : padcharOf zlead ≠ 0 := by cases zlead <;> decide
  have emits := padTo_emits (prints _ isChar) (nstrlen32 arg.toInt base) pad leftalign
  have length := signedLength_le wide arg
  have missing : (wrap32 (pad - signedLength base arg)).toNat = pad - signedLength base arg := by
    rw [wrap32_eq (by omega) (by omega)]
    omega
  have bytes : padding (padcharOf zlead) (nstrlen32 arg.toInt base) pad leftalign =
      if leftalign then [] else List.replicate (pad - signedLength base arg) (padcharOf zlead) := by
    rw [padding, nstrlen32_eq (by omega), missing]
  rw [bytes] at emits
  exact Passes.of_emits emits

namespace NumberFormat

/-- The bytes that `vfprintf` prints. -/
def printed (format : NumberFormat) (arg : BitVec 32) : List UInt8 :=
  let missing := format.width.pad - signedLength format.conversion.base arg
  if format.left then format.conversion.number arg ++ List.replicate missing (ascii ' ')
  else List.replicate missing (padcharOf format.zero) ++ format.conversion.number arg

theorem isFlag_letter (conversion : NumberConversion) : isFlag conversion.letter = false := by
  cases conversion <;> decide

theorem ten_le_base (conversion : NumberConversion) : 10 ≤ conversion.base := by
  cases conversion <;> decide

end NumberFormat

theorem vfprintfStep_number (with64BitMath : Bool) (depth : Nat) (prints : file.Prints)
    (format : NumberFormat)
    {arg : BitVec 32} (negatable : format.conversion.signed = true → arg ≠ BitVec.intMin 32)
    {s : PrintState m} {rest : List UInt8} (atFormat : s.format = format.text ++ rest)
    {va : List (Arg m)} (args : s.va = format.width.args ++ .int32 arg :: va) :
    ∃ s', vfprintfStep with64BitMath (depth + 2) file s = some s' ∧
      s'.out = s.out ++ format.printed arg := by
  have noFlag := NumberFormat.isFlag_letter format.conversion
  have behind : s.format = ascii '%' ::
      (format.flags ++ (format.width.text ++ format.conversion.letter :: rest)) := by
    rw [atFormat, NumberFormat.text]
    simp only [List.cons_append, List.append_assoc, List.nil_append]
  have enough : format.width.text.length <
      (format.width.text ++ format.conversion.letter :: rest).length := by
    rw [List.length_append, List.length_cons]
    omega
  have read : flagsLoop
      (format.flags ++ (format.width.text ++ format.conversion.letter :: rest)).length
      (format.flags ++ (format.width.text ++ format.conversion.letter :: rest)) s.va
        ⟨false, false, 0⟩ =
      some (format.conversion.letter :: rest, .int32 arg :: va,
        ⟨format.left, format.zero, format.width.pad⟩) := by
    rw [List.length_append, Nat.add_comm, flagsLoop_signs format.areFlags, args]
    exact flagsLoop_width format.valid noFlag enough rest (.int32 arg :: va) _ _
  have turn : vfprintfStep with64BitMath (depth + 2) file s =
      field32 file (Flags.settled ⟨format.left, format.zero, format.width.pad⟩)
        format.conversion.base arg
        (format.conversion.print file (depth + 2) arg) { s with format := rest, va := va } := by
    rw [vfprintfStep, behind]
    dsimp only
    rw [if_pos rfl, read, Option.bind_some]
    exact conversion_number with64BitMath (depth + 2) _ format.conversion _
  have pads :=
    fun zlead leftalign => padn32_passes prints (NumberFormat.ten_le_base format.conversion) arg
    (FieldWidth.pad_lt format.valid) zlead leftalign
  have body := print_passes prints depth negatable
  rw [turn, NumberFormat.printed]
  cases left : format.left with
  | true =>
      rcases field_passes (pads false) body true { s with format := rest, va := va } with
        ⟨s', printed, out⟩
      refine ⟨s', printed, out.trans ?_⟩
      rfl
  | false =>
      rcases field_passes (pads format.zero) body false { s with format := rest, va := va } with
        ⟨s', printed, out⟩
      refine ⟨s', printed, out.trans ?_⟩
      simp

end

/-! ## The difference -/

/-- The condition under which `vfprintf` and ISO C agree.  A decimal width has
at most five digits.  The zeros of a negative number are not to be seen.  And
the length of an unsigned number as a signed one is right, or no padding is
asked for by either length. -/
def NumberFormat.Agrees (format : NumberFormat) (arg : BitVec 32) : Prop :=
  (∀ width, format.width = .literal width → width < 100000) ∧
  (format.conversion.signed = true → ¬ (format.left = false ∧ format.zero = true ∧ arg.toInt < 0 ∧
    (format.conversion.number arg).length < format.width.value)) ∧
  (format.conversion.signed = false →
    signedLength format.conversion.base arg = (format.conversion.number arg).length ∨
    (format.width.value ≤ signedLength format.conversion.base arg ∧
      format.width.value ≤ (format.conversion.number arg).length))

theorem FieldWidth.pad_cases (width : FieldWidth) :
    (width.pad = width.value ∧ ∀ n, width = .literal n → n < 100000) ∨
    (width.pad + 65536 ≤ width.value ∧ ¬ ∀ n, width = .literal n → n < 100000) := by
  cases width with
  | absent => exact Or.inl ⟨rfl, fun _n same => nomatch same⟩
  | star width => exact Or.inl ⟨rfl, fun _n same => nomatch same⟩
  | literal width =>
      rcases truncatedValue_eq_or_le width with ⟨same, small⟩ | ⟨less, large⟩
      · refine Or.inl ⟨same, fun n isLiteral => ?_⟩
        rw [← FieldWidth.literal.inj isLiteral]
        exact small
      · exact Or.inr ⟨less, fun allSmall => absurd (allSmall width rfl) (Nat.not_lt.mpr large)⟩

/-- Two paddings have the same length: the width is right, and so is the length
that is taken off, unless none is left by either. -/
theorem missing_eq_iff (width : FieldWidth) {length length' : Nat} (positive : 0 < length)
    (short : length' ≤ 11) :
    width.pad - length = width.value - length' ↔
      (∀ n, width = .literal n → n < 100000) ∧
        (length = length' ∨ (width.value ≤ length ∧ width.value ≤ length')) := by
  rcases width.pad_cases with ⟨same, right⟩ | ⟨less, wrong⟩
  · rw [same]
    constructor
    · intro missing
      exact ⟨right, by omega⟩
    · rintro ⟨_right, lengths⟩
      omega
  · constructor
    · intro missing
      omega
    · rintro ⟨right, _lengths⟩
      exact absurd right wrong

namespace NumberConversion

theorem length_number (conversion : NumberConversion) (arg : BitVec 32) :
    (conversion.number arg).length =
      (conversion.sign arg).length +
        (numeral conversion.base (conversion.magnitude arg)).length := by
  rw [number, digits, List.length_append, List.length_map]

/-- The length of a signed number is the one that `_nstrlen32` finds. -/
theorem signedLength_eq {conversion : NumberConversion} (isSigned : conversion.signed = true)
    {arg : BitVec 32} (notSmallest : arg ≠ BitVec.intMin 32) :
    signedLength conversion.base arg = (conversion.number arg).length := by
  rw [length_number, signedLength, magnitude, if_pos isSigned, sign]
  by_cases natural : arg.toInt ≥ 0
  · have absolute : arg.toInt.natAbs = arg.toNat := by
      rw [toInt_of_nonneg natural]
      rfl
    rw [if_pos natural, if_neg fun both => absurd both.2 (by omega), absolute]
    exact (Nat.zero_add _).symm
  · rw [if_neg natural, if_neg notSmallest, if_pos ⟨isSigned, by omega⟩]
    rfl

theorem length_number_le (conversion : NumberConversion) (arg : BitVec 32) :
    (conversion.number arg).length ≤ 11 := by
  have bound := arg.isLt
  have lower := BitVec.le_toInt arg
  have upper := BitVec.toInt_lt (x := arg)
  have magnitude_lt : conversion.magnitude arg < 2 ^ 32 := by
    rw [magnitude]
    split <;> omega
  have power : 10 ^ 10 ≤ conversion.base ^ 10 :=
    Nat.pow_le_pow_left (NumberFormat.ten_le_base conversion) 10
  have wide := NumberFormat.ten_le_base conversion
  have digits_le : (numeral conversion.base (conversion.magnitude arg)).length ≤ 10 :=
    numeral_length_le (by omega) (by decide) (by omega)
  rw [length_number, sign]
  split <;> simp <;> omega

end NumberConversion

/-- Zeros in front of a sign are never the ones behind it. -/
theorem zeros_sign_iff (count count' : Nat) (digits : List UInt8) :
    List.replicate count (ascii '0') ++ ascii '-' :: digits =
        ascii '-' :: (List.replicate count' (ascii '0') ++ digits) ↔
      count = 0 ∧ count' = 0 := by
  constructor
  · intro same
    have lengths := congrArg List.length same
    simp only [List.length_append, List.length_replicate, List.length_cons] at lengths
    cases count with
    | zero => exact ⟨rfl, by omega⟩
    | succ count =>
        rw [List.replicate_succ] at same
        exact absurd (List.cons.inj same).1 (by decide)
  · rintro ⟨rfl, rfl⟩
    rfl

namespace NumberFormat

variable {format : NumberFormat} {arg : BitVec 32}

/-- What `vfprintf` and ISO C print differs in the length of the padding only,
unless zeros stand in front of a sign. -/
theorem printed_eq_iso_iff_missing
    (plain : format.left = true ∨ format.zero = false ∨ format.conversion.sign arg = []) :
    format.printed arg = format.iso arg ↔
      format.width.pad - signedLength format.conversion.base arg =
        format.width.value - (format.conversion.number arg).length := by
  rw [printed, iso]
  by_cases left : format.left = true
  · rw [if_pos left, if_pos left, List.append_cancel_left_eq, List.replicate_left_inj]
  · rw [if_neg left, if_neg left]
    by_cases zero : format.zero = true
    · have unsigned : format.conversion.sign arg = [] := by
        rcases plain with isLeft | noZero | unsigned
        · exact absurd isLeft left
        · rw [noZero] at zero
          cases zero
        · exact unsigned
      rw [if_pos zero, zero, NumberConversion.number, unsigned, List.nil_append, List.nil_append,
        List.append_cancel_right_eq]
      exact List.replicate_left_inj
    · rw [if_neg zero, eq_false_of_ne_true zero, List.append_cancel_right_eq]
      exact List.replicate_left_inj

/-- On a padded negative number the zeros stand in front of the sign. -/
theorem printed_eq_iso_iff_zeros (right : format.left = false) (zero : format.zero = true)
    (signed : format.conversion.sign arg = [ascii '-']) :
    format.printed arg = format.iso arg ↔
      format.width.pad - signedLength format.conversion.base arg = 0 ∧
        format.width.value - (format.conversion.number arg).length = 0 := by
  have noLeft : ¬ format.left = true := by rw [right]; decide
  rw [printed, iso, if_neg noLeft, if_neg noLeft, if_pos zero, zero,
    NumberConversion.number, signed]
  exact zeros_sign_iff _ _ _

theorem printed_eq_iso_iff (negatable : format.conversion.signed = true → arg ≠ BitVec.intMin 32) :
    format.printed arg = format.iso arg ↔ format.Agrees arg := by
  have positive := signedLength_pos format.conversion.base arg
  have short := NumberConversion.length_number_le format.conversion arg
  have missing := missing_eq_iff format.width positive short
  rw [Agrees]
  cases isSigned : format.conversion.signed with
  | false =>
      have unsigned : format.conversion.sign arg = [] := by
        rw [NumberConversion.sign, if_neg]
        rw [isSigned]
        exact fun both => absurd both.1 (by decide)
      rw [printed_eq_iso_iff_missing (Or.inr (Or.inr unsigned)), missing]
      constructor
      · rintro ⟨right, lengths⟩
        exact ⟨right, fun impossible => absurd impossible (by decide), fun _unsigned => lengths⟩
      · rintro ⟨right, _zeros, lengths⟩
        exact ⟨right, lengths rfl⟩
  | true =>
      have length := NumberConversion.signedLength_eq isSigned (negatable isSigned)
      by_cases hidden : format.left = false ∧ format.zero = true ∧ arg.toInt < 0
      · have minus : format.conversion.sign arg = [ascii '-'] := if_pos ⟨isSigned, hidden.2.2⟩
        rw [printed_eq_iso_iff_zeros hidden.1 hidden.2.1 minus]
        constructor
        · rintro ⟨_noZeros, noMissing⟩
          refine ⟨?_, fun _signed shown => ?_, fun impossible => absurd impossible (by decide)⟩
          · exact (missing.mp (by omega)).1
          · have wide := shown.2.2.2
            omega
        · rintro ⟨right, shown, _lengths⟩
          have narrow : ¬ (format.conversion.number arg).length < format.width.value := fun wide =>
            shown rfl ⟨hidden.1, hidden.2.1, hidden.2.2, wide⟩
          have same := missing.mpr ⟨right, Or.inl length⟩
          omega
      · have plain : format.left = true ∨ format.zero = false ∨
            format.conversion.sign arg = [] := by
          by_cases left : format.left = true
          · exact Or.inl left
          by_cases zero : format.zero = true
          · refine Or.inr
              (Or.inr (if_neg fun both => hidden ⟨eq_false_of_ne_true left, zero, both.2⟩))
          · exact Or.inr (Or.inl (eq_false_of_ne_true zero))
        rw [printed_eq_iso_iff_missing plain, missing]
        constructor
        · rintro ⟨right, _lengths⟩
          exact ⟨right, fun _signed shown => hidden ⟨shown.1, shown.2.1, shown.2.2.1⟩,
            fun impossible => absurd impossible (by decide)⟩
        · rintro ⟨right, _shown, _lengths⟩
          exact ⟨right, Or.inl length⟩

end NumberFormat

section

variable {m : Machine} {file : File}

/-- In every format and on every file that takes its characters, a number
conversion prints what ISO C says exactly when the decimal width has at most
five digits, no zeros are put in front of a minus sign, and the length of an
unsigned number as a signed one makes no difference to the padding. -/
theorem number_conversion_iff (with64BitMath : Bool) (depth : Nat) (prints : file.Prints)
    (format : NumberFormat) {arg : BitVec 32}
    (negatable : format.conversion.signed = true → arg ≠ BitVec.intMin 32) {s : PrintState m}
    {rest : List UInt8} (atFormat : s.format = format.text ++ rest) {va : List (Arg m)}
    (args : s.va = format.width.args ++ .int32 arg :: va) :
    (∃ s', vfprintfStep with64BitMath (depth + 2) file s = some s' ∧
      s'.out = s.out ++ format.iso arg) ↔
      format.Agrees arg := by
  rcases vfprintfStep_number with64BitMath depth prints format negatable atFormat args with
    ⟨s', turn, out⟩
  rw [← NumberFormat.printed_eq_iso_iff negatable]
  constructor
  · rintro ⟨other, turn', out'⟩
    rw [Option.some.inj (turn'.symm.trans turn), out] at out'
    exact List.append_cancel_left out'
  · intro same
    exact ⟨s', turn, by rw [out, same]⟩

end

/-- `%-8d`. -/
def leftEight : NumberFormat where
  flags := [ascii '-']
  areFlags := List.forall_mem_singleton.mpr (Or.inr rfl)
  width := .literal 8
  valid := ⟨by decide, by decide⟩
  conversion := .d

/-- `%05d`. -/
def zeroFive : NumberFormat where
  flags := [ascii '0']
  areFlags := List.forall_mem_singleton.mpr (Or.inl rfl)
  width := .literal 5
  valid := ⟨by decide, by decide⟩
  conversion := .d

def minusFortyTwo : BitVec 32 := BitVec.ofInt 32 (-42)

theorem minusFortyTwo_negatable (format : NumberFormat) :
    format.conversion.signed = true → minusFortyTwo ≠ BitVec.intMin 32 := fun _signed => by decide

/-- `%-8d` with `-42` in the middle of a format. -/
theorem number_conversion_iff_leftEight :
    ∃ s' : PrintState Machine.beaglexm,
      vfprintfStep false 2 .debugOut
          (.start (leftEight.text ++ [ascii '\n', 0])
            (leftEight.width.args ++ [.int32 minusFortyTwo]) []) =
        some s' ∧ s'.out = [] ++ leftEight.iso minusFortyTwo := by
  have negatable := minusFortyTwo_negatable leftEight
  refine (number_conversion_iff false 0 File.debugOut_prints leftEight negatable rfl rfl).mpr ?_
  refine ⟨fun width same => ?_, fun _signed shown => ?_, fun unsigned => nomatch unsigned⟩
  · rw [← FieldWidth.literal.inj same]
    decide
  · exact absurd shown.1 (by decide)

/-- `%05d` prints `-42` as `00-42`. -/
theorem not_number_conversion :
    ¬ ∀ (format : NumberFormat) (arg : BitVec 32),
      (format.conversion.signed = true → arg ≠ BitVec.intMin 32) →
      ∀ s : PrintState Machine.beaglexm, s.format = format.text ++ [0] →
        s.va = format.width.args ++ [.int32 arg] →
        ∃ s', vfprintfStep false 2 .debugOut s = some s' ∧ s'.out = s.out ++ format.iso arg := by
  intro conforms
  have negatable := minusFortyTwo_negatable zeroFive
  let start : PrintState Machine.beaglexm :=
    .start (zeroFive.text ++ [0]) (zeroFive.width.args ++ [.int32 minusFortyTwo]) []
  rcases conforms zeroFive _ negatable start rfl rfl with ⟨s', turn, out⟩
  rcases vfprintfStep_number false 0 File.debugOut_prints zeroFive negatable
      (s := start) rfl rfl with
    ⟨s'', turn', out'⟩
  rw [Option.some.inj (turn.symm.trans turn'), out'] at out
  have same := (NumberFormat.printed_eq_iso_iff negatable).mp (List.append_cancel_left out)
  exact same.2.1 rfl (by decide)

end Stdlib
end ShovelOS
