import ShovelOS.Stdlib.Vfprintf

namespace ShovelOS
namespace Stdlib

/-!
# The formats of `vfprintf`

A format is a sequence of pieces: characters that stand for themselves, and
conversion specifications.  A specification is a percent sign, any number of
flag characters, and the letters of a conversion.  `vfprintf` accepts the
digits of a width anywhere among the flags.

Behind the pieces comes the NUL, or a malformed specification, in which no
conversion follows the flags.  Every string is of this form.
-/

/-- A character of the alignment or the padding. -/
def isFlag (c : UInt8) : Bool := isdigit c || c == ascii '-' || c == ascii '*'

/-- The conversions of `vfprintf`. -/
inductive Conversion where
  | percent | c | u | i | d | p | x | X | s | ll | ld | lu | lx | lX
  deriving DecidableEq

def Conversion.letters : Conversion → List UInt8
  | .percent => [ascii '%']
  | .c => [ascii 'c']
  | .u => [ascii 'u']
  | .i => [ascii 'i']
  | .d => [ascii 'd']
  | .p => [ascii 'p']
  | .x => [ascii 'x']
  | .X => [ascii 'X']
  | .s => [ascii 's']
  | .ll => [ascii 'l', ascii 'l']
  | .ld => [ascii 'l', ascii 'd']
  | .lu => [ascii 'l', ascii 'u']
  | .lx => [ascii 'l', ascii 'x']
  | .lX => [ascii 'l', ascii 'X']

/-- A list of flag characters. -/
structure FlagRun where
  chars : List UInt8
  areFlags : ∀ c ∈ chars, isFlag c = true

def FlagRun.empty : FlagRun := ⟨[], fun _c member => nomatch member⟩

def FlagRun.star : FlagRun := ⟨[ascii '*'], List.forall_mem_singleton.mpr rfl⟩

/-- The number of widths that come as arguments. -/
def FlagRun.stars (run : FlagRun) : Nat := run.chars.count (ascii '*')

/-- A piece of a format. -/
inductive Piece where
  | literal (char : UInt8) (isChar : char ≠ 0) (stands : char ≠ ascii '%')
  | directive (run : FlagRun) (conversion : Conversion)

namespace Piece

def text : Piece → List UInt8
  | .literal char _isChar _stands => [char]
  | .directive run conversion => ascii '%' :: (run.chars ++ conversion.letters)

/-- The number of widths that a piece takes from the arguments. -/
def stars : Piece → Nat
  | .literal .. => 0
  | .directive run _conversion => run.stars

end Piece

/-- The letters that no conversion begins with: a character that is neither a
flag nor a conversion, or such a one behind an `l`.  The NUL is one of them. -/
inductive Misspelt : List UInt8 → Prop
  | short {char : UInt8} (noFlag : isFlag char = false)
      (unknown : ∀ conversion : Conversion, conversion.letters.head? ≠ some char) : Misspelt [char]
  | long {char : UInt8} (unknown : ∀ conversion : Conversion, conversion.letters ≠
      [ascii 'l', char]) :
      Misspelt [ascii 'l', char]

/-- How the pieces of a format end: at the NUL, or in a malformed
specification. -/
inductive Ending where
  | complete
  | malformed (run : FlagRun) (letters : List UInt8) (misspelt : Misspelt letters)

namespace Ending

def text : Ending → List UInt8
  | .complete => [0]
  | .malformed run letters _misspelt => ascii '%' :: (run.chars ++ letters)

def stars : Ending → Nat
  | .complete => 0
  | .malformed run _letters _misspelt => run.stars

end Ending

def textOf (pieces : List Piece) : List UInt8 := pieces.flatMap Piece.text

/-- A string in memory consists of these pieces and this ending, and the rest
of the object behind them. -/
def Consists (string : List UInt8) (pieces : List Piece) (ending : Ending) : Prop :=
  ∃ rest, string = textOf pieces ++ (ending.text ++ rest)

/-! ## Arguments of pieces -/

inductive ArgType where
  | int32 | int64 | pointer | string
  deriving DecidableEq

def Arg.type {m : Machine} : Arg m → ArgType
  | .int32 _value => .int32
  | .int64 _value => .int64
  | .pointer _address => .pointer
  | .string _bytes => .string

/-- The type of the argument that belongs to a conversion. -/
def Conversion.takes : Conversion → Option ArgType
  | .percent => none
  | .c | .u | .i | .d | .x | .X => some .int32
  | .p => some .pointer
  | .s => some .string
  | .ll | .ld | .lu | .lx | .lX => some .int64

/-- The type of the argument that a build fetches for a conversion. -/
def Conversion.fetches (m : Machine) (with64BitMath : Bool) : Conversion → Option ArgType
  | .p => if m.wordTBytes = 8 ∧ with64BitMath = false then none else some .pointer
  | .ll | .ld | .lu | .lx | .lX => if with64BitMath then some .int64 else none
  | other => other.takes

namespace Piece

/-- The type of the argument that belongs to a piece. -/
def takes : Piece → Option ArgType
  | .literal .. => none
  | .directive _run conversion => conversion.takes

/-- The type of the argument that a build fetches for a piece. -/
def fetches (m : Machine) (with64BitMath : Bool) : Piece → Option ArgType
  | .literal .. => none
  | .directive _run conversion => conversion.fetches m with64BitMath

/-- The piece prints a signed number of 32 bits. -/
def signed : Piece → Prop
  | .directive _run conversion => conversion = .i ∨ conversion = .d
  | _ => False

end Piece

/-- The arguments of one piece: its widths and its value. -/
structure Operands (m : Machine) where
  widths : List (BitVec 32)
  value : Option (Arg m)

/-- The operands of a piece as arguments. -/
def Operands.args {m : Machine} (operands : Operands m) : List (Arg m) :=
  operands.widths.map Arg.int32 ++ operands.value.toList

def argsOf {m : Machine} (operands : List (Operands m)) : List (Arg m) :=
  operands.flatMap Operands.args

/-! ## Every string consists of pieces -/

theorem Consists.cons {string : List UInt8} {pieces : List Piece} {ending : Ending}
    (consists : Consists string pieces ending) (piece : Piece) :
    Consists (piece.text ++ string) (piece :: pieces) ending := by
  rcases consists with ⟨rest, rfl⟩
  exact ⟨rest, (List.append_assoc ..).symm⟩

theorem letters_of_short {conversion : Conversion} {char : UInt8}
    (known : conversion.letters.head? = some char) (notLong : char ≠ ascii 'l') :
    conversion.letters = [char] := by
  cases conversion with
  | ll | ld | lu | lx | lX => exact absurd (Option.some.inj known).symm notLong
  | _ => exact congrArg (fun other => [other]) (Option.some.inj known)

theorem zero_not_mem_letters (conversion : Conversion) : 0 ∉ conversion.letters := by
  cases conversion <;> decide

theorem head_ne_zero (conversion : Conversion) : conversion.letters.head? ≠ some 0 := fun head =>
  zero_not_mem_letters conversion (List.mem_of_mem_head? head)

/-- Behind the flags of a specification there are the letters of a conversion,
or a malformed specification ends there. -/
theorem letters_or_misspelt {char : UInt8} (noFlag : isFlag char = false) (string : List UInt8)
    (terminated : 0 ∈ char :: string) :
    (∃ (conversion : Conversion) (rest : List UInt8), char :: string = conversion.letters ++ rest ∧
      0 ∈ rest) ∨
    (∃ letters rest, char :: string = letters ++ rest ∧ Misspelt letters) := by
  by_cases long : char = ascii 'l'
  · cases string with
    | nil =>
        rw [long] at terminated
        exact absurd terminated (by decide)
    | cons next rest =>
        by_cases known : ∃ conversion : Conversion, conversion.letters = [ascii 'l', next]
        · rcases known with ⟨conversion, letters⟩
          refine Or.inl ⟨conversion, rest, by rw [letters, long]; rfl, ?_⟩
          have notZero : next ≠ 0 := by
            rintro rfl
            exact zero_not_mem_letters conversion (by rw [letters]; decide)
          rw [long] at terminated
          rcases List.mem_cons.mp terminated with zero | later
          · exact absurd zero (by decide)
          · rcases List.mem_cons.mp later with zero | later
            · exact absurd zero.symm notZero
            · exact later
        · rw [long]
          exact Or.inr ⟨[ascii 'l', next], rest, rfl,
            .long fun conversion letters => known ⟨conversion, letters⟩⟩
  · by_cases known : ∃ conversion : Conversion, conversion.letters.head? = some char
    · rcases known with ⟨conversion, head⟩
      have letters := letters_of_short head long
      refine Or.inl ⟨conversion, string, by rw [letters]; rfl, ?_⟩
      rcases List.mem_cons.mp terminated with zero | later
      · exact absurd (head.trans (congrArg some zero.symm)) (head_ne_zero conversion)
      · exact later
    · exact Or.inr
        ⟨[char], string, rfl, .short noFlag fun conversion head => known ⟨conversion, head⟩⟩

/-- The flags that a string begins with. -/
theorem flags_then {string : List UInt8} (terminated : 0 ∈ string) :
    ∃ (run : FlagRun) (char : UInt8) (rest : List UInt8), string = run.chars ++ char :: rest ∧
      isFlag char = false ∧ 0 ∈ char :: rest := by
  induction string with
  | nil => cases terminated
  | cons char string inductionHypothesis =>
      cases flag : isFlag char with
      | false => exact ⟨.empty, char, string, rfl, flag, terminated⟩
      | true =>
          have notZero : (0 : UInt8) ≠ char := by
            rintro rfl
            cases flag
          have later : 0 ∈ string := (List.mem_cons.mp terminated).resolve_left notZero
          rcases inductionHypothesis later with ⟨run, next, rest, split, noFlag, remains⟩
          refine ⟨⟨char :: run.chars, ?_⟩, next, rest, by rw [split]; rfl, noFlag, remains⟩
          intro other member
          rcases List.mem_cons.mp member with rfl | member
          · exact flag
          · exact run.areFlags other member

/-- Every string with a NUL consists of pieces and an ending. -/
theorem exists_pieces (string : List UInt8) (terminated : 0 ∈ string) :
    ∃ pieces ending, Consists string pieces ending := by
  induction length : string.length using Nat.strong_induction_on generalizing string with
  | _ size inductionHypothesis =>
      cases string with
      | nil => cases terminated
      | cons char string =>
          by_cases zero : char = 0
          · exact ⟨[], .complete, string, by rw [zero]; rfl⟩
          have later : 0 ∈ string :=
            (List.mem_cons.mp terminated).resolve_left fun same => zero same.symm
          by_cases percent : char = ascii '%'
          · rcases flags_then later with ⟨run, next, rest, rfl, noFlag, remains⟩
            rcases letters_or_misspelt noFlag rest remains with
              ⟨conversion, behind, letters, still⟩ | ⟨letters, behind, split, misspelt⟩
            · have shorter : behind.length < size := by
                have lengths := congrArg List.length letters
                rw [← length, letters]
                simp only [List.length_cons, List.length_append]
                omega
              rcases inductionHypothesis _ shorter behind still rfl with ⟨pieces, ending, consists⟩
              have longer := consists.cons (.directive run conversion)
              refine ⟨.directive run conversion :: pieces, ending, ?_⟩
              rw [letters, percent, ← List.append_assoc]
              exact longer
            · refine ⟨[], .malformed run letters misspelt, behind, ?_⟩
              rw [split, percent, ← List.append_assoc]
              rfl
          · have shorter : string.length < size := by
              rw [← length]
              exact Nat.lt_succ_self _
            rcases inductionHypothesis _ shorter string later rfl with ⟨pieces, ending, consists⟩
            exact ⟨_, ending, consists.cons (.literal char zero percent)⟩

end Stdlib
end ShovelOS
