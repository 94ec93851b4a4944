import ShovelOS.Stdlib.Emit

namespace ShovelOS
namespace Stdlib

/-!
# `vfprintf`

One turn of the loop of `vfprintf` handles a character of the format that
stands for itself, or a whole conversion specification.  Its state holds the
format pointer, the arguments that are left, the two local variables `l` and
`err`, and the bytes that the file has been given.

The arguments carry their types.  Fetching one at another type has no value,
and neither has reading the format behind its end.  `with64BitMath` is the
build option `__WITH_64BIT_MATH`, which is off by default.
-/

inductive Arg (m : Machine) where
  | int32 (value : BitVec 32)
  | int64 (value : BitVec 64)
  | pointer (address : BitVec m.wordTBits)
  | string (bytes : List UInt8)

variable {m : Machine}

/-- `va_arg(va, int32_t)` and `va_arg(va, uint32_t)`.  Where pointers have four
bytes, one of them can be fetched as well. -/
def vaArg32 : List (Arg m) → Option (BitVec 32 × List (Arg m))
  | .int32 value :: va => some (value, va)
  | .pointer address :: va => if m.wordTBytes = 4 then some (address.setWidth 32, va) else none
  | _ => none

/-- `va_arg(va, int64_t)` and `va_arg(va, uint64_t)`. -/
def vaArg64 : List (Arg m) → Option (BitVec 64 × List (Arg m))
  | .int64 value :: va => some (value, va)
  | .pointer address :: va => if m.wordTBytes = 8 then some (address.setWidth 64, va) else none
  | _ => none

/-- `va_arg(va, const char *)`. -/
def vaArgString : List (Arg m) → Option (List UInt8 × List (Arg m))
  | .string bytes :: va => some (bytes, va)
  | _ => none

/-- The locals that hold the alignment and padding of one specification. -/
structure Flags where
  leftalign : Bool
  zlead : Bool
  pad : Int

/-- The effect of a width that comes as an argument. -/
def Flags.star (flags : Flags) (pad : Int) : Flags :=
  if pad < 0 then { flags with pad := wrap32 (-pad), leftalign := true } else
    { flags with pad := pad }

/-- `if(leftalign) zlead=0`. -/
def Flags.settled (flags : Flags) : Flags :=
  if flags.leftalign then { flags with zlead := false } else flags

/-- `while(isdigit(*format)) ++format`. -/
def skipDigits : List UInt8 → Option (List UInt8)
  | [] => none
  | c :: format => if isdigit c then skipDigits format else some (c :: format)

/-- The loop that determines the formatting.  Every turn but the last moves the
format pointer on. -/
def flagsLoop : Nat → List UInt8 → List (Arg m) → Flags → Option (List UInt8 × List (Arg m) × Flags)
  | 0, _format, _va, _flags => none
  | _turns + 1, [], _va, _flags => none
  | turns + 1, c :: format, va, flags =>
      if c = ascii '0' then flagsLoop turns format va { flags with zlead := true }
      else if c = ascii '-' then flagsLoop turns format va { flags with leftalign := true }
      else if c = ascii '*' then
        (vaArg32 va).bind fun (pad, va) => flagsLoop turns format va (flags.star pad.toInt)
      else if isdigit c then
        (atoi (c :: format)).bind fun pad => (skipDigits (c :: format)).bind fun format =>
          flagsLoop turns format va { flags with pad := pad }
      else some (c :: format, va, flags)

/-- The variables of `vfprintf`, and the bytes that the file has been given. -/
structure PrintState (m : Machine) where
  format : List UInt8
  va : List (Arg m)
  l : BitVec m.wordTBits
  err : Bool
  out : List UInt8

/-- A helper that prints, or never returns. -/
abbrev Printer := List UInt8 → Option (Int × List UInt8)

namespace PrintState

/-- `l += print(file, ...)`. -/
def emit (s : PrintState m) (print : Printer) : Option (PrintState m) :=
  (print s.out).map fun (count, out) =>
    { s with l := s.l + BitVec.ofInt m.wordTBits count, out := out }

/-- The three lines that all conversions share: padding on the left, the
converted argument, padding on the right. -/
def field (s : PrintState m) (pad : Bool → Printer) (body : Printer) (leftalign : Bool) :
    Option (PrintState m) :=
  ((s.emit (pad leftalign)).bind fun s => s.emit body).bind fun s => s.emit (pad !leftalign)

end PrintState

variable (with64BitMath : Bool) (depth : Nat) (file : File) (flags : Flags)

def field32 (base : Int) (arg : BitVec 32) (digits : Printer) (s : PrintState m) :
    Option (PrintState m) :=
  s.field (fun leftalign out =>
    some (padn32 file arg.toInt base flags.pad flags.zlead leftalign out)) digits
    flags.leftalign

def field64 (base : Int) (arg : BitVec 64) (digits : Printer) (s : PrintState m) :
    Option (PrintState m) :=
  s.field (fun leftalign out =>
    some (padn64 file arg.toInt base flags.pad flags.zlead leftalign out)) digits
    flags.leftalign

/-- `case 'x'`, which `case 'p'` falls into. -/
def convertHex (s : PrintState m) : Option (PrintState m) :=
  (vaArg32 s.va).bind fun (arg, va) =>
    field32 file flags 16 arg (fun out => some (putx file arg out)) { s with va := va }

/-- One case of the inner switch, whose body depends on the build. -/
def convertLong (base : Int) (digits : BitVec 64 → List UInt8 → Int × List UInt8)
    (s : PrintState m) :
    Option (PrintState m) :=
  if with64BitMath then
    (vaArg64 s.va).bind fun (arg, va) =>
      field64 file flags base arg (fun out => some (digits arg out)) { s with va := va }
  else some s

/-- The inner `switch(*format++)`, behind an `l`. -/
def longConversion (c : UInt8) (s : PrintState m) : Option (PrintState m) :=
  if c = ascii 'l' ∨ c = ascii 'd' then convertLong with64BitMath file flags 10 (putll file) s
  else if c = ascii 'u' then convertLong with64BitMath file flags 10 (putlu file) s
  else if c = ascii 'x' then convertLong with64BitMath file flags 16 (putlx file) s
  else if c = ascii 'X' then convertLong with64BitMath file flags 16 (putlX file) s
  else some { s with err := true }

/-- The outer `switch(*format++)`, with the format pointer already moved on. -/
def conversion (c : UInt8) (s : PrintState m) : Option (PrintState m) :=
  if c = ascii '%' then s.emit fun out => some (putc file (ascii '%') out)
  else if c = ascii 'c' then
    (vaArg32 s.va).bind fun (arg, va) =>
      { s with va := va }.field (fun leftalign out => some (padc file flags.pad leftalign out))
        (fun out => some (putc file (UInt8.ofNat arg.toNat) out)) flags.leftalign
  else if c = ascii 'u' then
    (vaArg32 s.va).bind fun (arg, va) =>
      field32 file flags 10 arg (fun out => some (putu file arg.toNat out)) { s with va := va }
  else if c = ascii 'i' ∨ c = ascii 'd' then
    (vaArg32 s.va).bind fun (arg, va) =>
      field32 file flags 10 arg (putd file depth arg.toInt) { s with va := va }
  else if c = ascii 'p' then
    if m.wordTBytes = 8 then convertLong with64BitMath file flags 16 (putlx file) s
    else convertHex file flags s
  else if c = ascii 'x' then convertHex file flags s
  else if c = ascii 'X' then
    (vaArg32 s.va).bind fun (arg, va) =>
      field32 file flags 16 arg (fun out => some (putX file arg out)) { s with va := va }
  else if c = ascii 's' then
    (vaArgString s.va).bind fun (str, va) =>
      { s with va := va }.field (pads file str flags.pad) (puts m file str) flags.leftalign
  else if c = ascii 'l' then
    match s.format with
    | [] => none
    | c :: format => longConversion with64BitMath file flags c { s with format := format }
  else some { s with err := true }

/-- One turn of the loop of `vfprintf`. -/
def vfprintfStep (s : PrintState m) : Option (PrintState m) :=
  match s.format with
  | [] => none
  | c :: format =>
      if c = ascii '%' then
        (flagsLoop format.length format s.va ⟨false, false, 0⟩).bind fun (format, va, flags) =>
          match format with
          | [] => none
          | c :: format =>
              conversion with64BitMath depth file flags.settled c
                { s with format := format, va := va }
      else { s with format := format }.emit fun out => some (putc file c out)

/-- `while(!err && *format)`. -/
def vfprintfLoop : Nat → PrintState m → Option (PrintState m)
  | 0, _s => none
  | turns + 1, s =>
      if s.err then some s
      else
        match s.format with
        | [] => none
        | c :: _format =>
            if c = 0 then some s else
              (vfprintfStep with64BitMath depth file s).bind (vfprintfLoop turns)

def PrintState.start (format : List UInt8) (va : List (Arg m)) (out : List UInt8) : PrintState m :=
  { format := format, va := va, l := 0, err := false, out := out }

/-- `vfprintf`.  The fuel bounds the turns of its loop and the depth of the
recursion in `_putd`. -/
def vfprintf (m : Machine) (fuel : Nat) (format : List UInt8) (va : List (Arg m))
    (out : List UInt8) :
    Option (Int × List UInt8) :=
  (vfprintfLoop with64BitMath fuel file fuel (.start format va out)).map fun s =>
    (if s.err then -1 else wrap32 s.l.toNat, s.out)

end Stdlib
end ShovelOS
