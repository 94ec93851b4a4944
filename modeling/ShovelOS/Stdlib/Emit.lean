import ShovelOS.Machine
import ShovelOS.Stdlib.Atoi

namespace ShovelOS
namespace Stdlib

open Numeral

/-!
# Printing characters, strings and numbers (`stdlib/fprintf.c`)

The helpers of `vfprintf` pass bytes to a file and return how many there were.
They count in different ways.  Some add up the results of `write`, some count
the bytes themselves.  The two agree on a file that takes all the bytes it is
given.

A helper is modelled as a function of the bytes that have been passed to the
file so far.  It returns its result and the bytes that have been passed then.
-/

/-- A file, as the helpers see it: the value `-1`, which stands for the debug
output, no file at all, or a device.  The result of a write may depend on all
the bytes that came before. -/
inductive File where
  | debugOut
  | null
  | device (write : List UInt8 → List UInt8 → Int)

def strlen : List UInt8 → Option Nat
  | [] => none
  | c :: string => if c = 0 then some 0 else (strlen string).map (· + 1)

/-- The size that `_puts` passes to `write`: the length of the string as an
`int`, and that as a `size_t`. -/
def putsSize (m : Machine) (length : Nat) : Nat := (BitVec.ofInt m.wordTBits (wrap32 length)).toNat

/-- `_puts`.  A device that is asked to read behind the object has no result. -/
def puts (m : Machine) (file : File) (str out : List UInt8) : Option (Int × List UInt8) :=
  (strlen str).bind fun length =>
    match file with
    | .debugOut => some (wrap32 length, out ++ str.take length)
    | .null => some (0, out)
    | .device write =>
        if putsSize m length ≤ str.length then
          some (wrap32 (write out (str.take (putsSize m length))),
            out ++ str.take (putsSize m length))
        else none

/-- `_putc`.  To the debug output the character goes as a string, and the NUL
is the empty one. -/
def putc (file : File) (c : UInt8) (out : List UInt8) : Int × List UInt8 :=
  match file with
  | .debugOut => if c = 0 then (0, out) else (1, out ++ [c])
  | .null => (0, out)
  | .device write => (wrap32 (write out [c]), out ++ [c])

/-- `while((n /= base)>0) ret++`.  A number has fewer divisions than bits. -/
def nstrlenLoop (base : Int) : Nat → Int → Int → Int
  | 0, _n, ret => ret
  | divisions + 1, n, ret =>
      if n.tdiv base > 0 then nstrlenLoop base divisions (n.tdiv base) (ret + 1) else ret

/-- `_nstrlen32` and `_nstrlen64`, by the width of their argument. -/
def nstrlen (width : Nat) (n base : Int) : Int :=
  if n < 0 then nstrlenLoop base width ((-n).bmod (2 ^ width)) 2 else nstrlenLoop base width n 1

def nstrlen32 (n base : Int) : Int := nstrlen 32 n base

def nstrlen64 (n base : Int) : Int := nstrlen 64 n base

/-- `while(pad-- >0) l += _putc(file, padchar)`, by the number of rounds. -/
def padLoop (file : File) (padchar : UInt8) : Nat → Int → List UInt8 → Int × List UInt8
  | 0, l, out => (l, out)
  | pad + 1, l, out =>
      let put := putc file padchar out
      padLoop file padchar pad (wrap32 (l + put.1)) put.2

/-- What the padding functions share: the characters that are missing to a width. -/
def padTo (file : File) (padchar : UInt8) (length pad : Int) (leftalign : Bool) (out : List UInt8) :
    Int × List UInt8 :=
  if leftalign then (0, out) else padLoop file padchar (wrap32 (pad - length)).toNat 0 out

/-- The character that numbers are padded with. -/
def padcharOf (zlead : Bool) : UInt8 := if zlead then ascii '0' else ascii ' '

def padn32 (file : File) (n base pad : Int) (zlead leftalign : Bool) (out : List UInt8) :
    Int × List UInt8 :=
  padTo file (padcharOf zlead) (nstrlen32 n base) pad leftalign out

def padn64 (file : File) (n base pad : Int) (zlead leftalign : Bool) (out : List UInt8) :
    Int × List UInt8 :=
  padTo file (padcharOf zlead) (nstrlen64 n base) pad leftalign out

def padc (file : File) (pad : Int) (leftalign : Bool) (out : List UInt8) : Int × List UInt8 :=
  padTo file (ascii ' ') 1 pad leftalign out

def pads (file : File) (str : List UInt8) (pad : Int) (leftalign : Bool) (out : List UInt8) :
    Option (Int × List UInt8) :=
  if leftalign then some (0, out)
  else (strlen str).map fun length => padTo file (ascii ' ') length pad leftalign out

def digitChar (a : UInt8) (x : Nat) : UInt8 :=
  UInt8.ofNat x + (if x < 10 then ascii '0' else a - 10)

/-- The loop of `__putxX` and `__putlxX`, by the number of places that are left. -/
def putxXLoop (file : File) (n : Nat) (a : UInt8) : Nat → Int → List UInt8 → Int × List UInt8
  | 0, l, out => (l, out)
  | place + 1, l, out =>
      let x := (n >>> (4 * place)) &&& 15
      if x ≠ 0 ∨ l ≠ 0 ∨ place = 0 then
        let put := putc file (digitChar a x) out
        putxXLoop file n a place (wrap32 (l + put.1)) put.2
      else putxXLoop file n a place l out

/-- `__putxX`, with shifts from 28 down. -/
def putxX (file : File) (n : BitVec 32) (a : UInt8) (out : List UInt8) : Int × List UInt8 :=
  putxXLoop file n.toNat a 8 0 out

def putx (file : File) (n : BitVec 32) (out : List UInt8) : Int × List UInt8 :=
  putxX file n (ascii 'a') out

def putX (file : File) (n : BitVec 32) (out : List UInt8) : Int × List UInt8 :=
  putxX file n (ascii 'A') out

/-- `__putlxX`, with shifts from 60 down. -/
def putlxX (file : File) (n : BitVec 64) (a : UInt8) (out : List UInt8) : Int × List UInt8 :=
  putxXLoop file n.toNat a 16 0 out

def putlx (file : File) (n : BitVec 64) (out : List UInt8) : Int × List UInt8 :=
  putlxX file n (ascii 'a') out

def putlX (file : File) (n : BitVec 64) (out : List UInt8) : Int × List UInt8 :=
  putlxX file n (ascii 'A') out

/-- The loop of `_putu` and `_putlu`.  The divisor is a power of ten, and the
count does not look at the results of `_putc`. -/
def putuLoop (file : File) (n : Nat) : Nat → Int → List UInt8 → Int × List UInt8
  | 0, l, out => (l, out)
  | place + 1, l, out =>
      let h := n / 10 ^ place % 10
      if h ≠ 0 ∨ l ≠ 0 ∨ place = 0 then
        putuLoop file n place (l + 1) (putc file (ascii '0' + UInt8.ofNat h) out).2
      else putuLoop file n place l out

/-- `_putu`, with the divisors from `1000000000` down. -/
def putu (file : File) (n : Nat) (out : List UInt8) : Int × List UInt8 := putuLoop file n 10 0 out

/-- `_putlu`, with the divisors from `1000000000000000000` down. -/
def putlu (file : File) (n : BitVec 64) (out : List UInt8) : Int × List UInt8 :=
  putuLoop file n.toNat 19 0 out

/-- `_putd`, with a bound on the depth of its recursion.  The operands of the
sum are evaluated from left to right. -/
def putd (file : File) : Nat → Int → List UInt8 → Option (Int × List UInt8)
  | 0, _n, _out => none
  | depth + 1, n, out =>
      if n ≥ 0 then some (putu file n.toNat out)
      else
        let put := putc file (ascii '-') out
        (putd file depth (wrap32 (-n)) put.2).map fun rest => (wrap32 (put.1 + rest.1), rest.2)

def putll (file : File) (n : BitVec 64) (out : List UInt8) : Int × List UInt8 :=
  if n.toInt ≥ 0 then putlu file n out
  else
    let put := putc file (ascii '-') out
    let rest := putlu file (-n) put.2
    (wrap32 (put.1 + rest.1), rest.2)

/-! ## What a printing function emits -/

theorem wrap32_add_left (x y : Int) : wrap32 (wrap32 x + y) = wrap32 (x + y) := by
  rw [wrap32, wrap32, wrap32, Int.bmod_add_bmod]

theorem wrap32_add_right (x y : Int) : wrap32 (x + wrap32 y) = wrap32 (x + y) := by
  rw [wrap32, wrap32, wrap32, Int.add_bmod_bmod]

theorem wrap32_eq {x : Int} (lower : -2 ^ 31 ≤ x) (upper : x < 2 ^ 31) : wrap32 x = x := by
  rw [wrap32, Int.bmod_eq_of_le (by omega) (by omega)]

theorem wrap32_of_lt {n : Nat} (small : n < 2 ^ 31) : wrap32 n = n :=
  wrap32_eq (by omega) (by omega)

/-- A printing function passes these bytes to the file and returns their
number. -/
def Emits (print : List UInt8 → Int × List UInt8) (bytes : List UInt8) : Prop :=
  ∀ out, print out = (wrap32 bytes.length, out ++ bytes)

namespace File

/-- A device whose write takes all the bytes it is given. -/
def Accepts : File → Prop
  | .device write => ∀ out bytes, write out bytes = bytes.length
  | _ => False

/-- A file that takes one character after the other. -/
def Prints (file : File) : Prop := ∀ c, c ≠ 0 → Emits (putc file c) [c]

theorem Accepts.putc {file : File} (accepts : file.Accepts) (c : UInt8) :
    Emits (putc file c) [c] := by
  intro out
  cases file with
  | debugOut => exact accepts.elim
  | null => exact accepts.elim
  | device write => exact congrArg (fun count => (wrap32 count, out ++ [c])) (accepts out [c])

theorem Accepts.prints {file : File} (accepts : file.Accepts) : file.Prints :=
  fun c _isChar => accepts.putc c

theorem debugOut_prints : debugOut.Prints := by
  intro c isChar out
  have one : wrap32 ([c].length : Nat) = 1 := wrap32_of_lt (by simp)
  rw [one]
  exact if_neg isChar

/-- A character other than the NUL reaches every file that there is. -/
theorem putc_out {file : File} (isOpen : file ≠ .null) {c : UInt8} (isChar : c ≠ 0)
    (out : List UInt8) :
    (Stdlib.putc file c out).2 = out ++ [c] := by
  cases file with
  | debugOut => exact congrArg Prod.snd (if_neg isChar)
  | null => exact absurd rfl isOpen
  | device write => rfl

theorem Prints.ne_null {file : File} (prints : file.Prints) : file ≠ .null := by
  rintro rfl
  have result := prints 1 (by decide) []
  cases congrArg Prod.snd result

end File

/-! ### Padding -/

theorem padLoop_eq {file : File} {padchar : UInt8} (put : Emits (putc file padchar) [padchar])
    (pad count : Nat) (out : List UInt8) :
    padLoop file padchar pad (wrap32 count) out =
      (wrap32 (count + pad : Nat), out ++ List.replicate pad padchar) := by
  induction pad generalizing count out with
  | zero => rw [padLoop, List.replicate_zero, List.append_nil, Nat.add_zero]
  | succ pad inductionHypothesis =>
      have one : wrap32 (wrap32 count + wrap32 ([padchar].length : Nat)) =
          wrap32 (count + 1 : Nat) := by
        rw [wrap32_add_left, wrap32_add_right]
        rfl
      rw [padLoop, put out, one, inductionHypothesis, List.replicate_succ, List.append_assoc,
        Nat.add_assoc, Nat.add_comm 1 pad]
      rfl

/-- What a padding function emits. -/
def padding (padchar : UInt8) (length pad : Int) (leftalign : Bool) : List UInt8 :=
  if leftalign then [] else List.replicate (wrap32 (pad - length)).toNat padchar

theorem padTo_emits {file : File} {padchar : UInt8} (put : Emits (putc file padchar) [padchar])
    (length pad : Int) (leftalign : Bool) :
    Emits (padTo file padchar length pad leftalign) (padding padchar length pad leftalign) := by
  intro out
  cases leftalign with
  | true =>
      have zero : wrap32 (([] : List UInt8).length : Nat) = 0 := wrap32_of_lt (by simp)
      rw [padTo, if_pos rfl, padding, if_pos rfl, zero, List.append_nil]
  | false =>
      have loop := padLoop_eq put (wrap32 (pad - length)).toNat 0 out
      rw [Nat.zero_add] at loop
      refine Eq.trans loop ?_
      rw [padding, if_neg Bool.false_ne_true, List.length_replicate]

/-! ### Digits -/

theorem decimalDigit_ne_zero {digit : Nat} (small : digit < 10) : decimalDigit digit ≠ 0 := by
  intro same
  have value := congrArg UInt8.toNat same
  rw [toNat_decimalDigit small] at value
  change 48 + digit = 0 at value
  omega

/-- The digits that are printed, and the number of digits that are counted. -/
theorem putuLoop_eq {file : File} (isOpen : file ≠ .null) (n count l : Nat) (out : List UInt8) :
    putuLoop file n count l out =
      (((l + (significant 10 n count (l ≠ 0)).length : Nat) : Int),
        out ++ (significant 10 n count (l ≠ 0)).map decimalDigit) := by
  induction count generalizing l out with
  | zero => rw [putuLoop, significant, List.map_nil, List.append_nil, List.length_nil, Nat.add_zero]
  | succ place inductionHypothesis =>
      have isDigit : n / 10 ^ place % 10 < 10 := Nat.mod_lt _ (by decide)
      have char : ascii '0' + UInt8.ofNat (n / 10 ^ place % 10) =
          decimalDigit (n / 10 ^ place % 10) :=
        (UInt8.ofNat_add 48 _).symm
      rw [putuLoop, significant, char, File.putc_out isOpen (decimalDigit_ne_zero isDigit)]
      by_cases printed : n / 10 ^ place % 10 ≠ 0 ∨ l ≠ 0 ∨ place = 0
      · have counted := inductionHypothesis (l + 1) (out ++ [decimalDigit (n / 10 ^ place % 10)])
        have started : decide (l + 1 ≠ 0) = true := rfl
        rw [started] at counted
        rw [if_pos (by simpa using printed), if_pos (by simpa using printed), List.length_cons,
          List.map_cons]
        refine Eq.trans counted ?_
        rw [List.append_assoc, Nat.add_assoc, Nat.add_comm 1]
        rfl
      · rw [if_neg (by simpa using printed), if_neg (by simpa using printed)]
        exact inductionHypothesis l out

/-- `_putu` prints the numeral of every 32-bit number, and counts its digits. -/
theorem putu_eq {file : File} (isOpen : file ≠ .null) {n : Nat} (small : n < 2 ^ 32)
    (out : List UInt8) :
    putu file n out = (((digitText n).length : Int), out ++ digitText n) := by
  have loop := putuLoop_eq isOpen n 10 0 out
  have whole : significant 10 n 10 (decide (0 ≠ 0)) = numeral 10 n :=
    significant_eq_numeral (by decide) (by decide) (by omega)
  rw [whole, Nat.zero_add] at loop
  rw [digitText, List.length_map]
  exact loop

theorem digitText_length_le {n : Nat} (small : n < 2 ^ 32) : (digitText n).length ≤ 10 := by
  rw [digitText, List.length_map]
  exact numeral_length_le (by decide) (by decide) (by omega)

theorem putu_emits {file : File} (isOpen : file ≠ .null) {n : Nat} (small : n < 2 ^ 32) :
    Emits (putu file n) (digitText n) := by
  intro out
  have short := digitText_length_le small
  rw [putu_eq isOpen small, wrap32_of_lt (by omega)]

/-- The digits of `_putx` and its siblings.  A place is printed when something
has been printed before, which the loop reads off the results of the file. -/
theorem putxXLoop_eq {file : File} (prints : file.Prints) (n : Nat) {a : UInt8}
    (areChars : ∀ x, x < 16 → digitChar a x ≠ 0) (count : Nat) {l : Nat}
    (small : l + count < 2 ^ 31) (out : List UInt8) :
    putxXLoop file n a count l out =
      (((l + (significant 16 n count (l ≠ 0)).length : Nat) : Int),
        out ++ (significant 16 n count (l ≠ 0)).map (digitChar a)) := by
  induction count generalizing l out with
  | zero =>
      rw [putxXLoop, significant, List.map_nil, List.append_nil, List.length_nil, Nat.add_zero]
  | succ place inductionHypothesis =>
      have digit : (n >>> (4 * place)) &&& 15 = n / 16 ^ place % 16 := by
        have mask : 15 = 2 ^ 4 - 1 := rfl
        rw [Nat.shiftRight_eq_div_pow, Nat.pow_mul, mask, Nat.and_two_pow_sub_one_eq_mod]
      have isChar := areChars (n / 16 ^ place % 16) (Nat.mod_lt _ (by decide))
      rw [putxXLoop, significant, digit]
      by_cases printed : n / 16 ^ place % 16 ≠ 0 ∨ l ≠ 0 ∨ place = 0
      · have counted := inductionHypothesis (show l + 1 + place < 2 ^ 31 by omega)
          (out ++ [digitChar a (n / 16 ^ place % 16)])
        have started : decide (l + 1 ≠ 0) = true := rfl
        have more : wrap32 (l + wrap32 ([digitChar a (n / 16 ^ place % 16)].length : Nat)) =
            (l + 1 : Nat) := by
          rw [wrap32_add_right]
          exact wrap32_of_lt (show l + 1 < 2 ^ 31 by omega)
        rw [started] at counted
        rw [if_pos (by simpa using printed), if_pos (by simpa using printed), prints _ isChar]
        dsimp only
        rw [more, List.length_cons, List.map_cons]
        refine Eq.trans counted ?_
        rw [List.append_assoc, Nat.add_assoc, Nat.add_comm 1]
        rfl
      · rw [if_neg (by simpa using printed), if_neg (by simpa using printed)]
        exact inductionHypothesis (by omega) out

/-- The digits that are printed from a number of places. -/
theorem putxXLoop_emits {file : File} (prints : file.Prints) (n : Nat) {a : UInt8}
    (areChars : ∀ x, x < 16 → digitChar a x ≠ 0) {count : Nat} (small : count < 2 ^ 31) :
    Emits (putxXLoop file n a count 0) ((significant 16 n count false).map (digitChar a)) := by
  intro out
  have loop := putxXLoop_eq prints n areChars count (l := 0) (by omega) out
  have short := significant_length_le 16 n count false
  rw [List.length_map, wrap32_of_lt (by omega)]
  rw [Nat.zero_add] at loop
  exact loop

theorem putuLoop_emits {file : File} (isOpen : file ≠ .null) (n : Nat) {count : Nat}
    (small : count < 2 ^ 31) :
    Emits (putuLoop file n count 0) ((significant 10 n count false).map decimalDigit) := by
  intro out
  have loop := putuLoop_eq isOpen n count 0 out
  have short := significant_length_le 10 n count false
  rw [List.length_map, wrap32_of_lt (by omega)]
  rw [Nat.zero_add] at loop
  exact loop

theorem lowerCase : ∀ x, x < 16 → digitChar (ascii 'a') x ≠ 0 := by decide

theorem upperCase : ∀ x, x < 16 → digitChar (ascii 'A') x ≠ 0 := by decide

/-! ### Lengths -/

/-- The divisions count the digits after the first one. -/
theorem nstrlenLoop_eq {base : Nat} (wide : 2 ≤ base) {divisions n : Nat}
    (small : n < 2 ^ (divisions + 1))
    (ret : Int) : nstrlenLoop base divisions n ret + 1 = ret + (numeral base n).length := by
  induction divisions generalizing n ret with
  | zero =>
      have below : n < base := by omega
      rw [nstrlenLoop, numeral_of_lt below]
      rfl
  | succ divisions inductionHypothesis =>
      have quotient : (n : Int).tdiv base = (n / base : Nat) := rfl
      rw [nstrlenLoop, quotient]
      rcases Nat.lt_or_ge n base with below | atLeast
      · rw [Nat.div_eq_of_lt below, if_neg (by decide), numeral_of_lt below]
        rfl
      · have positive : 0 < n / base := Nat.div_pos atLeast (by omega)
        have half : n / base ≤ n / 2 := Nat.div_le_div_left wide (by decide)
        have next := inductionHypothesis (show n / base < 2 ^ (divisions + 1) by omega) (ret + 1)
        rw [if_pos (by omega), next, numeral_of_le wide atLeast, List.length_append]
        simp only [List.length_singleton]
        omega

/-- `_nstrlen32` and `_nstrlen64` on a number that is not negative. -/
theorem nstrlen_natural {base : Nat} (wide : 2 ≤ base) {width n : Nat}
    (small : n < 2 ^ (width + 1)) :
    nstrlen width n base = (numeral base n).length := by
  have loop := nstrlenLoop_eq wide small 1
  rw [nstrlen, if_neg (by omega)]
  omega

/-- On a negative number whose negation fits, the sign is counted too. -/
theorem nstrlen32_negative {base : Nat} (wide : 2 ≤ base) {n : Int} (lower : -2 ^ 31 < n)
    (negative : n < 0) :
    nstrlen32 n base = 1 + (numeral base n.natAbs).length := by
  have loop := nstrlenLoop_eq wide (show n.natAbs < 2 ^ (32 + 1) by omega) 2
  have negated : (-n).bmod (2 ^ 32) = (n.natAbs : Int) :=
    (wrap32_eq (show -2 ^ 31 ≤ -n by omega) (by omega)).trans (by omega)
  rw [nstrlen32, nstrlen, if_pos negative, negated]
  omega

/-- The smallest number has a negative quotient, and counts as two characters. -/
theorem nstrlen32_smallest {base : Nat} : nstrlen32 (-2 ^ 31) base = 2 := by
  have negated : (-(-2 ^ 31) : Int).bmod (2 ^ 32) = -(2 ^ 31 : Nat) := by decide
  have quotient : (-(2 ^ 31 : Nat) : Int).tdiv base ≤ 0 := by
    rw [Int.neg_tdiv]
    have nonneg := Int.natCast_nonneg (2 ^ 31 / base)
    change -((2 ^ 31 / base : Nat) : Int) ≤ 0
    omega
  rw [nstrlen32, nstrlen, if_pos (by decide), negated, nstrlenLoop, if_neg (by omega)]

/-! ### Signed numbers -/

theorem putd_negative (file : File) (depth : Nat) {n : Int} (negative : n < 0) (out : List UInt8) :
    putd file (depth + 1) n out =
      (putd file depth (wrap32 (-n)) (putc file (ascii '-') out).2).map fun rest =>
        (wrap32 ((putc file (ascii '-') out).1 + rest.1), rest.2) := by
  rw [putd, if_neg (by omega)]

theorem putd_natural (file : File) (depth n : Nat) (out : List UInt8) :
    putd file (depth + 1) n out = some (putu file n out) := by
  rw [putd, if_pos (by omega), Int.toNat_natCast]

/-- When the negation of its argument fits, `_putd` calls itself at most once. -/
theorem putd_unfold (file : File) {n : Int} (lower : -2 ^ 31 < n) (upper : n < 2 ^ 31) (depth : Nat)
    (out : List UInt8) :
    putd file (depth + 2) n out =
      some (if n < 0 then
        (wrap32 ((putc file (ascii '-') out).1 +
          (putu file n.natAbs (putc file (ascii '-') out).2).1),
          (putu file n.natAbs (putc file (ascii '-') out).2).2)
      else putu file n.natAbs out) := by
  by_cases negative : n < 0
  · have negated : wrap32 (-n) = (n.natAbs : Int) :=
      (wrap32_eq (by omega) (by omega)).trans (by omega)
    rw [if_pos negative, putd_negative file _ negative, negated, putd_natural]
    rfl
  · have natural : n = (n.natAbs : Int) := by omega
    rw [if_neg negative, ← putd_natural file (depth + 1), ← natural]

/-- `_putd` prints every number whose negation fits. -/
theorem putd_eq {file : File} (isOpen : file ≠ .null) {n : Int} (lower : -2 ^ 31 < n)
    (upper : n < 2 ^ 31) (depth : Nat) (out : List UInt8) :
    ∃ count, putd file (depth + 2) n out = some (count, out ++ decimalText n) ∧
      (file.Prints → count = wrap32 (decimalText n).length) := by
  have small : n.natAbs < 2 ^ 32 := by omega
  rw [putd_unfold file lower upper, decimalText]
  by_cases negative : n < 0
  · rw [if_pos negative, if_pos negative, File.putc_out isOpen (by decide), putu_eq isOpen small,
      List.append_assoc]
    refine ⟨_, rfl, fun prints => ?_⟩
    rw [prints _ (by decide), wrap32_add_left, List.length_append, Int.natCast_add]
  · have short := digitText_length_le small
    rw [if_neg negative, if_neg negative, putu_eq isOpen small, List.nil_append]
    exact ⟨_, rfl, fun _prints => (wrap32_of_lt (by omega)).symm⟩

/-- The smallest number is its own negation, and no depth is enough. -/
theorem putd_smallest (file : File) (depth : Nat) (out : List UInt8) :
    putd file depth (-2 ^ 31) out = none := by
  induction depth generalizing out with
  | zero => rfl
  | succ depth inductionHypothesis =>
      have again : wrap32 (-(-2 ^ 31)) = -2 ^ 31 := by decide
      rw [putd_negative file _ (by decide), again, inductionHypothesis]
      rfl

/-- `_putd` ends, and prints the decimal text of its argument, exactly for the
numbers other than the smallest one. -/
theorem putd_prints_iff {file : File} (isOpen : file ≠ .null) {n : Int} (lower : -2 ^ 31 ≤ n)
    (upper : n < 2 ^ 31) (out : List UInt8) :
    (∃ depth count, putd file depth n out = some (count, out ++ decimalText n)) ↔ n ≠ -2 ^ 31 := by
  constructor
  · rintro ⟨depth, count, result⟩ rfl
    rw [putd_smallest] at result
    cases result
  · intro negatable
    rcases putd_eq isOpen (by omega) upper 0 out with ⟨count, result, _counted⟩
    exact ⟨2, count, result⟩

theorem putd_prints_iff_negative :
    ∃ depth count, putd .debugOut depth (-40) [] = some (count, [] ++ decimalText (-40)) :=
  (putd_prints_iff File.debugOut_prints.ne_null (by decide) (by decide) []).mpr (by decide)

theorem not_putd_prints :
    ¬ ∀ n : Int, -2 ^ 31 ≤ n → n < 2 ^ 31 →
      ∃ depth count, putd .debugOut depth n [] = some (count, [] ++ decimalText n) := by
  intro ends
  rcases ends (-2 ^ 31) (by decide) (by decide) with ⟨depth, count, result⟩
  rw [putd_smallest] at result
  cases result

end Stdlib
end ShovelOS
