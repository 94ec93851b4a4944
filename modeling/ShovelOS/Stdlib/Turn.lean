import ShovelOS.Stdlib.Directives

namespace ShovelOS
namespace Stdlib

open Numeral

/-!
# One turn of `vfprintf`

A turn of the loop handles one piece of the format.  It moves the format
pointer behind the piece and takes from the arguments what the build takes for
its conversion.  When the file accepts everything, `l` grows by the number of
bytes that are passed.
-/

/-! ## The flags -/

theorem declenLoop_isSome {next : UInt8} (ends : isnum next = false) (string rest : List UInt8) :
    ∃ length, declenLoop (string ++ next :: rest) = some length := by
  induction string with
  | nil => exact ⟨0, if_neg (by rw [ends]; decide)⟩
  | cons c string inductionHypothesis =>
      rw [List.cons_append, declenLoop]
      cases digit : isnum c with
      | true =>
          rcases inductionHypothesis with ⟨length, counted⟩
          exact ⟨length + 1, by rw [counted]; rfl⟩
      | false => exact ⟨0, rfl⟩

/-- `atoi` reads a number that some other character follows. -/
theorem atoi_isSome {c next : UInt8} (digit : isnum c = true) (ends : isnum next = false)
    (string rest : List UInt8) : ∃ value, atoi (c :: (string ++ next :: rest)) = some value := by
  have noSign : c ≠ ascii '-' := by
    rintro rfl
    cases digit
  rcases declenLoop_isSome ends (c :: string) rest with ⟨length, counted⟩
  have declen : declen (c :: (string ++ next :: rest)) = some length :=
    (if_neg noSign).trans counted
  rw [atoi, atoq, declen, Option.map_some, Option.map_some]
  exact ⟨_, rfl⟩

theorem skipDigits_append {next : UInt8} (ends : isdigit next = false) (string rest : List UInt8) :
    skipDigits (string ++ next :: rest) = some (string.dropWhile isdigit ++ next :: rest) := by
  induction string with
  | nil => exact if_neg (by rw [ends]; decide)
  | cons c string inductionHypothesis =>
      rw [List.cons_append, skipDigits, List.dropWhile_cons]
      cases isdigit c with
      | true => exact inductionHypothesis
      | false => rfl

/-- A number holds no star. -/
theorem count_star_dropWhile (string : List UInt8) :
    (string.dropWhile isdigit).count (ascii '*') = string.count (ascii '*') := by
  induction string with
  | nil => rfl
  | cons c string inductionHypothesis =>
      rw [List.dropWhile_cons]
      cases digit : isdigit c with
      | true =>
          have noStar : c ≠ ascii '*' := by
            rintro rfl
            cases digit
          rw [if_pos rfl, inductionHypothesis, List.count_cons_of_ne noStar]
      | false => rfl

theorem isFlag_cases {c : UInt8} (flag : isFlag c = true) :
    c = ascii '0' ∨ c = ascii '-' ∨ c = ascii '*' ∨
      (c ≠ ascii '0' ∧ c ≠ ascii '-' ∧ c ≠ ascii '*' ∧ isdigit c = true) := by
  simp only [isFlag, Bool.or_eq_true, beq_iff_eq] at flag
  tauto

theorem not_isFlag_cases {c : UInt8} (noFlag : isFlag c = false) :
    c ≠ ascii '0' ∧ c ≠ ascii '-' ∧ c ≠ ascii '*' ∧ isdigit c = false := by
  simp only [isFlag, Bool.or_eq_false_iff, beq_eq_false_iff_ne] at noFlag
  refine ⟨?_, noFlag.1.2, noFlag.2, noFlag.1.1⟩
  rintro rfl
  cases noFlag.1.1

section

variable {m : Machine}

/-- The loop over the flags comes to the first character behind them, and takes
an argument for every star. -/
theorem flagsLoop_flags {next : UInt8} (noFlag : isFlag next = false) (rest : List UInt8)
    (va : List (Arg m))
    {flags : List UInt8} (areFlags : ∀ c ∈ flags, isFlag c = true) {stars : List (BitVec 32)}
    (counted : stars.length = flags.count (ascii '*')) {turns : Nat} (enough : flags.length < turns)
    (read : Flags) :
    ∃ read', flagsLoop turns (flags ++ next :: rest) (stars.map Arg.int32 ++ va) read =
      some (next :: rest, va, read') := by
  rcases not_isFlag_cases noFlag with ⟨noZero, noMinus, noStar, noDigit⟩
  induction turns generalizing flags stars read with
  | zero => exact absurd enough (Nat.not_lt_zero _)
  | succ turns inductionHypothesis =>
      cases flags with
      | nil =>
          rw [List.count_nil, List.length_eq_zero_iff] at counted
          refine ⟨read, ?_⟩
          rw [counted, List.nil_append, flagsLoop, if_neg noZero, if_neg noMinus, if_neg noStar,
            if_neg (by rw [noDigit]; decide)]
          rfl
      | cons c flags =>
          have areFlags' : ∀ other ∈ flags, isFlag other = true := fun other member =>
            areFlags other (List.mem_cons_of_mem _ member)
          have enough' : flags.length < turns := Nat.lt_of_succ_lt_succ enough
          rw [List.cons_append, flagsLoop]
          rcases isFlag_cases (areFlags c List.mem_cons_self) with rfl | rfl | rfl |
            ⟨zero, minus, star, digit⟩
          · rw [if_pos rfl]
            exact inductionHypothesis areFlags' counted enough' _
          · exact inductionHypothesis areFlags' counted enough' _
          · cases stars with
            | nil =>
                rw [List.count_cons_self] at counted
                cases counted
            | cons pad stars =>
                rw [List.count_cons_self] at counted
                exact inductionHypothesis areFlags' (Nat.succ.inj counted) enough'
                  (read.star pad.toInt)
          · rcases atoi_isSome digit noDigit flags rest with ⟨pad, value⟩
            have skipped : skipDigits (c :: (flags ++ next :: rest)) =
                some (flags.dropWhile isdigit ++ next :: rest) := by
              rw [skipDigits, digit]
              exact skipDigits_append noDigit flags rest
            rw [List.count_cons_of_ne star, ← count_star_dropWhile] at counted
            rw [if_neg zero, if_neg minus, if_neg star, if_pos digit, value,
              Option.bind_some, skipped, Option.bind_some]
            refine inductionHypothesis (fun other member => areFlags' other ?_) counted ?_ _
            · exact (List.dropWhile_sublist isdigit).subset member
            · exact Nat.lt_of_le_of_lt (List.dropWhile_sublist isdigit).length_le enough'

/-! ## The printing functions -/

/-- A printing function returns, and passes to an accepting file as many bytes
as it reports. -/
def Writes (file : File) (print : Printer) : Prop :=
  ∀ out, ∃ count out', print out = some (count, out') ∧
    (file.Accepts → ∃ bytes : List UInt8, out' = out ++ bytes ∧ count = wrap32 bytes.length)

theorem Writes.of_emits {file : File} {print : List UInt8 → Int × List UInt8} {bytes : List UInt8}
    (emits : file.Accepts → Emits print bytes) : Writes file fun out => some (print out) := by
  intro out
  refine ⟨(print out).1, (print out).2, rfl, fun accepts => ⟨bytes, ?_, ?_⟩⟩
  · rw [emits accepts out]
  · rw [emits accepts out]

variable {file : File}

theorem putc_writes (file : File) (c : UInt8) : Writes file fun out => some (putc file c out) :=
  Writes.of_emits fun accepts => accepts.putc c

theorem padTo_writes (file : File) (padchar : UInt8) (length pad : Int) (leftalign : Bool) :
    Writes file fun out => some (padTo file padchar length pad leftalign out) :=
  Writes.of_emits fun accepts => padTo_emits (accepts.putc padchar) length pad leftalign

theorem putxXLoop_writes (file : File) (n : Nat) {a : UInt8}
    (areChars : ∀ x, x < 16 → digitChar a x ≠ 0) {count : Nat} (small : count < 2 ^ 31) :
    Writes file fun out => some (putxXLoop file n a count 0 out) :=
  Writes.of_emits fun accepts => putxXLoop_emits accepts.prints n areChars small

theorem putuLoop_writes (file : File) (n : Nat) {count : Nat} (small : count < 2 ^ 31) :
    Writes file fun out => some (putuLoop file n count 0 out) :=
  Writes.of_emits fun accepts => putuLoop_emits accepts.prints.ne_null n small

theorem putlu_emits (accepts : file.Accepts) (n : BitVec 64) :
    Emits (putlu file n) ((significant 10 n.toNat 19 false).map decimalDigit) :=
  putuLoop_emits accepts.prints.ne_null n.toNat (by decide)

/-- `_putll` negates at most once, and needs no bound on its argument. -/
theorem putll_writes (file : File) (n : BitVec 64) :
    Writes file fun out => some (putll file n out) := by
  by_cases natural : n.toInt ≥ 0
  · have same : putll file n = putlu file n := funext fun out => if_pos natural
    rw [same]
    exact Writes.of_emits fun accepts => putlu_emits accepts n
  · have emits : file.Accepts → Emits (putll file n)
        (ascii '-' :: (significant 10 (-n).toNat 19 false).map decimalDigit) := by
      intro accepts out
      rw [putll, if_neg natural, accepts.putc _ out]
      dsimp only
      rw [putlu_emits accepts (-n)]
      dsimp only
      rw [wrap32_add_left, wrap32_add_right, List.append_assoc, ← Int.natCast_add,
        List.length_singleton, Nat.add_comm]
      rfl
    exact Writes.of_emits emits

theorem putd_writes (file : File) {n : Int} (lower : -2 ^ 31 < n) (upper : n < 2 ^ 31)
    (depth : Nat) :
    Writes file (putd file (depth + 2) n) := by
  intro out
  refine ⟨_, _, putd_unfold file lower upper depth out, fun accepts => ?_⟩
  rcases putd_eq accepts.prints.ne_null lower upper depth out with ⟨count, result, counted⟩
  have same := Option.some.inj ((putd_unfold file lower upper depth out).symm.trans result)
  exact ⟨decimalText n, congrArg Prod.snd same,
    (congrArg Prod.fst same).trans (counted accepts.prints)⟩

/-- A string whose length `_puts` can pass on. -/
def Passable (m : Machine) (str : List UInt8) : Prop :=
  ∃ length, strlen str = some length ∧ putsSize m length ≤ length

theorem strlen_lt {str : List UInt8} {length : Nat} (terminated : strlen str = some length) :
    length < str.length := by
  induction str generalizing length with
  | nil => cases terminated
  | cons c str inductionHypothesis =>
      rw [strlen] at terminated
      split at terminated
      · rw [← Option.some.inj terminated]
        exact Nat.succ_pos _
      · rcases Option.map_eq_some_iff.mp terminated with ⟨rest, counted, rfl⟩
        exact Nat.succ_lt_succ (inductionHypothesis counted)

theorem pads_writes (file : File) {m : Machine} {str : List UInt8} (passable : Passable m str)
    (pad : Int) (leftalign : Bool) : Writes file (pads file str pad leftalign) := by
  rcases passable with ⟨length, terminated, _fits⟩
  cases leftalign with
  | true => exact padTo_writes file (ascii ' ') length pad true
  | false =>
      have same : pads file str pad false = fun out =>
          some (padTo file (ascii ' ') length pad false out) := by
        funext out
        rw [pads, if_neg Bool.false_ne_true, terminated]
        rfl
      rw [same]
      exact padTo_writes file (ascii ' ') length pad false

theorem puts_writes (file : File) {m : Machine} {str : List UInt8} (passable : Passable m str) :
    Writes file (puts m file str) := by
  rcases passable with ⟨length, terminated, fits⟩
  have inside := strlen_lt terminated
  intro out
  rw [puts, terminated, Option.bind_some]
  cases file with
  | debugOut => exact ⟨_, _, rfl, fun accepts => accepts.elim⟩
  | null => exact ⟨_, _, rfl, fun accepts => accepts.elim⟩
  | device write =>
      refine ⟨_, _, if_pos (by omega), fun accepts => ⟨_, rfl, congrArg wrap32 (accepts _ _)⟩⟩

/-! ## What a turn does to the state -/

/-- The bytes that were passed between two states are counted in `l`, which
`vfprintf` returns as 32 bits. -/
def Counted (s s' : PrintState m) : Prop :=
  ∃ bytes : List UInt8, s'.out = s.out ++ bytes ∧
    s'.l.toNat % 2 ^ 32 = (s.l.toNat + bytes.length) % 2 ^ 32

theorem Counted.refl (s : PrintState m) : Counted s s := ⟨[], (List.append_nil s.out).symm, rfl⟩

theorem Counted.trans {s s' s'' : PrintState m} (first : Counted s s') (second : Counted s' s'') :
    Counted s s'' := by
  rcases first with ⟨bytes, out, l⟩
  rcases second with ⟨bytes', out', l'⟩
  refine ⟨bytes ++ bytes', by rw [out', out, List.append_assoc], ?_⟩
  rw [List.length_append]
  omega

/-- The state `s'` comes out of `s` when the format and the arguments move on to
what is left of them here. -/
structure Advances (file : File) (s : PrintState m) (format : List UInt8) (va : List (Arg m))
    (s' : PrintState m) : Prop where
  format : s'.format = format
  va : s'.va = va
  err : s'.err = s.err
  counted : file.Accepts → Counted s s'

theorem toNat_add_ofInt_wrap32 (l : BitVec m.wordTBits) (count : Nat) :
    (l + BitVec.ofInt m.wordTBits (wrap32 count)).toNat % 2 ^ 32 = (l.toNat + count) % 2 ^ 32 := by
  rw [BitVec.toNat_add, BitVec.toNat_ofInt, wrap32]
  generalize l.toNat = value
  rcases m.wordTBits_eq with width | width <;> rw [width] <;> simp only [Int.bmod_def] <;> omega

theorem emit_advances {print : Printer} (writes : Writes file print) (s : PrintState m) :
    ∃ s', s.emit print = some s' ∧ Advances file s s.format s.va s' := by
  rcases writes s.out with ⟨count, out, result, counted⟩
  have emitted : s.emit print =
      some { s with l := s.l + BitVec.ofInt m.wordTBits count, out := out } := by
    rw [PrintState.emit, result]
    rfl
  refine ⟨_, emitted, rfl, rfl, rfl, fun accepts => ?_⟩
  rcases counted accepts with ⟨bytes, passed, number⟩
  refine ⟨bytes, passed, ?_⟩
  rw [number]
  exact toNat_add_ofInt_wrap32 s.l bytes.length

theorem Advances.trans {s s' s'' : PrintState m} {format format' : List UInt8}
    {va va' : List (Arg m)}
    (first : Advances file s format va s') (second : Advances file s' format' va' s'') :
    Advances file s format' va' s'' :=
  ⟨second.format, second.va, second.err.trans first.err, fun accepts =>
    (first.counted accepts).trans (second.counted accepts)⟩

/-- A field is printed in three parts, with the arguments already fetched. -/
theorem field_advances {pad : Bool → Printer} (pads : ∀ leftalign, Writes file (pad leftalign))
    {body : Printer}
    (writes : Writes file body) (leftalign : Bool) (s : PrintState m) (va : List (Arg m)) :
    ∃ s', { s with va := va }.field pad body leftalign = some s' ∧
      Advances file s s.format va s' := by
  rcases emit_advances (pads leftalign) { s with va := va } with ⟨first, left, padded⟩
  rcases emit_advances writes first with ⟨second, middle, printed⟩
  rcases emit_advances (pads !leftalign) second with ⟨third, right, closed⟩
  refine ⟨third, ?_, ?_⟩
  · rw [PrintState.field, left, Option.bind_some, middle, Option.bind_some, right]
  · have all := (padded.trans printed).trans closed
    refine ⟨?_, ?_, all.err, fun accepts => ?_⟩
    · rw [closed.format, printed.format, padded.format]
    · rw [closed.va, printed.va, padded.va]
    · exact all.counted accepts

theorem field32_advances (base : Int) (arg : BitVec 32) (flags : Flags) {digits : Printer}
    (writes : Writes file digits) (s : PrintState m) (va : List (Arg m)) :
    ∃ s', field32 file flags base arg digits { s with va := va } = some s' ∧
      Advances file s s.format va s' :=
  field_advances (fun leftalign => padTo_writes file _ _ _ leftalign) writes flags.leftalign s va

theorem field64_advances (base : Int) (arg : BitVec 64) (flags : Flags) {digits : Printer}
    (writes : Writes file digits) (s : PrintState m) (va : List (Arg m)) :
    ∃ s', field64 file flags base arg digits { s with va := va } = some s' ∧
      Advances file s s.format va s' :=
  field_advances (fun leftalign => padTo_writes file _ _ _ leftalign) writes flags.leftalign s va

/-! ## Conversions -/

/-- A value that can be printed: a string has a NUL, and a length that can be
passed on. -/
def Printable : Option (Arg m) → Prop
  | some (.string bytes) => Passable m bytes
  | _ => True

/-- The smallest number, which `_putd` does not print. -/
def smallest (m : Machine) : Arg m := .int32 (BitVec.intMin 32)

variable (with64BitMath : Bool) (depth : Nat) (flags : Flags)

theorem toInt_bounds {value : BitVec 32} (notSmallest : value ≠ BitVec.intMin 32) :
    -2 ^ 31 < value.toInt ∧ value.toInt < 2 ^ 31 := by
  have lower := BitVec.le_toInt value
  have upper := BitVec.toInt_lt (x := value)
  have different : value.toInt ≠ -2 ^ 31 := by
    intro same
    exact notSmallest (BitVec.eq_of_toInt_eq same)
  omega

theorem convertHex_advances {s : PrintState m} {va : List (Arg m)} {value : BitVec 32}
    (fetched : vaArg32 s.va = some (value, va)) :
    ∃ s', convertHex file flags s = some s' ∧ Advances file s s.format va s' := by
  rw [convertHex, fetched]
  exact field32_advances 16 value flags (putxXLoop_writes file _ lowerCase (by decide)) s va

theorem convertLong_advances (base : Int) {digits : BitVec 64 → List UInt8 → Int × List UInt8}
    (writes : ∀ value, Writes file fun out => some (digits value out)) {s : PrintState m}
    {va : List (Arg m)} {value : BitVec 64} (fetched : vaArg64 s.va = some (value, va)) :
    ∃ s', convertLong true file flags base digits s = some s' ∧ Advances file s s.format va s' := by
  rw [convertLong, if_pos rfl, fetched]
  exact field64_advances base value flags (writes value) s va

theorem isSome_of_type {value : Option (Arg m)} {type : ArgType}
    (typed : value.map Arg.type = some type) : ∃ arg, value = some arg ∧ arg.type = type :=
  Option.map_eq_some_iff.mp typed

/-- A conversion that fetches nothing and prints nothing. -/
theorem unfetched_advances {value : Option (Arg m)} (untyped : value.map Arg.type = none)
    {s : PrintState m}
    {va : List (Arg m)} (left : s.va = value.toList ++ va) : Advances file s s.format va s := by
  rw [Option.map_eq_none_iff.mp untyped] at left
  exact ⟨rfl, left, rfl, fun _accepts => Counted.refl s⟩

/-- An inner case does what its build asks for: it converts an argument of 64
bits, or does nothing at all. -/
theorem convertLong_cases (base : Int) {digits : BitVec 64 → List UInt8 → Int × List UInt8}
    (writes : ∀ value, Writes file fun out => some (digits value out)) {value : Option (Arg m)}
    (typed : value.map Arg.type = if with64BitMath then some .int64 else none) {s : PrintState m}
    {va : List (Arg m)} (left : s.va = value.toList ++ va) :
    ∃ s', convertLong with64BitMath file flags base digits s = some s' ∧
      Advances file s s.format va s' := by
  cases with64BitMath with
  | false => exact ⟨s, rfl, unfetched_advances typed left⟩
  | true =>
      rcases isSome_of_type typed with ⟨arg, rfl, type⟩
      cases arg with
      | int64 bits => exact convertLong_advances flags base writes (by rw [left]; rfl)
      | _ => cases type

/-- `case 'p'`: pointers of eight bytes are long numbers. -/
theorem convertPointer_advances {value : Option (Arg m)}
    (typed : value.map Arg.type = Conversion.p.fetches m with64BitMath) {s : PrintState m}
    {va : List (Arg m)} (left : s.va = value.toList ++ va) :
    ∃ s', conversion with64BitMath depth file flags (ascii 'p') s = some s' ∧
      Advances file s s.format va s' := by
  change ∃ s', (if m.wordTBytes = 8 then convertLong with64BitMath file flags 16 (putlx file) s
    else convertHex file flags s) = some s' ∧ _
  rw [Conversion.fetches] at typed
  by_cases eight : m.wordTBytes = 8
  · rw [if_pos eight]
    cases with64BitMath with
    | false =>
        rw [if_pos ⟨eight, rfl⟩] at typed
        exact ⟨s, rfl, unfetched_advances typed left⟩
    | true =>
        rw [if_neg (by simp)] at typed
        rcases isSome_of_type typed with ⟨arg, rfl, type⟩
        cases arg with
        | pointer address =>
            have fetched : vaArg64 s.va = some (address.setWidth 64, va) := by
              rw [left]
              exact if_pos eight
            exact convertLong_advances flags 16
              (fun value => putxXLoop_writes file value.toNat lowerCase (by decide)) fetched
        | _ => cases type
  · rw [if_neg eight]
    rw [if_neg fun both => eight both.1] at typed
    have four : m.wordTBytes = 4 := by
      rcases m.wordTBits_eq with width | width
      · rw [Machine.wordTBytes, width]
      · exact absurd (by rw [Machine.wordTBytes, width]) eight
    rcases isSome_of_type typed with ⟨arg, rfl, type⟩
    cases arg with
    | pointer address =>
        have fetched : vaArg32 s.va = some (address.setWidth 32, va) := by
          rw [left]
          exact if_pos four
        exact convertHex_advances flags fetched
    | _ => cases type

theorem fetch32_advances (convert : BitVec 32 → PrintState m → Option (PrintState m))
    {value : Option (Arg m)} (typed : value.map Arg.type = some .int32) {s : PrintState m}
    {va : List (Arg m)} (left : s.va = value.toList ++ va)
    (converts : ∀ bits, value = some (.int32 bits) →
      ∃ s', convert bits { s with va := va } = some s' ∧ Advances file s s.format va s') :
    ∃ s', ((vaArg32 s.va).bind fun (arg, va) => convert arg { s with va := va }) = some s' ∧
      Advances file s s.format va s' := by
  rcases isSome_of_type typed with ⟨arg, rfl, type⟩
  cases arg with
  | int32 bits =>
      rw [left]
      exact converts bits rfl
  | _ => cases type

theorem conversion_signed {c : UInt8} (isSigned : c = ascii 'i' ∨ c = ascii 'd')
    (s : PrintState m) :
    conversion with64BitMath depth file flags c s =
      (vaArg32 s.va).bind fun (arg, va) =>
        field32 file flags 10 arg (putd file depth arg.toInt) { s with va := va } := by
  rcases isSigned with rfl | rfl <;> rfl

theorem convertSigned_advances {value : Option (Arg m)} (typed : value.map Arg.type = some .int32)
    (negatable : value ≠ some (smallest m)) {c : UInt8} (isSigned : c = ascii 'i' ∨ c = ascii 'd')
    {s : PrintState m} {va : List (Arg m)} (left : s.va = value.toList ++ va) :
    ∃ s', conversion with64BitMath (depth + 2) file flags c s = some s' ∧
      Advances file s s.format va s' := by
  rw [conversion_signed with64BitMath (depth + 2) flags isSigned]
  refine fetch32_advances (fun arg => field32 file flags 10 arg (putd file (depth + 2) arg.toInt))
    typed left
    fun bits value => ?_
  have notSmallest : bits ≠ BitVec.intMin 32 := fun same => negatable (by rw [value, same]; rfl)
  have bounds := toInt_bounds notSmallest
  exact field32_advances 10 bits flags (putd_writes file bounds.1 bounds.2 depth) s va

/-- A conversion of two letters. -/
theorem long_advances {second : UInt8} {base : Int}
    {digits : BitVec 64 → List UInt8 → Int × List UInt8}
    (selects : ∀ s : PrintState m, longConversion with64BitMath file flags second s =
      convertLong with64BitMath file flags base digits s)
    (writes : ∀ value, Writes file fun out => some (digits value out)) {value : Option (Arg m)}
    (typed : value.map Arg.type = if with64BitMath then some .int64 else none) {s : PrintState m}
    {c : UInt8}
    {rest : List UInt8} (letters : c :: s.format = [ascii 'l', second] ++ rest) {va : List (Arg m)}
    (left : s.va = value.toList ++ va) :
    ∃ s', conversion with64BitMath depth file flags c s = some s' ∧ Advances file s rest va s' := by
  rcases s with ⟨format, args, l, err, out⟩
  rcases List.cons.inj letters with ⟨rfl, rfl⟩
  rcases convertLong_cases with64BitMath flags base writes typed
      (s := ⟨rest, args, l, err, out⟩) left with
    ⟨s', converted, advances⟩
  exact ⟨s', (selects _).trans converted, advances.format, advances.va, advances.err,
    advances.counted⟩

/-- Every conversion takes the argument that its build fetches for it, and
prints. -/
theorem conversion_advances {letter : Conversion} {value : Option (Arg m)}
    (typed : value.map Arg.type = letter.fetches m with64BitMath) (printable : Printable value)
    (negatable : letter = .i ∨ letter = .d → value ≠ some (smallest m)) {s : PrintState m}
    {c : UInt8}
    {rest : List UInt8} (letters : c :: s.format = letter.letters ++ rest) {va : List (Arg m)}
    (left : s.va = value.toList ++ va) :
    ∃ s', conversion with64BitMath (depth + 2) file flags c s = some s' ∧
      Advances file s rest va s' := by
  cases letter with
  | percent =>
      rcases List.cons.inj letters with ⟨rfl, rfl⟩
      have kept : Advances file s s.format va s := unfetched_advances typed left
      rw [← kept.va]
      exact emit_advances (putc_writes file _) s
  | c =>
      rcases List.cons.inj letters with ⟨rfl, rfl⟩
      refine fetch32_advances (fun arg s =>
        s.field (fun leftalign out => some (padc file flags.pad leftalign out))
          (fun out => some (putc file (UInt8.ofNat arg.toNat) out)) flags.leftalign) typed left
        fun bits _value => ?_
      exact field_advances (fun leftalign => padTo_writes file _ _ _ leftalign) (putc_writes file _)
        flags.leftalign s va
  | u =>
      rcases List.cons.inj letters with ⟨rfl, rfl⟩
      exact fetch32_advances
        (fun arg => field32 file flags 10 arg (fun out => some (putu file arg.toNat out)))
        typed left fun bits _value =>
          field32_advances 10 bits flags (putuLoop_writes file bits.toNat (by decide)) s va
  | i =>
      rcases List.cons.inj letters with ⟨rfl, rfl⟩
      exact convertSigned_advances with64BitMath depth flags typed (negatable (Or.inl rfl))
        (Or.inl rfl) left
  | d =>
      rcases List.cons.inj letters with ⟨rfl, rfl⟩
      exact convertSigned_advances with64BitMath depth flags typed (negatable (Or.inr rfl))
        (Or.inr rfl) left
  | p =>
      rcases List.cons.inj letters with ⟨rfl, rfl⟩
      exact convertPointer_advances with64BitMath _ flags typed left
  | x =>
      rcases List.cons.inj letters with ⟨rfl, rfl⟩
      exact fetch32_advances
        (fun arg => field32 file flags 16 arg (fun out => some (putx file arg out)))
        typed left fun bits _value =>
          field32_advances 16 bits flags
            (putxXLoop_writes file bits.toNat lowerCase (by decide)) s va
  | X =>
      rcases List.cons.inj letters with ⟨rfl, rfl⟩
      exact fetch32_advances
        (fun arg => field32 file flags 16 arg (fun out => some (putX file arg out)))
        typed left fun bits _value =>
          field32_advances 16 bits flags
            (putxXLoop_writes file bits.toNat upperCase (by decide)) s va
  | s =>
      rcases List.cons.inj letters with ⟨rfl, rfl⟩
      rcases isSome_of_type typed with ⟨arg, rfl, type⟩
      cases arg with
      | string bytes =>
          have fetched : vaArgString s.va = some (bytes, va) := by rw [left]; rfl
          change ∃ s', (vaArgString s.va).bind _ = some s' ∧ _
          rw [fetched]
          exact field_advances (pads_writes file printable flags.pad) (puts_writes file printable)
            flags.leftalign s va
      | _ => cases type
  | ll =>
      exact long_advances with64BitMath _ flags (fun _s => rfl)
        (putll_writes file) typed letters left
  | ld =>
      exact long_advances with64BitMath _ flags (fun _s => rfl)
        (putll_writes file) typed letters left
  | lu =>
      exact long_advances with64BitMath _ flags (fun _s => rfl)
        (fun value => putuLoop_writes file value.toNat (by decide)) typed letters left
  | lx =>
      exact long_advances with64BitMath _ flags (fun _s => rfl)
        (fun value => putxXLoop_writes file value.toNat lowerCase (by decide)) typed letters left
  | lX =>
      exact long_advances with64BitMath _ flags (fun _s => rfl)
        (fun value => putxXLoop_writes file value.toNat upperCase (by decide)) typed letters left

/-! ## Pieces -/

/-- The operands are what a piece takes: a width for every star, and a value of
the given type. -/
structure Operands.Fit (operands : Operands m) (stars : Nat) (takes : Option ArgType) : Prop where
  widths : operands.widths.length = stars
  value : operands.value.map Arg.type = takes
  printable : Printable operands.value

theorem isFlag_letter {letter : Conversion} {c : UInt8} {letters : List UInt8}
    (split : letter.letters = c :: letters) : isFlag c = false := by
  cases letter <;> rcases List.cons.inj split with ⟨rfl, _rest⟩ <;> rfl

theorem exists_letters (letter : Conversion) : ∃ c letters, letter.letters = c :: letters := by
  cases letter <;> exact ⟨_, _, rfl⟩

/-- The turn of a specification comes to the letters behind its flags. -/
theorem vfprintfStep_percent {run : FlagRun} {c : UInt8} (noFlag : isFlag c = false)
    {widths : List (BitVec 32)}
    (counted : widths.length = run.stars) {s : PrintState m} {rest : List UInt8}
    (format : s.format = ascii '%' :: (run.chars ++ c :: rest)) {va : List (Arg m)}
    (args : s.va = widths.map Arg.int32 ++ va) :
    ∃ flags, vfprintfStep with64BitMath depth file s =
      conversion with64BitMath depth file flags c { s with format := rest, va := va } := by
  have enough : run.chars.length < (run.chars ++ c :: rest).length := by
    rw [List.length_append, List.length_cons]
    omega
  rcases flagsLoop_flags noFlag rest va run.areFlags counted enough ⟨false, false, 0⟩ with
    ⟨flags, read⟩
  refine ⟨flags.settled, ?_⟩
  rw [vfprintfStep, format]
  dsimp only
  rw [if_pos rfl, args, read]
  rfl

theorem vfprintfStep_piece {piece : Piece} {operands : Operands m}
    (fit : operands.Fit piece.stars (piece.fetches m with64BitMath))
    (negatable : piece.signed → operands.value ≠ some (smallest m)) {s : PrintState m}
    {rest : List UInt8}
    (format : s.format = piece.text ++ rest) {va : List (Arg m)}
    (args : s.va = operands.args ++ va) :
    ∃ s', vfprintfStep with64BitMath (depth + 2) file s = some s' ∧ Advances file s rest va s' := by
  rw [Operands.args, List.append_assoc] at args
  cases piece with
  | literal char isChar stands =>
      rw [List.length_eq_zero_iff.mp fit.widths, Option.map_eq_none_iff.mp fit.value] at args
      rcases emit_advances (putc_writes file char) { s with format := rest } with
        ⟨s', emitted, advances⟩
      refine ⟨s', ?_, advances.format, advances.va.trans args, advances.err, advances.counted⟩
      rw [vfprintfStep, format]
      exact (if_neg stands).trans emitted
  | directive run letter =>
      rcases exists_letters letter with ⟨c, letters, split⟩
      have behind : s.format = ascii '%' :: (run.chars ++ c :: (letters ++ rest)) := by
        rw [format, Piece.text, split]
        simp only [List.cons_append, List.append_assoc]
      rcases vfprintfStep_percent with64BitMath (depth + 2)
          (isFlag_letter split) fit.widths behind args with
        ⟨flags, turn⟩
      rcases conversion_advances with64BitMath depth flags fit.value fit.printable negatable
          (s := { s with format := letters ++ rest, va := operands.value.toList ++ va })
          (show c :: (letters ++ rest) = letter.letters ++ rest by rw [split]; rfl) rfl with
        ⟨s', converted, advances⟩
      exact ⟨s', turn.trans converted, advances.format, advances.va, advances.err, advances.counted⟩

theorem conversion_unknown {c : UInt8}
    (unknown : ∀ letter : Conversion, letter.letters.head? ≠ some c)
    (s : PrintState m) :
    conversion with64BitMath depth file flags c s = some { s with err := true } := by
  have differs : ∀ letter : Conversion, ∀ head ∈ letter.letters.head?, c ≠ head := by
    rintro letter head isHead rfl
    exact unknown letter isHead
  rw [conversion, if_neg (differs .percent _ rfl), if_neg (differs .c _ rfl),
    if_neg (differs .u _ rfl),
    if_neg (not_or.mpr ⟨differs .i _ rfl, differs .d _ rfl⟩), if_neg (differs .p _ rfl),
    if_neg (differs .x _ rfl), if_neg (differs .X _ rfl), if_neg (differs .s _ rfl),
    if_neg (differs .ll _ rfl)]

theorem longConversion_unknown {c : UInt8}
    (unknown : ∀ letter : Conversion, letter.letters ≠ [ascii 'l', c])
    (s : PrintState m) :
    longConversion with64BitMath file flags c s = some { s with err := true } := by
  have differs : ∀ (letter : Conversion) (second : UInt8), letter.letters = [ascii 'l', second] →
      c ≠ second := by
    rintro letter second letters rfl
    exact unknown letter letters
  rw [longConversion, if_neg (not_or.mpr ⟨differs .ll _ rfl, differs .ld _ rfl⟩),
    if_neg (differs .lu _ rfl), if_neg (differs .lx _ rfl), if_neg (differs .lX _ rfl)]

/-- The turn of a malformed specification passes nothing to the file. -/
theorem vfprintfStep_malformed {run : FlagRun} {letters : List UInt8} (misspelt : Misspelt letters)
    {widths : List (BitVec 32)} (counted : widths.length = run.stars) {s : PrintState m}
    {rest : List UInt8}
    (format : s.format = ascii '%' :: (run.chars ++ (letters ++ rest))) {va : List (Arg m)}
    (args : s.va = widths.map Arg.int32 ++ va) :
    ∃ s', vfprintfStep with64BitMath depth file s = some s' ∧ s'.err = true ∧ s'.format = rest ∧
      s'.va = va ∧ s'.out = s.out := by
  cases misspelt with
  | short noFlag unknown =>
      rcases vfprintfStep_percent with64BitMath depth noFlag counted format args with ⟨flags, turn⟩
      exact ⟨_, turn.trans (conversion_unknown with64BitMath depth flags unknown _), rfl, rfl,
        rfl, rfl⟩
  | long unknown =>
      have noFlag : isFlag (ascii 'l') = false := rfl
      rcases vfprintfStep_percent with64BitMath depth noFlag counted format args with ⟨flags, turn⟩
      exact ⟨_, turn.trans (longConversion_unknown with64BitMath flags unknown _), rfl, rfl,
        rfl, rfl⟩

/-- The turn of a signed conversion of the smallest number never ends. -/
theorem vfprintfStep_smallest {run : FlagRun} {letter : Conversion}
    (signed : letter = .i ∨ letter = .d)
    {widths : List (BitVec 32)} (counted : widths.length = run.stars) {s : PrintState m}
    {rest : List UInt8}
    (format : s.format = (Piece.directive run letter).text ++ rest) {va : List (Arg m)}
    (args : s.va = widths.map Arg.int32 ++ smallest m :: va) :
    vfprintfStep with64BitMath depth file s = none := by
  rcases exists_letters letter with ⟨c, letters, split⟩
  have behind : s.format = ascii '%' :: (run.chars ++ c :: (letters ++ rest)) := by
    rw [format, Piece.text, split]
    simp only [List.cons_append, List.append_assoc]
  rcases vfprintfStep_percent with64BitMath depth (isFlag_letter split) counted behind args with
    ⟨flags, turn⟩
  have isSigned : c = ascii 'i' ∨ c = ascii 'd' := by
    rcases signed with rfl | rfl
    · exact Or.inl (List.cons.inj split).1.symm
    · exact Or.inr (List.cons.inj split).1.symm
  have endless : ∀ s : PrintState m, s.emit (putd file depth (BitVec.intMin 32).toInt) = none := by
    intro s
    have value : (BitVec.intMin 32).toInt = -2 ^ 31 := by decide
    rw [PrintState.emit, value, putd_smallest]
    rfl
  rw [turn, conversion_signed with64BitMath depth flags isSigned]
  change field32 file flags 10 (BitVec.intMin 32) (putd file depth (BitVec.intMin 32).toInt)
    _ = none
  rw [field32, PrintState.field]
  simp only [endless, Option.bind_none, Option.bind_fun_none]

end

end Stdlib
end ShovelOS
