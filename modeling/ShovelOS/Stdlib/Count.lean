import ShovelOS.Stdlib.Arguments
import ShovelOS.Stdlib.Conversions

namespace ShovelOS
namespace Stdlib

/-!
# The result of `vfprintf`

On a file that accepts everything, `vfprintf` returns for every format, and
never looks behind its NUL.  A malformed specification ends it with `-1`.
Otherwise the result is the number of bytes that the file was given, as a
signed number of 32 bits.  This is the number itself below `2 ^ 31`.
-/

/-- Where the format pointer stands at the end. -/
def Ending.behind : Ending → List UInt8 → List UInt8
  | .complete, rest => 0 :: rest
  | .malformed .., rest => rest

/-- The result of `vfprintf` for a number of bytes. -/
def Ending.result : Ending → Nat → Int
  | .complete, count => wrap32 count
  | .malformed .., _count => -1

variable {m : Machine} (with64BitMath : Bool) {file : File}

theorem wrap32_congr {x y : Nat} (same : x % 2 ^ 32 = y % 2 ^ 32) : wrap32 x = wrap32 y := by
  rw [wrap32, wrap32, ← Int.emod_bmod (x : Int), ← Int.emod_bmod (y : Int)]
  exact congrArg (fun value : Nat => (value : Int).bmod (2 ^ 32)) same

theorem vfprintfLoop_complete (file : File) (depth turns : Nat) {s : PrintState m}
    (running : s.err = false) {rest : List UInt8} (format : s.format = 0 :: rest) :
    vfprintfLoop with64BitMath depth file (turns + 1) s = some s := by
  rw [vfprintfLoop, running, if_neg Bool.false_ne_true, format]
  exact if_pos rfl

/-- The loop ends behind a malformed specification. -/
theorem vfprintfLoop_malformed (file : File) (depth turns : Nat) {run : FlagRun}
    {letters : List UInt8}
    (misspelt : Misspelt letters) {widths : List (BitVec 32)} (counted : widths.length = run.stars)
    {s : PrintState m} (running : s.err = false) {rest : List UInt8}
    (format : s.format = ascii '%' :: (run.chars ++ (letters ++ rest))) {va : List (Arg m)}
    (args : s.va = widths.map Arg.int32 ++ va) :
    ∃ s', vfprintfLoop with64BitMath depth file (turns + 2) s = some s' ∧ s'.err = true ∧
      s'.format = rest ∧ s'.out = s.out := by
  rcases vfprintfStep_malformed with64BitMath depth misspelt counted format args with
    ⟨s', turn, err, behind, _va, out⟩
  refine ⟨s', ?_, err, behind, out⟩
  have noNul : ascii '%' ≠ 0 := by decide
  rw [vfprintfLoop, running, if_neg Bool.false_ne_true, format]
  refine (if_neg noNul).trans ?_
  rw [turn, Option.bind_some, vfprintfLoop, err, if_pos rfl]

/-- A run of `vfprintf` with arguments that belong to its pieces. -/
theorem vfprintfLoop_calls (accepts : file.Accepts) {calls : List (Piece × Operands m)}
    (fit : ∀ call ∈ calls, call.2.Fit call.1.stars (call.1.fetches m with64BitMath))
    (negatable : Negatable calls) (ending : Ending) (rest : List UInt8) {widths : List (BitVec 32)}
    (counted : widths.length = ending.stars) (extra : List (Arg m)) (out : List UInt8)
    (more : Nat) :
    ∃ s written, vfprintfLoop with64BitMath (calls.length + 2 + more) file (calls.length + 2 + more)
        (.start (textOfCalls calls ++ (ending.text ++ rest))
          (argsOfCalls calls ++ (widths.map Arg.int32 ++ extra)) out) = some s ∧
      s.format = ending.behind rest ∧ s.out = out ++ written ∧
      (if s.err then -1 else wrap32 s.l.toNat) = ending.result written.length := by
  rcases turns_calls with64BitMath (calls.length + more) file fit negatable
      (s := .start (textOfCalls calls ++ (ending.text ++ rest))
        (argsOfCalls calls ++ (widths.map Arg.int32 ++ extra)) out) rfl rfl rfl with
          ⟨s, run, advances⟩
  rcases advances.counted accepts with ⟨written, passed, number⟩
  have running : s.err = false := advances.err
  have depth : calls.length + 2 + more = calls.length + more + 2 := by omega
  have fuel : calls.length + 2 + more = more + 2 + calls.length := by omega
  have loop := vfprintfLoop_turns with64BitMath (calls.length + more + 2) file run (more + 2)
  rw [← depth, ← fuel] at loop
  cases ending with
  | complete =>
      have last :=
        vfprintfLoop_complete with64BitMath file (calls.length + 2 + more) (more + 1) running
        advances.format
      refine ⟨s, written, loop.trans last, advances.format, passed, ?_⟩
      rw [running, if_neg Bool.false_ne_true]
      refine wrap32_congr (number.trans ?_)
      have zero : (0 : BitVec m.wordTBits).toNat = 0 := rfl
      rw [PrintState.start, zero, Nat.zero_add]
  | malformed specification letters misspelt =>
      have format : s.format = ascii '%' :: (specification.chars ++ (letters ++ rest)) := by
        rw [advances.format, Ending.text, List.cons_append, List.append_assoc]
      rcases vfprintfLoop_malformed with64BitMath file
          (calls.length + 2 + more) more misspelt counted
          running format advances.va with ⟨last, ends, err, behind, out'⟩
      refine ⟨last, written, loop.trans ends, behind, out'.trans passed, ?_⟩
      rw [err, if_pos rfl]
      rfl

/-- For all arguments that belong to the pieces of a string, and with enough
fuel, `vfprintf` returns.  The format pointer ends at the NUL or behind the
malformed specification.  That specification gives `-1`, and without one the
result is the number of bytes that were passed, if it is below `2 ^ 31`. -/
def Returns (m : Machine) (file : File) (string : List UInt8) (pieces : List Piece)
    (ending : Ending) (rest : List UInt8) : Prop :=
  ∀ calls : List (Piece × Operands m), calls.map Prod.fst = pieces →
    (∀ call ∈ calls, call.2.Fit call.1.stars (call.1.fetches m with64BitMath)) → Negatable calls →
    ∀ widths : List (BitVec 32), widths.length = ending.stars → ∀ extra out,
      let va := argsOfCalls calls ++ (widths.map Arg.int32 ++ extra)
      ∃ fuel, ∀ more, ∃ s result written,
        vfprintfLoop with64BitMath (fuel + more) file (fuel + more)
          (.start string va out) = some s ∧
          s.format = ending.behind rest ∧
          vfprintf with64BitMath file m (fuel + more) string va out =
            some (result, out ++ written) ∧
          (ending ≠ .complete → result = -1) ∧
          (ending = .complete → result = wrap32 written.length ∧
            (written.length < 2 ^ 31 → result = written.length))

/-- Every string with a NUL consists of pieces, and `vfprintf` returns what it
should for them. -/
theorem vfprintf_count (m : Machine) (with64BitMath : Bool) (accepts : file.Accepts)
    {string : List UInt8} (terminated : 0 ∈ string) :
    ∃ pieces ending rest, string = textOf pieces ++ (Ending.text ending ++ rest) ∧
      Returns with64BitMath m file string pieces ending rest := by
  rcases exists_pieces string terminated with ⟨pieces, ending, rest, split⟩
  refine ⟨pieces, ending, rest, split,
    fun calls arePieces fit negatable widths counted extra out => ?_⟩
  refine ⟨calls.length + 2, fun more => ?_⟩
  rcases vfprintfLoop_calls with64BitMath accepts fit negatable ending rest counted extra
      out more with
    ⟨s, written, loop, behind, passed, result⟩
  have text : string = textOfCalls calls ++ (ending.text ++ rest) := by
    rw [split, textOfCalls, arePieces]
  rw [← text] at loop
  refine ⟨s, ending.result written.length, written, loop, behind, ?_, fun malformed => ?_,
    fun complete => ?_⟩
  · rw [vfprintf, loop, Option.map_some, result, passed]
  · cases ending with
    | complete => exact absurd rfl malformed
    | malformed specification letters misspelt => rfl
  · rw [complete]
    exact ⟨rfl, wrap32_of_lt⟩

/-- A device that takes everything. -/
def acceptingDevice : File := .device fun _before bytes => bytes.length

theorem acceptingDevice_accepts : acceptingDevice.Accepts := fun _before _bytes => rfl

/-- The string `"%d"` on a device, and the run of it with `-42`. -/
theorem vfprintf_count_decimal :
    (∃ pieces ending rest, [ascii '%', ascii 'd', 0] =
      textOf pieces ++ (Ending.text ending ++ rest) ∧
      Returns false Machine.beaglexm acceptingDevice [ascii '%', ascii 'd', 0] pieces ending rest) ∧
    vfprintf false acceptingDevice Machine.beaglexm 3 [ascii '%', ascii 'd', 0]
      [.int32 (-42#32)] [] =
      some (3, [ascii '-', ascii '4', ascii '2']) :=
  ⟨vfprintf_count Machine.beaglexm false acceptingDevice_accepts (by decide), by decide +kernel⟩

/-! ## More bytes than the result can say -/

theorem wrap32_lt (value : Int) : wrap32 value < 2 ^ 31 := Int.bmod_lt (by decide)

/-- A character at the right end of a field. -/
theorem vfprintfStep_wideCharacter (accepts : file.Accepts) (depth : Nat) {width arg : BitVec 32}
    (natural : 0 ≤ width.toInt) {s : PrintState m} {rest : List UInt8}
    (format : s.format = ascii '%' :: ([ascii '*'] ++ ascii 'c' :: rest)) {va : List (Arg m)}
    (args : s.va = [.int32 width] ++ .int32 arg :: va) :
    ∃ s', vfprintfStep with64BitMath depth file s = some s' ∧ Advances file s rest va s' ∧
      s'.out = s.out ++
        (List.replicate (width.toInt - 1).toNat (ascii ' ') ++ [UInt8.ofNat arg.toNat]) := by
  have upper := BitVec.toInt_lt (x := width)
  have valid : (FieldWidth.star width).Valid := by
    rintro rfl
    exact absurd natural (by decide)
  have read := flagsLoop_width valid (show isFlag (ascii 'c') = false from rfl)
    (show (FieldWidth.star width).text.length < ([ascii '*'] ++ ascii 'c' :: rest).length from
      Nat.succ_lt_succ (Nat.succ_pos _)) rest (.int32 arg :: va) false false
  have negative : (FieldWidth.star width).negative = false :=
    decide_eq_false (Int.not_lt.mpr natural)
  rw [negative, Bool.or_false] at read
  have pads : ∀ leftalign,
      Passes (fun out => some (padc file (FieldWidth.star width).pad leftalign out))
      (padding (ascii ' ') 1 (FieldWidth.star width).pad leftalign) := fun leftalign =>
    Passes.of_emits (padTo_emits (accepts.putc _) 1 _ leftalign)
  rcases field_passes pads (Passes.of_emits (accepts.putc (UInt8.ofNat arg.toNat))) false
      { s with format := rest, va := va } with ⟨s', printed, out⟩
  rcases field_advances
      (fun leftalign => padTo_writes file (ascii ' ') 1 (FieldWidth.star width).pad leftalign)
      (putc_writes file (UInt8.ofNat arg.toNat)) false { s with format := rest } va with
        ⟨other, same, advances⟩
  rw [← Option.some.inj (same.symm.trans printed)] at out
  refine ⟨other, ?_, ⟨advances.format, advances.va, advances.err, advances.counted⟩, ?_⟩
  · refine Eq.trans ?_ same
    rw [vfprintfStep, format]
    dsimp only
    rw [if_pos rfl, args]
    refine (congrArg (fun result => Option.bind result _) read).trans ?_
    rfl
  · have missing : wrap32 ((FieldWidth.star width).pad - 1) = width.toInt - 1 := by
      have pad : ((FieldWidth.star width).pad : Int) = width.toInt := Int.natAbs_of_nonneg natural
      rw [pad, wrap32_eq (by omega) (by omega)]
    rw [out, padding, padding, if_neg Bool.false_ne_true, missing, Bool.not_false, if_pos rfl,
      List.append_nil]

/-- `%*cx`: a character in a field of `2 ^ 31 - 1` bytes, and another one. -/
def wideCharacter : List (Piece × Operands Machine.beaglexm) :=
  [(.directive .star .c, ⟨[BitVec.intMax 32], some (.int32 65#32)⟩),
    (.literal (ascii 'x') (by decide) (by decide), ⟨[], none⟩)]

theorem vfprintfStep_literal (accepts : file.Accepts) (depth : Nat) {c : UInt8}
    (stands : c ≠ ascii '%')
    {s : PrintState m} {rest : List UInt8} (format : s.format = c :: rest) :
    ∃ s', vfprintfStep with64BitMath depth file s = some s' ∧ Advances file s rest s.va s' ∧
      s'.out = s.out ++ [c] := by
  rcases emit_passes (Passes.of_emits (accepts.putc c)) { s with format := rest } with
    ⟨s', printed, out⟩
  rcases emit_advances (putc_writes file c) { s with format := rest } with ⟨other, same, advances⟩
  rw [← Option.some.inj (same.symm.trans printed)] at out
  refine ⟨other, ?_, ⟨advances.format, advances.va, advances.err, advances.counted⟩, out⟩
  rw [vfprintfStep, format]
  exact (if_neg stands).trans same

/-- The two turns of the wide character pass `2 ^ 31` bytes. -/
theorem turns_wideCharacter (depth : Nat) :
    ∃ s, turns false depth acceptingDevice 2
        (.start (textOfCalls wideCharacter ++ [0]) (argsOfCalls wideCharacter) []) = some s ∧
      s.err = false ∧ s.format = [0] ∧ s.out.length = 2 ^ 31 := by
  let start : PrintState Machine.beaglexm :=
    .start (textOfCalls wideCharacter ++ [0]) (argsOfCalls wideCharacter) []
  rcases vfprintfStep_wideCharacter false acceptingDevice_accepts depth (s := start)
      (show 0 ≤ (BitVec.intMax 32).toInt by decide) rfl rfl with ⟨first, turn, advances, out⟩
  have stands : ascii 'x' ≠ ascii '%' := by decide
  rcases vfprintfStep_literal false acceptingDevice_accepts depth stands advances.format with
    ⟨second, turn', advances', out'⟩
  have running : first.err = false := advances.err
  have continues : first.err = false ∧ first.format.head? ≠ some 0 := by
    rw [advances.format]
    exact ⟨running, by decide⟩
  refine ⟨second, ?_, advances'.err.trans running, advances'.format, ?_⟩
  · rw [turns, if_pos ⟨rfl, by decide⟩, turn, Option.bind_some, turns, if_pos continues, turn',
      Option.bind_some]
    rfl
  · have width : ((BitVec.intMax 32).toInt - 1).toNat = 2 ^ 31 - 2 := by decide
    have nothing : start.out.length = 0 := rfl
    rw [out', out, List.length_append, List.length_append, List.length_append,
      List.length_replicate, width, List.length_singleton, List.length_singleton, nothing]
    omega

/-- The result of so many bytes is not their number. -/
theorem not_vfprintf_count :
    ¬ ∀ calls : List (Piece × Operands Machine.beaglexm),
      (∀ call ∈ calls, call.2.Fit call.1.stars (call.1.fetches Machine.beaglexm false)) →
        Negatable calls →
        ∃ fuel, ∀ more, ∃ result written,
          vfprintf false acceptingDevice Machine.beaglexm (fuel + more) (textOfCalls calls ++ [0])
              (argsOfCalls calls) [] = some (result, written) ∧ result = written.length := by
  intro exact
  have fit : ∀ call ∈ wideCharacter,
      call.2.Fit call.1.stars (call.1.fetches Machine.beaglexm false) := by
    intro call member
    rcases List.mem_cons.mp member with rfl | member
    · exact ⟨rfl, rfl, trivial⟩
    · rw [List.mem_singleton.mp member]
      exact ⟨rfl, rfl, trivial⟩
  have negatable : Negatable wideCharacter := by
    intro call member signed
    rcases List.mem_cons.mp member with rfl | member
    · rcases signed with same | same <;> cases same
    · rw [List.mem_singleton.mp member] at signed
      exact signed.elim
  rcases exact wideCharacter fit negatable with ⟨fuel, exact⟩
  rcases exact 3 with ⟨result, written, returned, number⟩
  rcases turns_wideCharacter (fuel + 3) with ⟨s, run, running, format, length⟩
  have loop := (vfprintfLoop_turns false (fuel + 3) acceptingDevice run (fuel + 1)).trans
    (vfprintfLoop_complete false acceptingDevice (fuel + 3) fuel running format)
  have same : some (if s.err then -1 else wrap32 s.l.toNat, s.out) = some (result, written) := by
    rw [← returned, vfprintf, loop]
    rfl
  rcases Prod.mk.inj (Option.some.inj same) with ⟨value, rfl⟩
  have small := wrap32_lt s.l.toNat
  rw [running, if_neg Bool.false_ne_true] at value
  omega

end Stdlib
end ShovelOS
