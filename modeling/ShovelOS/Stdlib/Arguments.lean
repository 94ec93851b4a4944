import ShovelOS.Stdlib.Turn

namespace ShovelOS
namespace Stdlib

/-!
# Runs of `vfprintf` and their arguments

A run of `vfprintf` handles the pieces of its format in their order, one in
each turn.  When every turn takes the argument of its piece, the pieces and the
arguments stay aligned.  The code behind the long conversions and behind the
pointers of eight bytes is compiled with `__WITH_64BIT_MATH` only.  Without it
their arguments are left to the pieces that follow.
-/

variable {m : Machine} (with64BitMath : Bool) (depth : Nat) (file : File)

/-- A number of turns of the loop, whose condition holds before each of them. -/
def turns : Nat → PrintState m → Option (PrintState m)
  | 0, s => some s
  | count + 1, s =>
      if s.err = false ∧ s.format.head? ≠ some 0 then
        (vfprintfStep with64BitMath depth file s).bind (turns count)
      else none

theorem vfprintfLoop_turns {count : Nat} {s s' : PrintState m}
    (run : turns with64BitMath depth file count s = some s') (more : Nat) :
    vfprintfLoop with64BitMath depth file (more + count) s =
      vfprintfLoop with64BitMath depth file more s' := by
  induction count generalizing s with
  | zero => rw [← Option.some.inj run, Nat.add_zero]
  | succ count inductionHypothesis =>
      rw [turns] at run
      split at run
      · rename_i continues
        rcases Option.bind_eq_some_iff.mp run with ⟨next, step, rest⟩
        rw [← inductionHypothesis rest, ← Nat.add_assoc, vfprintfLoop, continues.1,
          if_neg Bool.false_ne_true, step]
        cases format : s.format with
        | nil =>
            rw [vfprintfStep, format] at step
            cases step
        | cons c rest =>
            have notEnd : c ≠ 0 := by
              rintro rfl
              exact continues.2 (by rw [format]; rfl)
            exact if_neg notEnd
      · cases run

theorem turns_add (first second : Nat) (s : PrintState m) :
    turns with64BitMath depth file (first + second) s =
      (turns with64BitMath depth file first s).bind (turns with64BitMath depth file second) := by
  induction first generalizing s with
  | zero => rw [Nat.zero_add]; rfl
  | succ first inductionHypothesis =>
      rw [Nat.succ_add, turns, turns]
      split
      · rw [Option.bind_assoc]
        exact congrArg _ (funext inductionHypothesis)
      · rfl

/-! ## Pieces with their operands -/

def textOfCalls (calls : List (Piece × Operands m)) : List UInt8 := textOf (calls.map Prod.fst)

def argsOfCalls (calls : List (Piece × Operands m)) : List (Arg m) := argsOf (calls.map Prod.snd)

theorem textOfCalls_cons (call : Piece × Operands m) (calls : List (Piece × Operands m)) :
    textOfCalls (call :: calls) = call.1.text ++ textOfCalls calls := rfl

theorem argsOfCalls_cons (call : Piece × Operands m) (calls : List (Piece × Operands m)) :
    argsOfCalls (call :: calls) = call.2.args ++ argsOfCalls calls := rfl

theorem textOfCalls_append (before behind : List (Piece × Operands m)) :
    textOfCalls (before ++ behind) = textOfCalls before ++ textOfCalls behind := by
  rw [textOfCalls, textOf, List.map_append, List.flatMap_append]
  rfl

theorem argsOfCalls_append (before behind : List (Piece × Operands m)) :
    argsOfCalls (before ++ behind) = argsOfCalls before ++ argsOfCalls behind := by
  rw [argsOfCalls, argsOf, List.map_append, List.flatMap_append]
  rfl

/-- No piece prints the smallest number with a sign. -/
def Negatable (calls : List (Piece × Operands m)) : Prop :=
  ∀ call ∈ calls, call.1.signed → call.2.value ≠ some (smallest m)

theorem head_text_ne_zero (piece : Piece) (rest : List UInt8) :
    (piece.text ++ rest).head? ≠ some 0 := by
  cases piece with
  | literal char isChar stands => exact fun same => isChar (Option.some.inj same)
  | directive run letter => exact fun same => absurd (Option.some.inj same) (by decide)

/-- One turn for each piece, when the operands are what the build fetches. -/
theorem turns_calls {calls : List (Piece × Operands m)}
    (fit : ∀ call ∈ calls, call.2.Fit call.1.stars (call.1.fetches m with64BitMath))
    (negatable : Negatable calls) {s : PrintState m} (running : s.err = false) {rest : List UInt8}
    (format : s.format = textOfCalls calls ++ rest) {va : List (Arg m)}
    (args : s.va = argsOfCalls calls ++ va) :
    ∃ s', turns with64BitMath (depth + 2) file calls.length s = some s' ∧
      Advances file s rest va s' := by
  induction calls generalizing s with
  | nil => exact ⟨s, rfl, format, args, rfl, fun _accepts => Counted.refl s⟩
  | cons call calls inductionHypothesis =>
      rw [textOfCalls_cons, List.append_assoc] at format
      rw [argsOfCalls_cons, List.append_assoc] at args
      rcases vfprintfStep_piece with64BitMath depth (fit call List.mem_cons_self)
          (negatable call List.mem_cons_self) format args with ⟨next, step, advances⟩
      rcases inductionHypothesis (fun other member => fit other (List.mem_cons_of_mem _ member))
          (fun other member => negatable other (List.mem_cons_of_mem _ member))
          (advances.err.trans running) advances.format advances.va with ⟨last, run, remaining⟩
      refine ⟨last, ?_, advances.trans remaining⟩
      have continues : s.err = false ∧ s.format.head? ≠ some 0 := by
        rw [format]
        exact ⟨running, head_text_ne_zero call.1 _⟩
      rw [List.length_cons, turns, if_pos continues, step]
      exact run

/-! ## Alignment -/

namespace Piece

/-- The piece is a long conversion, or prints a pointer of eight bytes. -/
def needs64BitMath (m : Machine) : Piece → Prop
  | .literal .. => False
  | .directive _run letter => letter.takes = some .int64 ∨ (letter = .p ∧ m.wordTBytes = 8)

/-- A build fetches the argument of a piece unless it lacks the code for it. -/
theorem fetches_eq_takes_iff (m : Machine) (with64BitMath : Bool) (piece : Piece) :
    piece.fetches m with64BitMath = piece.takes ↔
      (piece.needs64BitMath m → with64BitMath = true) := by
  cases piece with
  | literal char isChar stands => exact ⟨fun _same absurd => absurd.elim, fun _condition => rfl⟩
  | directive run letter =>
      cases letter <;> cases with64BitMath <;>
        simp [fetches, takes, needs64BitMath, Conversion.fetches, Conversion.takes]

/-- What a build does not fetch it leaves alone. -/
theorem fetches_none {with64BitMath : Bool} {piece : Piece}
    (differs : piece.fetches m with64BitMath ≠ piece.takes) :
    piece.fetches m with64BitMath = none := by
  cases piece with
  | literal char isChar stands => rfl
  | directive run letter =>
      revert differs
      cases letter <;> cases with64BitMath <;>
        simp [fetches, takes, Conversion.fetches, Conversion.takes]

end Piece

/-- Before every turn, the format pointer is at the next piece, and the
arguments that are left begin with the ones of this piece. -/
def Aligned (calls : List (Piece × Operands m)) (rest : List UInt8) (extra : List (Arg m))
    (start : PrintState m) : Prop :=
  ∃ depth, ∀ deeper count, count ≤ calls.length →
    ∃ s, turns with64BitMath (depth + deeper) file count start = some s ∧ s.err = false ∧
      s.format = textOfCalls (calls.drop count) ++ rest ∧
      s.va = argsOfCalls (calls.drop count) ++ extra

variable {with64BitMath file} {calls : List (Piece × Operands m)} {rest : List UInt8}
  {extra : List (Arg m)}
  {start : PrintState m}

/-- The state before a piece, and the one behind it. -/
theorem Aligned.turn_of {before behind : List (Piece × Operands m)} {call : Piece × Operands m}
    (aligned : Aligned with64BitMath file (before ++ call :: behind) rest extra start) :
    ∃ depth, ∃ s s', vfprintfStep with64BitMath (depth + 2) file s = some s' ∧
      s.format = call.1.text ++ (textOfCalls behind ++ rest) ∧
      s.va = call.2.args ++ (argsOfCalls behind ++ extra) ∧
      s'.va = argsOfCalls behind ++ extra := by
  rcases aligned with ⟨depth, aligned⟩
  have length : (before ++ call :: behind).length = before.length + 1 + behind.length := by
    rw [List.length_append, List.length_cons]
    omega
  have dropThis : (before ++ call :: behind).drop before.length = call :: behind := List.drop_left
  have dropNext : (before ++ call :: behind).drop (before.length + 1) = behind := by
    rw [← List.drop_drop, dropThis]
    rfl
  rcases aligned 2 before.length (by omega) with ⟨s, run, _running, format, va⟩
  rcases aligned 2 (before.length + 1) (by omega) with ⟨s', run', _running', _format', va'⟩
  rw [dropThis, textOfCalls_cons, List.append_assoc] at format
  rw [dropThis, argsOfCalls_cons, List.append_assoc] at va
  rw [dropNext] at va'
  rw [turns_add, run, Option.bind_some, turns] at run'
  split at run'
  · rcases Option.bind_eq_some_iff.mp run' with ⟨next, step, same⟩
    rw [Option.some.inj same] at step
    exact ⟨depth, s, s', step, format, va, va'⟩
  · cases run'

theorem Aligned.fetches_eq (aligned : Aligned with64BitMath file calls rest extra start)
    (fit : ∀ call ∈ calls, call.2.Fit call.1.stars call.1.takes) (negatable : Negatable calls) :
    ∀ call ∈ calls, call.1.fetches m with64BitMath = call.1.takes := by
  intro call member
  by_contra differs
  rcases List.append_of_mem member with ⟨before, behind, rfl⟩
  rcases aligned.turn_of with ⟨depth, s, s', step, format, va, va'⟩
  have fits := fit call member
  have fetches := Piece.fetches_none differs
  have unfetched : ({ call.2 with value := none } : Operands m).Fit call.1.stars
      (call.1.fetches m with64BitMath) := ⟨fits.widths, fetches.symm, trivial⟩
  have leaves : s.va = ({ call.2 with value := none } : Operands m).args ++
      (call.2.value.toList ++ (argsOfCalls behind ++ extra)) := by
    rw [va, Operands.args, Operands.args]
    simp
  rcases vfprintfStep_piece with64BitMath depth unfetched
      (fun _signed => by simp) format leaves with
    ⟨next, turn, advances⟩
  have same : call.2.value.toList ++ (argsOfCalls behind ++ extra) =
      argsOfCalls behind ++ extra := by
    rw [← advances.va, ← va', Option.some.inj (turn.symm.trans step)]
  have none : call.2.value = none := by
    have lengths := congrArg List.length same
    cases value : call.2.value with
    | none => rfl
    | some arg =>
        rw [value, List.length_append, Option.toList_some, List.length_singleton] at lengths
        omega
  rw [fetches, ← fits.value, none] at differs
  exact differs rfl

/-- Where the pieces stay aligned, none of them never ends. -/
theorem Aligned.negatable (aligned : Aligned with64BitMath file calls rest extra start)
    (fit : ∀ call ∈ calls, call.2.Fit call.1.stars call.1.takes) : Negatable calls := by
  intro call member signed isSmallest
  rcases List.append_of_mem member with ⟨before, behind, rfl⟩
  rcases aligned.turn_of with ⟨depth, s, s', step, format, va, _va'⟩
  have widths := (fit call member).widths
  rcases call with ⟨piece, operands⟩
  cases piece with
  | literal char isChar stands => exact signed
  | directive run letter =>
      have args : s.va =
          operands.widths.map Arg.int32 ++ smallest m :: (argsOfCalls behind ++ extra) := by
        rw [va, Operands.args, isSmallest, List.append_assoc]
        rfl
      rw [vfprintfStep_smallest with64BitMath (depth + 2) signed widths format args] at step
      cases step

theorem aligned_of_fetches (fit : ∀ call ∈ calls, call.2.Fit call.1.stars call.1.takes)
    (fetches : ∀ call ∈ calls, call.1.fetches m with64BitMath = call.1.takes)
    (negatable : Negatable calls)
    (running : start.err = false) (format : start.format = textOfCalls calls ++ rest)
    (args : start.va = argsOfCalls calls ++ extra) :
    Aligned with64BitMath file calls rest extra start := by
  refine ⟨2, fun deeper count within => ?_⟩
  have split : calls.take count ++ calls.drop count = calls := List.take_append_drop count calls
  have fitFirst : ∀ call ∈ calls.take count,
      call.2.Fit call.1.stars (call.1.fetches m with64BitMath) := by
    intro call member
    have isCall := List.mem_of_mem_take member
    rw [fetches call isCall]
    exact fit call isCall
  have formatSplit : start.format =
      textOfCalls (calls.take count) ++ (textOfCalls (calls.drop count) ++ rest) := by
    rw [format, ← List.append_assoc, ← textOfCalls_append, split]
  have argsSplit :
      start.va = argsOfCalls (calls.take count) ++ (argsOfCalls (calls.drop count) ++ extra) := by
    rw [args, ← List.append_assoc, ← argsOfCalls_append, split]
  rcases turns_calls with64BitMath deeper file fitFirst
      (fun call member => negatable call (List.mem_of_mem_take member))
        running formatSplit argsSplit with
    ⟨s, run, advances⟩
  rw [List.length_take, Nat.min_eq_left within, Nat.add_comm deeper] at run
  exact ⟨s, run, advances.err.trans running, advances.format, advances.va⟩

/-- In every format without an error, and for all arguments that belong to it,
the pieces and the arguments stay aligned exactly when the build has the code
for all the pieces and no signed conversion is given the smallest number. -/
theorem arguments_aligned_iff (with64BitMath : Bool) (file : File)
    {calls : List (Piece × Operands m)}
    (fit : ∀ call ∈ calls, call.2.Fit call.1.stars call.1.takes) (behind : List UInt8)
    (extra : List (Arg m)) (out : List UInt8) :
    Aligned with64BitMath file calls (0 :: behind) extra
        (.start (textOfCalls calls ++ 0 :: behind) (argsOfCalls calls ++ extra) out) ↔
      (∀ call ∈ calls, call.1.needs64BitMath m → with64BitMath = true) ∧
      (∀ call ∈ calls, call.1.signed → call.2.value ≠ some (smallest m)) := by
  constructor
  · intro aligned
    have negatable := aligned.negatable fit
    refine ⟨fun call member => ?_, negatable⟩
    exact (Piece.fetches_eq_takes_iff m with64BitMath call.1).mp
      (aligned.fetches_eq fit negatable call member)
  · rintro ⟨compiled, negatable⟩
    have fetches : ∀ call ∈ calls, call.1.fetches m with64BitMath = call.1.takes :=
        fun call member =>
      (Piece.fetches_eq_takes_iff m with64BitMath call.1).mpr (compiled call member)
    exact aligned_of_fetches fit fetches negatable rfl rfl rfl

/-- `%*d` with its width and its value. -/
def starWidth : List (Piece × Operands Machine.beaglexm) :=
  [(.directive .star .d, ⟨[5#32], some (.int32 42#32)⟩)]

theorem arguments_aligned_iff_starWidth :
    Aligned false .debugOut starWidth [0] []
      (.start (textOfCalls starWidth ++ [0]) (argsOfCalls starWidth ++ []) []) := by
  refine (arguments_aligned_iff false .debugOut ?_ [] [] []).mpr ⟨?_, ?_⟩
  · intro call member
    rw [List.mem_singleton.mp member]
    exact ⟨rfl, rfl, trivial⟩
  · intro call member needs
    rw [List.mem_singleton.mp member] at needs
    rcases needs with long | ⟨pointer, _eight⟩
    · cases long
    · cases pointer
  · intro call member _signed
    rw [List.mem_singleton.mp member]
    exact fun same => absurd (Arg.int32.inj (Option.some.inj same)) (by decide)

/-- `%ld%d` with a long argument and a short one. -/
def longThenShort : List (Piece × Operands Machine.beaglexm) :=
  [(.directive .empty .ld, ⟨[], some (.int64 1#64)⟩),
    (.directive .empty .d, ⟨[], some (.int32 2#32)⟩)]

/-- The default build leaves the long argument for the `%d`. -/
theorem not_arguments_aligned :
    ¬ ∀ (with64BitMath : Bool) (calls : List (Piece × Operands Machine.beaglexm)),
      (∀ call ∈ calls, call.2.Fit call.1.stars call.1.takes) →
        Aligned with64BitMath .debugOut calls [0] []
          (.start (textOfCalls calls ++ [0]) (argsOfCalls calls ++ []) []) := by
  intro aligned
  have fit : ∀ call ∈ longThenShort, call.2.Fit call.1.stars call.1.takes := by
    intro call member
    rcases List.mem_cons.mp member with rfl | member
    · exact ⟨rfl, rfl, trivial⟩
    · rw [List.mem_singleton.mp member]
      exact ⟨rfl, rfl, trivial⟩
  have kept := aligned false longThenShort fit
  have fetches := kept.fetches_eq fit (kept.negatable fit) _ List.mem_cons_self
  cases fetches

end Stdlib
end ShovelOS
