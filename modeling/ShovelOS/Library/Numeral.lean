import Mathlib.Data.Nat.Digits.Lemmas

namespace ShovelOS
namespace Numeral

/-!
# Numerals

The numeral of a number is the list of its digits, the most significant one
first, with no zero in front.  Zero has the numeral of one digit.

Programs print numerals from the top.  They look at one place after the other
and skip the zeros until the first digit that counts.  Programs read numerals
from the bottom.  They add the digits, each with the weight of its place.
-/

/-- The digits of a number, the most significant one first. -/
def numeral (base n : Nat) : List Nat := if n = 0 then [0] else (Nat.digits base n).reverse

variable {base n : Nat}

theorem numeral_of_lt (small : n < base) : numeral base n = [n] := by
  rw [numeral]
  split
  · rename_i zero
    rw [zero]
  · rename_i positive
    rw [Nat.digits_of_lt base n positive small]
    rfl

/-- The last digit is the remainder, and the quotient has the numeral in front
of it. -/
theorem numeral_of_le (wide : 2 ≤ base) (large : base ≤ n) :
    numeral base n = numeral base (n / base) ++ [n % base] := by
  have positive : 0 < n := by omega
  have quotient : n / base ≠ 0 := Nat.ne_of_gt (Nat.div_pos large (by omega))
  rw [numeral, numeral, if_neg (Nat.ne_of_gt positive), if_neg quotient,
    Nat.digits_def' wide positive, List.reverse_cons]

theorem lt_of_mem_numeral (wide : 2 ≤ base) {digit : Nat} (isDigit : digit ∈ numeral base n) :
    digit < base := by
  rw [numeral] at isDigit
  split at isDigit
  · rw [List.mem_singleton.mp isDigit]
    omega
  · exact Nat.digits_lt_base wide (List.mem_reverse.mp isDigit)

/-- A numeral of two or more digits does not begin with zero. -/
theorem head_numeral_ne_zero (base : Nat) {n : Nat} (positive : n ≠ 0) :
    (numeral base n).head? ≠ some 0 := by
  rw [numeral, if_neg positive, List.head?_reverse]
  have nonempty : Nat.digits base n ≠ [] := Nat.digits_ne_nil_iff_ne_zero.mpr positive
  rw [List.getLast?_eq_some_getLast nonempty]
  intro zero
  exact Nat.getLast_digit_ne_zero base positive (Option.some.inj zero)

theorem ofDigits_numeral (base n : Nat) : Nat.ofDigits base (numeral base n).reverse = n := by
  rw [numeral]
  split
  · rename_i zero
    rw [zero]
    rfl
  · rw [List.reverse_reverse, Nat.ofDigits_digits]

theorem numeral_length_pos (base n : Nat) : 0 < (numeral base n).length := by
  rw [numeral]
  split
  · exact Nat.one_pos
  · rename_i positive
    rw [List.length_reverse]
    exact List.length_pos_of_ne_nil (Nat.digits_ne_nil_iff_ne_zero.mpr positive)

/-- A number below a power of the base has at most that many digits. -/
theorem numeral_length_le (wide : 2 ≤ base) {count : Nat} (positive : 0 < count)
    (small : n < base ^ count) :
    (numeral base n).length ≤ count := by
  rw [numeral]
  split
  · exact positive
  · rw [List.length_reverse, Nat.digits_length_le_iff wide]
    exact small

/-- A number from a power of the base on has more digits than that. -/
theorem lt_numeral_length (wide : 2 ≤ base) {count : Nat} (large : base ^ count ≤ n) :
    count < (numeral base n).length := by
  have positive : n ≠ 0 := by
    have power := Nat.pow_pos (n := count) (show 0 < base by omega)
    omega
  rw [numeral, if_neg positive, List.length_reverse, Nat.lt_digits_length_iff wide]
  exact large

/-! ## From the top -/

/-- The digits of the lowest places, zeros included. -/
def places (base : Nat) : Nat → Nat → List Nat
  | 0, _n => []
  | count + 1, n => places base count (n / base) ++ [n % base]

/-- The same digits, from the highest place on. -/
theorem places_succ (base count n : Nat) :
    places base (count + 1) n = n / base ^ count % base :: places base count n := by
  induction count generalizing n with
  | zero =>
      rw [Nat.pow_zero, Nat.div_one]
      rfl
  | succ count inductionHypothesis =>
      rw [places, inductionHypothesis, Nat.div_div_eq_div_mul, ← Nat.pow_succ', List.cons_append]
      rfl

/-- A number that fills its places is written without zeros in front. -/
theorem numeral_eq_places (wide : 2 ≤ base) {count : Nat} (large : base ^ count ≤ n)
    (small : n < base ^ (count + 1)) : numeral base n = places base (count + 1) n := by
  induction count generalizing n with
  | zero =>
      rw [Nat.pow_one] at small
      rw [numeral_of_lt small, places, Nat.mod_eq_of_lt small]
      rfl
  | succ count inductionHypothesis =>
      have atLeast : base ≤ n :=
        Nat.le_trans (Nat.le_self_pow (Nat.succ_ne_zero count) base) large
      have quotientLarge : base ^ count ≤ n / base := by
        rw [Nat.le_div_iff_mul_le (by omega), ← Nat.pow_succ]
        exact large
      have quotientSmall : n / base < base ^ (count + 1) := by
        rw [Nat.div_lt_iff_lt_mul (by omega), ← Nat.pow_succ]
        exact small
      rw [numeral_of_le wide atLeast, inductionHypothesis quotientLarge quotientSmall]
      rfl

/-- The digits that are printed from the top when the zeros in front are
skipped, the last place excepted. -/
def significant (base n : Nat) : Nat → Bool → List Nat
  | 0, _started => []
  | count + 1, started =>
      let digit := n / base ^ count % base
      if digit ≠ 0 ∨ started = true ∨ count = 0 then digit :: significant base n count true
      else significant base n count started

theorem significant_started (base n count : Nat) :
    significant base n count true = places base count n := by
  induction count with
  | zero => rfl
  | succ count inductionHypothesis =>
      rw [significant, places_succ, ← inductionHypothesis]
      exact if_pos (Or.inr (Or.inl rfl))

theorem significant_length_le (base n count : Nat) (started : Bool) :
    (significant base n count started).length ≤ count := by
  induction count generalizing started with
  | zero => exact Nat.le_refl 0
  | succ count inductionHypothesis =>
      rw [significant]
      split
      · exact Nat.succ_le_succ (inductionHypothesis true)
      · exact Nat.le_succ_of_le (inductionHypothesis started)

/-- With enough places, what is printed is the numeral. -/
theorem significant_eq_numeral (wide : 2 ≤ base) {count : Nat} (positive : 0 < count)
    (small : n < base ^ count) : significant base n count false = numeral base n := by
  induction count with
  | zero => exact absurd positive (Nat.lt_irrefl 0)
  | succ count inductionHypothesis =>
      have top : n / base ^ count % base = n / base ^ count := by
        refine Nat.mod_eq_of_lt ((Nat.div_lt_iff_lt_mul (Nat.pow_pos (by omega))).mpr ?_)
        rw [← Nat.pow_succ']
        exact small
      rw [significant, top]
      by_cases large : base ^ count ≤ n
      · have counts : n / base ^ count ≠ 0 :=
          Nat.ne_of_gt (Nat.div_pos large (Nat.pow_pos (by omega)))
        rw [if_pos (Or.inl counts), significant_started, numeral_eq_places wide large small,
          places_succ, top]
      · have below := Nat.lt_of_not_le large
        have zero : n / base ^ count = 0 := Nat.div_eq_of_lt below
        rw [zero]
        rcases Nat.eq_zero_or_pos count with rfl | more
        · rw [Nat.pow_zero] at below
          rw [if_pos (Or.inr (Or.inr rfl)), numeral, if_pos (by omega)]
          rfl
        · have skipped : ¬ ((0 : Nat) ≠ 0 ∨ false = true ∨ count = 0) := by
            rintro (counts | started | last)
            · exact counts rfl
            · cases started
            · omega
          rw [if_neg skipped, inductionHypothesis more below]

/-! ## From the bottom -/

/-- The sum of digits, the least significant one first, with the weights of
their places. -/
def weigh (weight : Nat → Nat) : Nat → List Nat → Nat
  | _place, [] => 0
  | place, digit :: digits => digit * weight place + weigh weight (place + 1) digits

theorem weigh_append (weight : Nat → Nat) (place : Nat) (low high : List Nat) :
    weigh weight place (low ++ high) =
      weigh weight place low + weigh weight (place + low.length) high := by
  induction low generalizing place with
  | nil => simp [weigh]
  | cons digit low inductionHypothesis =>
      have shifted : place + 1 + low.length = place + (low.length + 1) := by omega
      rw [List.cons_append, weigh, weigh, inductionHypothesis, shifted, List.length_cons,
        Nat.add_assoc]

/-- With the powers of the base as weights, the digits give their number. -/
theorem weigh_pow (base place : Nat) (digits : List Nat) :
    weigh (fun place => base ^ place) place digits = base ^ place * Nat.ofDigits base digits := by
  induction digits generalizing place with
  | nil => simp [weigh]
  | cons digit digits inductionHypothesis =>
      rw [weigh, inductionHypothesis, Nat.ofDigits_cons, Nat.pow_succ, Nat.mul_add,
        Nat.mul_comm digit]
      simp only [Nat.mul_assoc]

theorem weigh_congr {weight weight' : Nat → Nat} {place : Nat} {digits : List Nat}
    (same : ∀ other, other < place + digits.length → weight other = weight' other) :
    weigh weight place digits = weigh weight' place digits := by
  induction digits generalizing place with
  | nil => rfl
  | cons digit digits inductionHypothesis =>
      rw [List.length_cons] at same
      rw [weigh, weigh, same place (by omega),
        inductionHypothesis fun other below => same other (by omega)]

theorem weigh_le {weight weight' : Nat → Nat} (smaller : ∀ place, weight place ≤ weight' place)
    (place : Nat) (digits : List Nat) : weigh weight place digits ≤ weigh weight' place digits := by
  induction digits generalizing place with
  | nil => exact Nat.le_refl _
  | cons digit digits inductionHypothesis =>
      exact Nat.add_le_add (Nat.mul_le_mul_left digit (smaller place))
        (inductionHypothesis (place + 1))

/-- Weights with the same remainders give sums with the same remainder. -/
theorem weigh_mod {weight weight' : Nat → Nat} {modulus : Nat}
    (same : ∀ place, weight place % modulus = weight' place % modulus) (place : Nat)
    (digits : List Nat) :
    weigh weight place digits % modulus = weigh weight' place digits % modulus := by
  induction digits generalizing place with
  | nil => rfl
  | cons digit digits inductionHypothesis =>
      exact Nat.ModEq.add (Nat.ModEq.mul_left digit (same place)) (inductionHypothesis (place + 1))

/-- A top digit that counts less makes the whole sum less. -/
theorem weigh_reverse_cons_lt {weight weight' : Nat → Nat}
    (smaller : ∀ place, weight place ≤ weight' place)
    {top : Nat} (counts : top ≠ 0) {digits : List Nat}
    (less : weight digits.length < weight' digits.length) :
    weigh weight 0 (top :: digits).reverse < weigh weight' 0 (top :: digits).reverse := by
  have low := weigh_le smaller 0 digits.reverse
  have high : top * weight digits.length < top * weight' digits.length :=
    Nat.mul_lt_mul_of_pos_left less (Nat.pos_of_ne_zero counts)
  rw [List.reverse_cons, weigh_append, weigh_append, List.length_reverse, Nat.zero_add]
  exact Nat.add_lt_add_of_le_of_lt low high

/-- The weights of the base give a numeral back. -/
theorem weigh_numeral (base n : Nat) :
    weigh (fun place => base ^ place) 0 (numeral base n).reverse = n := by
  rw [weigh_pow, ofDigits_numeral, Nat.pow_zero, Nat.one_mul]

end Numeral
end ShovelOS
