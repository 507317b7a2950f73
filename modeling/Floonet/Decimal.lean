import Mathlib.Algebra.Order.Field.Rat
import Mathlib.Data.List.DropRight
import Mathlib.Tactic.FieldSimp
import Mathlib.Tactic.Ring

/-!
# Decimal numerals

A numeral is a pair of digit strings, of which one may be empty.  Its value is
the rational number it denotes; a text spells at most one numeral.
-/

namespace Decimal

/-- The number a string of digits denotes. -/
def natValue (digits : List Char) : Nat :=
  Nat.ofDigitChars 10 digits 0

@[simp] theorem natValue_nil : natValue [] = 0 := Nat.ofDigitChars_nil

theorem natValue_append (left right : List Char) :
    natValue (left ++ right) =
      10 ^ right.length * natValue left + natValue right := by
  rw [natValue, Nat.ofDigitChars_append, Nat.ofDigitChars_eq_ofDigitChars_zero]
  rfl

theorem natValue_replicate_zero (count : Nat) :
    natValue (List.replicate count '0') = 0 := by
  rw [natValue, Nat.ofDigitChars_replicate_zero, Nat.mul_zero]

theorem natValue_toDigits (value : Nat) :
    natValue (Nat.toDigits 10 value) = value :=
  Nat.ofDigitChars_ten_toDigits

theorem natValue_lt {digits : List Char}
    (allDigits : ∀ c ∈ digits, c.isDigit = true) :
    natValue digits < 10 ^ digits.length := by
  induction digits using List.reverseRecOn with
  | nil => exact Nat.one_pos
  | append_singleton digits c induction =>
      have lower := induction fun d member =>
        allDigits d (List.mem_append_left _ member)
      have digit := allDigits c (List.mem_append_right _ List.mem_cons_self)
      have small : natValue [c] < 10 := by
        have bound : c.toNat ≤ 57 := by
          simp only [Char.isDigit, Bool.and_eq_true, decide_eq_true_iff,
            UInt32.le_iff_toNat_le] at digit
          exact digit.2
        have value : natValue [c] = 10 * 0 + (c.toNat - 48) := rfl
        omega
      rw [natValue_append, List.length_append, List.length_singleton,
        Nat.pow_succ]
      omega

/-- Digits before and after a decimal point. -/
structure Numeral where
  whole : List Char
  frac : List Char
  wholeDigits : ∀ c ∈ whole, c.isDigit = true
  fracDigits : ∀ c ∈ frac, c.isDigit = true
  nonempty : whole ≠ [] ∨ frac ≠ []

namespace Numeral

def value (numeral : Numeral) : ℚ :=
  natValue numeral.whole + natValue numeral.frac / 10 ^ numeral.frac.length

/-- The value in units of the last of `places` decimal places. -/
def scaled (numeral : Numeral) (places : Nat) : Nat :=
  natValue numeral.whole * 10 ^ places +
    natValue numeral.frac * 10 ^ (places - numeral.frac.length)

theorem scaled_eq {numeral : Numeral} {places : Nat}
    (enough : numeral.frac.length ≤ places) :
    (numeral.scaled places : ℚ) = numeral.value * 10 ^ places := by
  have split : (10 : ℚ) ^ places =
      10 ^ (places - numeral.frac.length) * 10 ^ numeral.frac.length := by
    rw [← pow_add, Nat.sub_add_cancel enough]
  rw [scaled, value]
  push_cast
  rw [add_mul, split]
  field_simp

/-- The texts that spell a numeral: without a point if it is an integer, and
with one in any case. -/
inductive Spells (numeral : Numeral) : List Char → Prop where
  | integer : numeral.frac = [] → Spells numeral numeral.whole
  | point : Spells numeral (numeral.whole ++ '.' :: numeral.frac)

theorem point_notMem {digits : List Char}
    (allDigits : ∀ c ∈ digits, c.isDigit = true) : '.' ∉ digits := by
  intro member
  have digit := allDigits '.' member
  exact absurd digit (by decide)

/-- A spelling in which no zero and no point can be dropped. -/
structure Canonical (numeral : Numeral) (text : List Char) : Prop where
  spells : numeral.Spells text
  whole : numeral.whole = ['0'] ∨
    ∃ c rest, numeral.whole = c :: rest ∧ c ≠ '0'
  frac : numeral.frac.getLast? ≠ some '0'
  point : '.' ∈ text → numeral.frac ≠ []

end Numeral

/-! ## Digits of a number -/

theorem toDigits_digits (value : Nat) :
    ∀ c ∈ Nat.toDigits 10 value, c.isDigit = true :=
  fun _ => Nat.isDigit_of_mem_toDigits (by decide) (by decide)

/-- Only zero is written with a leading zero. -/
theorem toDigits_canonical (value : Nat) :
    Nat.toDigits 10 value = ['0'] ∨
      ∃ c rest, Nat.toDigits 10 value = c :: rest ∧ c ≠ '0' := by
  induction value using Nat.strongRecOn with
  | _ value induction =>
      by_cases small : value < 10
      · rw [Nat.toDigits_of_lt_base small]
        by_cases isZero : value = 0
        · left
          rw [isZero]
          rfl
        · exact .inr ⟨_, [], rfl, fun same =>
            isZero (Nat.digitChar_eq_zero.mp same)⟩
      · rw [Nat.toDigits_of_base_le (by decide) (Nat.le_of_not_lt small)]
        right
        rcases induction (value / 10) (by omega) with isZero |
          ⟨c, rest, digits, notZero⟩
        · have front := natValue_toDigits (value / 10)
          rw [isZero] at front
          have zero : natValue ['0'] = 0 := rfl
          omega
        · rw [digits]
          exact ⟨c, rest ++ [Nat.digitChar (value % 10)], rfl, notZero⟩

/-- The digits of a number, padded with zeros on the left. -/
def padded (width value : Nat) : List Char :=
  List.replicate (width - (Nat.toDigits 10 value).length) '0' ++
    Nat.toDigits 10 value

theorem natValue_padded (width value : Nat) :
    natValue (padded width value) = value := by
  rw [padded, natValue_append, natValue_replicate_zero, natValue_toDigits]
  omega

theorem length_padded {width value : Nat} (positive : 0 < width)
    (small : value < 10 ^ width) : (padded width value).length = width := by
  have fits : (Nat.toDigits 10 value).length ≤ width :=
    (Nat.length_toDigits_le_iff (by decide) positive).mpr small
  rw [padded, List.length_append, List.length_replicate]
  omega

theorem padded_digits (width value : Nat) :
    ∀ c ∈ padded width value, c.isDigit = true := by
  intro c member
  rcases List.mem_append.mp member with zero | digit
  · rw [List.eq_of_mem_replicate zero]
    rfl
  · exact toDigits_digits value c digit

/-! ## Trailing zeros -/

/-- The digits up to the last one that is not zero. -/
def trimmed (digits : List Char) : List Char :=
  digits.rdropWhile (· == '0')

theorem trimmed_front (digits : List Char) : trimmed digits <+: digits :=
  List.rdropWhile_prefix _ digits

theorem trimmed_append (digits : List Char) :
    ∃ count, digits = trimmed digits ++ List.replicate count '0' := by
  have zeros : ∀ c ∈ digits.rtakeWhile (· == '0'), c = '0' := by
    intro c member
    have isZero := List.mem_rtakeWhile_imp member
    exact eq_of_beq isZero
  have parts :=
    List.rdropWhile_append_rtakeWhile (p := (· == '0')) (l := digits)
  rw [List.eq_replicate_of_mem zeros] at parts
  exact ⟨_, parts.symm⟩

theorem natValue_trimmed (digits : List Char) :
    natValue (trimmed digits) *
        10 ^ (digits.length - (trimmed digits).length) = natValue digits := by
  obtain ⟨count, split⟩ := trimmed_append digits
  have lengths := congrArg List.length split
  rw [List.length_append, List.length_replicate] at lengths
  have difference : digits.length - (trimmed digits).length = count := by omega
  have values := congrArg natValue split
  rw [natValue_append, List.length_replicate, natValue_replicate_zero,
    Nat.add_zero] at values
  rw [difference, values, Nat.mul_comm]

theorem trimmed_getLast? (digits : List Char) :
    (trimmed digits).getLast? ≠ some '0' := by
  intro last
  have nonempty : trimmed digits ≠ [] := by
    intro empty
    rw [empty] at last
    cases last
  rw [List.getLast?_eq_some_getLast nonempty] at last
  exact List.rdropWhile_last_not (· == '0') digits nonempty
    (beq_of_eq (Option.some.inj last))

end Decimal
