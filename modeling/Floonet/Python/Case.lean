import Floonet.Python.Text

/-!
# Case mapping onto ASCII

A text whose lower case is ASCII has ASCII characters and signs for kelvin
only, and its lower case is that of the text with the letter K in place of
each sign.
-/

namespace Python

/-- The letter K in place of the sign for kelvin. -/
def readKelvin (c : CodePoint) : CodePoint :=
  if c = kelvin then ascii 'K' else c

theorem asciiLower_val (c : CodePoint) :
    (asciiLower c).val = if 65 ≤ c.val ∧ c.val ≤ 90 then c.val + 32 else c.val := by
  simp only [asciiLower, isAsciiUpper, Bool.and_eq_true, decide_eq_true_eq]
  split
  · rw [Fin.val_ofNat]
    omega
  · rfl

theorem asciiUpper_val (c : CodePoint) :
    (asciiUpper c).val = if 97 ≤ c.val ∧ c.val ≤ 122 then c.val - 32 else c.val := by
  simp only [asciiUpper, isAsciiLower, Bool.and_eq_true, decide_eq_true_eq]
  split
  · rw [Fin.val_ofNat]
    omega
  · rfl

theorem asciiUpper_asciiLower (c : CodePoint) :
    asciiUpper (asciiLower c) = asciiUpper c := by
  apply Fin.ext
  simp only [asciiUpper_val, asciiLower_val]
  grind

theorem asciiLower_asciiUpper {c : CodePoint} (notUpper : isAsciiUpper c = false) :
    asciiLower (asciiUpper c) = c := by
  apply Fin.ext
  simp only [isAsciiUpper, Bool.and_eq_false_iff, decide_eq_false_iff_not]
    at notUpper
  simp only [asciiUpper_val, asciiLower_val]
  grind

theorem asciiUpper_asciiUpper (c : CodePoint) :
    asciiUpper (asciiUpper c) = asciiUpper c := by
  apply Fin.ext
  simp only [asciiUpper_val]
  grind

/-- A text is in upper case if it is with the letter K. -/
theorem asciiUpper_readKelvin {c : CodePoint} :
    asciiUpper (readKelvin c) = readKelvin c ↔ asciiUpper c = c := by
  by_cases sign : c = kelvin
  · rw [sign]
    decide
  · rw [readKelvin, if_neg sign]

theorem map_eq_self_iff {f : CodePoint → CodePoint} {s : Str} :
    s.map f = s ↔ ∀ c ∈ s, f c = c := by
  simpa using List.map_inj_left (l := s) (f := f) (g := id)

def IsAscii (s : Str) : Prop := ∀ c ∈ s, c.val < 128

/-- Every character is ASCII or the sign for kelvin. -/
def KelvinOrAscii (s : Str) : Prop := ∀ c ∈ s, c.val < 128 ∨ c = kelvin

theorem IsAscii.kelvinOrAscii {s : Str} (isAscii : IsAscii s) :
    KelvinOrAscii s :=
  fun c member => .inl (isAscii c member)

theorem readKelvin_ascii {c : CodePoint} (small : c.val < 128) :
    readKelvin c = c := by
  apply if_neg
  rintro rfl
  exact absurd small (by decide)

theorem IsAscii.map_readKelvin {s : Str} (isAscii : IsAscii s) :
    s.map readKelvin = s :=
  map_eq_self_iff.mpr fun c member => readKelvin_ascii (isAscii c member)

namespace Unicode

variable (tables : Unicode)

theorem lower_eq {c : CodePoint} (known : c.val < 128 ∨ c = kelvin)
    (before after : Str) :
    tables.lower before c after = [asciiLower (readKelvin c)] := by
  rcases known with small | rfl
  · rw [readKelvin_ascii small, tables.lower_ascii before c after small]
  · rw [tables.lower_kelvin]
    decide

theorem lowerFrom_eq {s : Str} (known : KelvinOrAscii s) (before : Str) :
    tables.lowerFrom before s = s.map fun c => asciiLower (readKelvin c) := by
  induction s generalizing before with
  | nil => rfl
  | cons c s induction =>
      rw [lowerFrom, tables.lower_eq (known c List.mem_cons_self),
        induction fun d member => known d (List.mem_cons_of_mem c member)]
      rfl

theorem toLower_eq {s : Str} (known : KelvinOrAscii s) :
    tables.toLower s = (s.map readKelvin).map asciiLower := by
  rw [toLower, tables.lowerFrom_eq known, List.map_map]
  rfl

/-- Nothing but ASCII and the sign for kelvin is lowered to ASCII. -/
theorem lowerFrom_ascii {s before : Str}
    (isAscii : IsAscii (tables.lowerFrom before s)) : KelvinOrAscii s := by
  induction s generalizing before with
  | nil => nofun
  | cons c s induction =>
      intro d member
      rcases List.mem_cons.mp member with rfl | later
      · by_cases small : d.val < 128
        · exact .inl small
        · by_cases sign : d = kelvin
          · exact .inr sign
          · obtain ⟨e, isLower, large⟩ :=
              tables.lower_other before d s (Nat.le_of_not_lt small) sign
            have := isAscii e (List.mem_append_left _ isLower)
            omega
      · exact induction (fun e isLower =>
          isAscii e (List.mem_append_right _ isLower)) d later

theorem toLower_ascii {s : Str} (isAscii : IsAscii (tables.toLower s)) :
    KelvinOrAscii s :=
  tables.lowerFrom_ascii isAscii

theorem toLower_plain {s : Str}
    (plain : ∀ c ∈ s, c.val < 128 ∧ isAsciiUpper c = false) :
    tables.toLower s = s := by
  have isAscii : IsAscii s := fun c member => (plain c member).1
  rw [tables.toLower_eq isAscii.kelvinOrAscii, isAscii.map_readKelvin,
    map_eq_self_iff]
  intro c member
  rw [asciiLower, (plain c member).2]
  rfl

theorem toUpper_eq {s : Str} (known : KelvinOrAscii s) :
    tables.toUpper s = s.map asciiUpper := by
  induction s with
  | nil => rfl
  | cons c s induction =>
      have first : tables.upper c = [asciiUpper c] := by
        rcases known c List.mem_cons_self with small | rfl
        · exact tables.upper_ascii c small
        · rw [tables.upper_kelvin]
          decide
      rw [toUpper, List.flatMap_cons, first, List.map_cons,
        ← induction fun d member => known d (List.mem_cons_of_mem c member)]
      rfl

end Unicode

end Python
