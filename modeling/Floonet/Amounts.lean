import Floonet.Config
import Floonet.Decimal
import Floonet.MachineInt

/-!
# Amounts in grin

The parser and the formatter of amounts.  The parser accepts exactly the
numerals with at most nine decimal places whose value in nanogrin fits 64 bits,
and no operation of it overflows; the formatter writes the shortest of them.
-/

namespace Floonet

open Decimal MachineInt Text

/-- `parse::<u64>`, with nothing for zero. -/
def parseDigits (digits : List Char) : Option Nat :=
  if digits.isEmpty then some 0 else parseU64 (String.ofList digits)

/-- `grin_to_nanogrin`; no result is a panic. -/
def grinToNanogrin (build : Build) (text : String) :
    Option (Except String UInt64) :=
  let s := trim text
  let bad := "invalid GRIN amount `" ++ s ++ "`"
  let parts := (splitOnce '.' s.toList).getD (s.toList, [])
  let whole := parts.1
  let frac := parts.2
  if whole.isEmpty && frac.isEmpty then some (.error bad)
  else if !whole.all isDigit || !frac.all isDigit then some (.error bad)
  else if 9 < frac.length then
    some (.error ("`" ++ s ++ "` has more than 9 decimal places"))
  else match parseDigits whole, parseDigits frac with
    | some wholeN, some fracN => do
        let exponent ← build.unchecked 32 (9 - (frac.length % 2 ^ 32 : Nat))
        let scale ← build.unchecked 64 (10 ^ exponent : Nat)
        let fracN ← build.unchecked 64 (fracN * scale : Nat)
        match (checkedU64 (wholeN * 1000000000)).bind fun n =>
            checkedU64 (n + fracN) with
        | some n => some (.ok (.ofNat n))
        | none => some (.error bad)
    | _, _ => some (.error bad)

theorem parseDigits_eq {digits : List Char}
    (allDigits : ∀ c ∈ digits, c.isDigit = true) :
    parseDigits digits = checkedU64 (natValue digits) := by
  cases digits with
  | nil => rfl
  | cons c rest =>
      have plain : ((c :: rest).all isDigit) = true := by
        rw [List.all_eq_true]
        intro d member
        rw [isDigit_eq]
        exact allDigits d member
      have value : digitsValue (c :: rest) = some (natValue (c :: rest)) := by
        rw [digitsValue, plain]
        rfl
      have unsigned : ∀ digits, c :: rest ≠ '+' :: digits := by
        intro digits same
        cases same
        have digit := allDigits '+' List.mem_cons_self
        exact absurd digit (by decide)
      rw [parseDigits, if_neg (by simp), parseU64_unsigned unsigned, value,
        Option.filter_some]
      simp only [decide_eq_true_eq]
      rfl

theorem parts_of_spells {numeral : Numeral} {text : List Char}
    (spells : numeral.Spells text) :
    (splitOnce '.' text).getD (text, []) = (numeral.whole, numeral.frac) := by
  cases spells with
  | integer noFrac =>
      have absent := splitOnce_eq_none.mpr
        (Numeral.point_notMem numeral.wholeDigits)
      rw [absent, noFrac]
      rfl
  | point =>
      have split : splitOnce '.' (numeral.whole ++ '.' :: numeral.frac) =
          some (numeral.whole, numeral.frac) :=
        splitOnce_eq_some.mpr
          ⟨rfl, Numeral.point_notMem numeral.wholeDigits⟩
      rw [split]
      rfl

theorem spells_of_parts {text whole frac : List Char}
    (split : (splitOnce '.' text).getD (text, []) = (whole, frac))
    (wholeDigits : ∀ c ∈ whole, c.isDigit = true)
    (fracDigits : ∀ c ∈ frac, c.isDigit = true)
    (nonempty : whole ≠ [] ∨ frac ≠ []) :
    Numeral.Spells ⟨whole, frac, wholeDigits, fracDigits, nonempty⟩ text := by
  cases found : splitOnce '.' text with
  | none =>
      rw [found] at split
      cases split
      exact .integer rfl
  | some parts =>
      rw [found] at split
      cases split
      obtain ⟨rfl, -⟩ := splitOnce_eq_some.mp found
      exact .point

theorem scaled_fraction (build : Build) {frac : List Char}
    (digits : ∀ c ∈ frac, c.isDigit = true) (places : frac.length ≤ 9) :
    build.unchecked 32 (9 - (frac.length % 2 ^ 32 : Nat)) =
        some (9 - frac.length) ∧
      build.unchecked 64 (10 ^ (9 - frac.length) : Nat) =
        some (10 ^ (9 - frac.length)) ∧
      build.unchecked 64
          (natValue frac * 10 ^ (9 - frac.length) : Nat) =
        some (natValue frac * 10 ^ (9 - frac.length)) := by
  have total : 10 ^ frac.length * 10 ^ (9 - frac.length) = 10 ^ 9 := by
    rw [← Nat.pow_add, Nat.add_sub_cancel' places]
  have scaleBound : 10 ^ (9 - frac.length) ≤ 10 ^ 9 :=
    Nat.pow_le_pow_right (by decide) (Nat.sub_le _ _)
  have fracBound : natValue frac * 10 ^ (9 - frac.length) ≤ 10 ^ 9 := by
    rw [← total]
    exact Nat.mul_le_mul_right _ (natValue_lt digits).le
  have range : 10 ^ 9 < 2 ^ 64 := by decide
  have exponent : (9 - (frac.length % 2 ^ 32 : Nat) : Int) =
      (9 - frac.length : Nat) := by omega
  rw [exponent]
  exact ⟨build.unchecked_of_lt (by omega),
    build.unchecked_of_lt (scaleBound.trans_lt range),
    build.unchecked_of_lt (fracBound.trans_lt range)⟩

theorem grinToNanogrin_of_spells (build : Build) {text : String}
    {numeral : Numeral} (spells : numeral.Spells (trim text).toList) :
    grinToNanogrin build text = some (
      if 9 < numeral.frac.length then
        .error ("`" ++ trim text ++ "` has more than 9 decimal places")
      else if numeral.scaled 9 < 2 ^ 64 then .ok (.ofNat (numeral.scaled 9))
      else .error ("invalid GRIN amount `" ++ trim text ++ "`")) := by
  have someDigit : (numeral.whole.isEmpty && numeral.frac.isEmpty) = false := by
    rcases numeral.nonempty with some | some <;> simp [some]
  have wholeDigits : numeral.whole.all isDigit = true :=
    List.all_eq_true.mpr fun c member =>
      (isDigit_eq c).trans (numeral.wholeDigits c member)
  have fracDigits : numeral.frac.all isDigit = true :=
    List.all_eq_true.mpr fun c member =>
      (isDigit_eq c).trans (numeral.fracDigits c member)
  unfold grinToNanogrin
  simp only [parts_of_spells spells, someDigit, wholeDigits, fracDigits,
    Bool.not_true, Bool.or_self, Bool.false_eq_true, if_false]
  by_cases long : 9 < numeral.frac.length
  · rw [if_pos long, if_pos long]
  rw [if_neg long, if_neg long]
  have places := Nat.le_of_not_lt long
  have fracBound : natValue numeral.frac < 2 ^ 64 := by
    have bound := natValue_lt numeral.fracDigits
    have wide : 10 ^ numeral.frac.length ≤ 10 ^ 9 :=
      Nat.pow_le_pow_right (by decide) places
    omega
  have scaled : numeral.scaled 9 = natValue numeral.whole * 1000000000 +
      natValue numeral.frac * 10 ^ (9 - numeral.frac.length) := rfl
  obtain ⟨exponent, scale, product⟩ :=
    scaled_fraction build numeral.fracDigits places
  have fracParsed : parseDigits numeral.frac = some (natValue numeral.frac) :=
    (parseDigits_eq numeral.fracDigits).trans (if_pos fracBound)
  rw [parseDigits_eq numeral.wholeDigits, fracParsed]
  by_cases wholeBound : natValue numeral.whole < 2 ^ 64
  · rw [checkedU64, if_pos wholeBound]
    dsimp only
    rw [exponent, Option.bind_eq_bind, Option.bind_some, scale,
      Option.bind_some, product, Option.bind_some, scaled]
    by_cases fits : natValue numeral.whole * 1000000000 +
        natValue numeral.frac * 10 ^ (9 - numeral.frac.length) < 2 ^ 64
    · have wholeFits : natValue numeral.whole * 1000000000 < 2 ^ 64 :=
        (Nat.le_add_right _ _).trans_lt fits
      rw [if_pos fits, checkedU64, if_pos wholeFits, Option.bind_some,
        checkedU64, if_pos fits]
    · rw [if_neg fits, checkedU64]
      split
      · rename_i n isSum
        rw [Option.bind_eq_some_iff] at isSum
        obtain ⟨product, isProduct, isSum⟩ := isSum
        split at isProduct
        · cases isProduct
          rw [checkedU64, if_neg fits] at isSum
          cases isSum
        · cases isProduct
      · rfl
  · have tooLarge : ¬natValue numeral.whole * 1000000000 +
        natValue numeral.frac * 10 ^ (9 - numeral.frac.length) < 2 ^ 64 := by
      intro fits
      have wholeFits := (Nat.le_add_right _ _).trans_lt fits
      omega
    rw [checkedU64, if_neg wholeBound, scaled, if_neg tooLarge]

theorem grinToNanogrin_of_not_spells (build : Build) {text : String}
    (unread : ∀ numeral : Numeral, ¬numeral.Spells (trim text).toList) :
    grinToNanogrin build text =
      some (.error ("invalid GRIN amount `" ++ trim text ++ "`")) := by
  cases split : (splitOnce '.' (trim text).toList).getD
      ((trim text).toList, []) with
  | mk whole frac =>
      unfold grinToNanogrin
      simp only [split]
      by_cases empty : (whole.isEmpty && frac.isEmpty) = true
      · rw [if_pos empty]
      rw [if_neg empty]
      by_cases stray : (!whole.all isDigit || !frac.all isDigit) = true
      · rw [if_pos stray]
      simp only [Bool.and_eq_true, List.isEmpty_iff, not_and_or] at empty
      simp only [Bool.or_eq_true, Bool.not_eq_true', not_or, Bool.not_eq_false,
        List.all_eq_true, isDigit_eq] at stray
      exact absurd (spells_of_parts split stray.1 stray.2 empty) (unread _)

/-! ## The formatter -/

/-- The numeral that an amount is written as. -/
def grinNumeral (nano : Nat) : Numeral where
  whole := Nat.toDigits 10 (nano / 1000000000)
  frac := trimmed (padded 9 (nano % 1000000000))
  wholeDigits := toDigits_digits _
  fracDigits c member :=
    padded_digits 9 _ c ((trimmed_front _).subset member)
  nonempty := .inl Nat.toDigits_ne_nil

theorem length_fraction (nano : Nat) :
    (padded 9 (nano % 1000000000)).length = 9 :=
  length_padded (by decide) (Nat.mod_lt _ (by decide))

theorem grinNumeral_places (nano : Nat) :
    (grinNumeral nano).frac.length ≤ 9 := by
  have shorter := (trimmed_front (padded 9 (nano % 1000000000))).length_le
  rw [length_fraction] at shorter
  exact shorter

theorem grinNumeral_scaled (nano : Nat) :
    (grinNumeral nano).scaled 9 = nano := by
  have fraction := natValue_trimmed (padded 9 (nano % 1000000000))
  rw [length_fraction, natValue_padded] at fraction
  have whole := natValue_toDigits (nano / 1000000000)
  calc
    (grinNumeral nano).scaled 9 =
        natValue (Nat.toDigits 10 (nano / 1000000000)) * 10 ^ 9 +
          natValue (trimmed (padded 9 (nano % 1000000000))) *
            10 ^ (9 - (trimmed (padded 9 (nano % 1000000000))).length) := rfl
    _ = nano / 1000000000 * 10 ^ 9 + nano % 1000000000 := by
      rw [whole, fraction]
    _ = nano := Nat.div_add_mod' nano 1000000000

theorem grinNumeral_frac {nano : Nat} :
    (grinNumeral nano).frac = [] ↔ nano % 1000000000 = 0 := by
  constructor
  · intro empty
    have fraction := natValue_trimmed (padded 9 (nano % 1000000000))
    have none : trimmed (padded 9 (nano % 1000000000)) = [] := empty
    rw [none, natValue_nil, Nat.zero_mul, natValue_padded] at fraction
    exact fraction.symm
  · intro isZero
    change trimmed (padded 9 (nano % 1000000000)) = []
    rw [isZero]
    decide

theorem toList_nanogrinToGrin (nano : Nat) :
    (nanogrinToGrin nano).toList =
      if nano % 1000000000 = 0 then (grinNumeral nano).whole
      else (grinNumeral nano).whole ++ '.' :: (grinNumeral nano).frac := by
  have digits : ∀ value : Nat,
      (toString value).toList = Nat.toDigits 10 value := by
    intro value
    rw [Nat.toString_eq_ofList_toDigits, String.toList_ofList]
  unfold nanogrinToGrin
  dsimp only
  split
  · exact digits _
  · have point : ".".toList = ['.'] := toList_eq rfl
    rw [String.toList_append, String.toList_append, digits, digits, point,
      String.toList_ofList, List.append_assoc]
    rfl

theorem grinNumeral_canonical (nano : Nat) :
    (grinNumeral nano).Canonical (nanogrinToGrin nano).toList := by
  have whole := toDigits_canonical (nano / 1000000000)
  have frac := trimmed_getLast? (padded 9 (nano % 1000000000))
  rw [toList_nanogrinToGrin]
  by_cases isZero : nano % 1000000000 = 0
  · have noPoint := Numeral.point_notMem (grinNumeral nano).wholeDigits
    rw [if_pos isZero]
    exact ⟨.integer (grinNumeral_frac.mpr isZero), whole, frac,
      fun member => absurd member noPoint⟩
  · rw [if_neg isZero]
    exact ⟨.point, whole, frac,
      fun _ empty => isZero (grinNumeral_frac.mp empty)⟩

theorem isWhitespace_numeral {numeral : Numeral} {text : List Char}
    (spells : numeral.Spells text) :
    ∀ c ∈ text, isWhitespace c = false := by
  have visible : ∀ c : Char, c.isDigit = true → isWhitespace c = false := by
    intro c digit
    rw [← isDigit_eq, isDigit, Bool.and_eq_true, decide_eq_true_iff,
      decide_eq_true_iff] at digit
    simp only [isWhitespace, Bool.or_eq_false_iff, Bool.and_eq_false_iff,
      decide_eq_false_iff_not, beq_eq_false_iff_ne]
    omega
  intro c member
  cases spells with
  | integer => exact visible c (numeral.wholeDigits c member)
  | point =>
      rcases List.mem_append.mp member with inWhole | inRest
      · exact visible c (numeral.wholeDigits c inWhole)
      · rcases List.mem_cons.mp inRest with rfl | inFrac
        · rfl
        · exact visible c (numeral.fracDigits c inFrac)

theorem grinToNanogrin_nanogrinToGrin (build : Build) (n : UInt64) :
    grinToNanogrin build (nanogrinToGrin n.toNat) = some (.ok n) := by
  have spells := (grinNumeral_canonical n.toNat).spells
  have untrimmed := trim_visible (isWhitespace_numeral spells)
  have read : (grinNumeral n.toNat).Spells
      (trim (nanogrinToGrin n.toNat)).toList := by
    rw [untrimmed]
    exact spells
  have places := grinNumeral_places n.toNat
  rw [grinToNanogrin_of_spells build read, if_neg (Nat.not_lt.mpr places),
    grinNumeral_scaled, if_pos n.toNat_lt, UInt64.ofNat_toNat]

/-- What the parser accepts and what it makes of it, in either build. -/
theorem grinToNanogrin_eq_ok (build : Build) {text : String} {n : UInt64} :
    grinToNanogrin build text = some (.ok n) ↔
      ∃ numeral : Numeral, numeral.Spells (trim text).toList ∧
        numeral.frac.length ≤ 9 ∧ (n.toNat : ℚ) = numeral.value * 10 ^ 9 := by
  constructor
  · intro accepted
    by_cases read : ∃ numeral : Numeral, numeral.Spells (trim text).toList
    · obtain ⟨numeral, spells⟩ := read
      rw [grinToNanogrin_of_spells build spells] at accepted
      split at accepted
      · cases accepted
      rename_i short
      have places := Nat.le_of_not_lt short
      split at accepted
      · rename_i fits
        cases accepted
        refine ⟨numeral, spells, places, ?_⟩
        rw [← Numeral.scaled_eq places, UInt64.toNat_ofNat_of_lt' fits]
      · cases accepted
    · rw [grinToNanogrin_of_not_spells build (not_exists.mp read)] at accepted
      cases accepted
  · rintro ⟨numeral, spells, places, value⟩
    rw [← Numeral.scaled_eq places, Nat.cast_inj] at value
    rw [grinToNanogrin_of_spells build spells, if_neg (Nat.not_lt.mpr places),
      ← value, if_pos n.toNat_lt, UInt64.ofNat_toNat]

/-- The parser accepts exactly the numerals with at most nine decimal places
whose value in nanogrin is a `u64`, it never overflows, and it reads back what
the formatter writes, which has no superfluous zero. -/
theorem grin_amounts :
    (∀ build text, ∀ n : UInt64,
      grinToNanogrin build text = some (.ok n) ↔
        ∃ numeral : Numeral, numeral.Spells (trim text).toList ∧
          numeral.frac.length ≤ 9 ∧
          (n.toNat : ℚ) = numeral.value * 10 ^ 9) ∧
    (∀ text, ∃ outcome, ∀ build,
      grinToNanogrin build text = some outcome) ∧
    ∀ build, ∀ n : UInt64,
      grinToNanogrin build (nanogrinToGrin n.toNat) = some (.ok n) ∧
        ∃ numeral : Numeral,
          numeral.Canonical (nanogrinToGrin n.toNat).toList := by
  refine ⟨fun build text n => grinToNanogrin_eq_ok build, fun text => ?_,
    fun build n => ⟨grinToNanogrin_nanogrinToGrin build n, _,
      grinNumeral_canonical n.toNat⟩⟩
  by_cases read : ∃ numeral : Numeral, numeral.Spells (trim text).toList
  · obtain ⟨numeral, spells⟩ := read
    exact ⟨_, fun build => grinToNanogrin_of_spells build spells⟩
  · exact ⟨_, fun build =>
      grinToNanogrin_of_not_spells build (not_exists.mp read)⟩

end Floonet
