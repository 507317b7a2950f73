import Mathlib.Algebra.Group.Int.Defs
import Mathlib.Algebra.Group.Nat.Defs

/-!
# Text of the Rust standard library

The string operations the server relies on, on the characters of a `String`:
case folding, trimming, the integer parsers and hexadecimal text.  Case
folding of non-ASCII text depends on the Unicode version of the toolchain, so
it is a table with the two laws every version obeys.
-/

namespace Text

/-- A text that is known by its characters need not be decoded. -/
theorem toList_eq {text : String} {chars : List Char}
    (isText : text = String.ofList chars) : text.toList = chars := by
  rw [isText, String.toList_ofList]

theorem isEmpty_eq_false {text : String} :
    text.isEmpty = false ↔ text ≠ "" := by
  rw [← Bool.not_eq_true, Ne, String.isEmpty_iff]

/-! ## Characters by code point -/

def isDigit (c : Char) : Bool :=
  48 ≤ c.toNat && c.toNat ≤ 57

def isAsciiLowercase (c : Char) : Bool :=
  97 ≤ c.toNat && c.toNat ≤ 122

def isAsciiUppercase (c : Char) : Bool :=
  65 ≤ c.toNat && c.toNat ≤ 90

theorem isDigit_eq (c : Char) : isDigit c = c.isDigit := by
  simp only [isDigit, Char.isDigit, Char.toNat, ge_iff_le,
    UInt32.le_iff_toNat_le]
  rfl

/-- `is_ascii_hexdigit`. -/
def isHexDigit (c : Char) : Bool :=
  isDigit c || (97 ≤ c.toNat && c.toNat ≤ 102) ||
    (65 ≤ c.toNat && c.toNat ≤ 70)

theorem toLower_toNat (c : Char) :
    c.toLower.toNat =
      if 65 ≤ c.toNat ∧ c.toNat ≤ 90 then c.toNat + 32 else c.toNat := by
  have range : (c.val ≥ 'A'.val ∧ c.val ≤ 'Z'.val) ↔
      65 ≤ c.toNat ∧ c.toNat ≤ 90 := by
    simp only [ge_iff_le, UInt32.le_iff_toNat_le]
    exact Iff.rfl
  unfold Char.toLower
  split
  · rename_i upper
    have bounds := range.mp upper
    rw [if_pos bounds]
    change (c.val + 32).toNat = c.val.toNat + 32
    rw [UInt32.toNat_add]
    have shift : (32 : UInt32).toNat = 32 := rfl
    have small : c.val.toNat ≤ 90 := bounds.2
    exact Nat.mod_eq_of_lt (by omega)
  · rename_i notUpper
    rw [if_neg fun bounds => notUpper (range.mpr bounds)]

theorem toLower_toLower (c : Char) : c.toLower.toLower = c.toLower := by
  apply Char.toNat_inj.mp
  rw [toLower_toNat]
  have folded := toLower_toNat c
  split at folded <;> split <;> omega

/-! ## Case folding -/

/-- The data behind `str::to_lowercase`.  The image of a character may depend
on the text around it, which is passed outwards from the character. -/
structure CaseTables where
  lower : List Char → Char → List Char → List Char
  lower_ascii : ∀ before c after, c.toNat < 128 →
    lower before c after = [c.toLower]
  lower_stable : ∀ before c after, ∀ d ∈ lower before c after,
    ∀ before' after', lower before' d after' = [d]

/-- Case tables that fold ASCII text only. -/
def CaseTables.ascii : CaseTables where
  lower _ c _ := [c.toLower]
  lower_ascii _ _ _ _ := rfl
  lower_stable := by
    intro _ c _ d member _ _
    rw [List.mem_singleton] at member
    subst member
    rw [toLower_toLower]

namespace CaseTables

variable (tables : CaseTables)

/-- The lower case of a text behind `before`, which is in reverse order. -/
def lowerFrom (before : List Char) : List Char → List Char
  | [] => []
  | c :: after => tables.lower before c after ++ lowerFrom (c :: before) after

/-- `str::to_lowercase`. -/
def toLowercase (text : String) : String :=
  String.ofList (tables.lowerFrom [] text.toList)

end CaseTables

/-! ## Trimming -/

/-- The characters with the Unicode property `White_Space`. -/
def isWhitespace (c : Char) : Bool :=
  let n := c.toNat
  (9 ≤ n && n ≤ 13) || n == 0x20 || n == 0x85 || n == 0xA0 || n == 0x1680 ||
    (0x2000 ≤ n && n ≤ 0x200A) || n == 0x2028 || n == 0x2029 || n == 0x202F ||
    n == 0x205F || n == 0x3000

/-- `str::trim`. -/
def trim (text : String) : String :=
  String.ofList
    ((text.toList.dropWhile isWhitespace).reverse.dropWhile
      isWhitespace).reverse

/-- No white space at either end. -/
structure Trimmed (chars : List Char) : Prop where
  first : ∀ c ∈ chars.head?, isWhitespace c = false
  last : ∀ c ∈ chars.getLast?, isWhitespace c = false

theorem dropWhile_of_head? {chars : List Char}
    (first : ∀ c ∈ chars.head?, isWhitespace c = false) :
    chars.dropWhile isWhitespace = chars := by
  cases chars with
  | nil => rfl
  | cons c chars =>
      rw [List.dropWhile_cons, first c rfl]
      rfl

theorem trim_of_trimmed {text : String} (trimmed : Trimmed text.toList) :
    trim text = text := by
  have reversed : ∀ c ∈ text.toList.reverse.head?, isWhitespace c = false := by
    rw [List.head?_reverse]
    exact trimmed.last
  rw [trim, dropWhile_of_head? trimmed.first, dropWhile_of_head? reversed,
    List.reverse_reverse, String.ofList_toList]

theorem trim_infix (text : String) :
    ∃ before after, text.toList = before ++ (trim text).toList ++ after := by
  let kept := text.toList.dropWhile isWhitespace
  have front : text.toList.takeWhile isWhitespace ++ kept = text.toList :=
    List.takeWhile_append_dropWhile
  have back : (kept.reverse.dropWhile isWhitespace).reverse ++
      (kept.reverse.takeWhile isWhitespace).reverse = kept := by
    rw [← List.reverse_append, List.takeWhile_append_dropWhile,
      List.reverse_reverse]
  refine ⟨text.toList.takeWhile isWhitespace,
    (kept.reverse.takeWhile isWhitespace).reverse, ?_⟩
  rw [trim, String.toList_ofList, List.append_assoc, back, front]

theorem dropWhile_head? (chars : List Char) :
    ∀ c ∈ (chars.dropWhile isWhitespace).head?, isWhitespace c = false := by
  intro c first
  have stops := List.head?_dropWhile_not isWhitespace chars
  rw [Option.mem_def.mp first] at stops
  exact stops

theorem trim_trimmed (text : String) : Trimmed (trim text).toList where
  first := by
    intro c first
    let kept := text.toList.dropWhile isWhitespace
    have isPrefix := List.reverse_prefix.mpr
      (List.dropWhile_suffix (l := kept.reverse) isWhitespace)
    rw [List.reverse_reverse] at isPrefix
    rw [trim, String.toList_ofList] at first
    obtain ⟨rest, same⟩ := isPrefix
    have firstKept : c ∈ kept.head? := by
      rw [← same, List.head?_append, Option.mem_def.mp first]
      rfl
    exact dropWhile_head? _ c firstKept
  last := by
    rw [trim, String.toList_ofList, List.getLast?_reverse]
    exact dropWhile_head? _

theorem Trimmed.of_visible {chars : List Char}
    (visible : ∀ c ∈ chars, isWhitespace c = false) : Trimmed chars where
  first c isFirst := visible c (List.mem_of_head? isFirst)
  last c isLast := visible c (List.mem_of_getLast? isLast)

theorem trim_visible {text : String}
    (visible : ∀ c ∈ text.toList, isWhitespace c = false) :
    trim text = text :=
  trim_of_trimmed (.of_visible visible)

theorem trim_of_chars {text : String} {chars : List Char}
    (isText : text = String.ofList chars)
    (visible : (chars.all fun c => !isWhitespace c) = true) :
    trim text = text := by
  refine trim_visible fun c member => ?_
  rw [toList_eq isText] at member
  exact Bool.not_eq_true' _ ▸ List.all_eq_true.mp visible c member

/-! ## Splitting -/

/-- `str::split_once` with a character. -/
def splitOnce (separator : Char) : List Char → Option (List Char × List Char)
  | [] => none
  | c :: rest =>
      if c = separator then some ([], rest)
      else (splitOnce separator rest).map fun parts => (c :: parts.1, parts.2)

theorem splitOnce_eq_none {separator : Char} {text : List Char} :
    splitOnce separator text = none ↔ separator ∉ text := by
  induction text with
  | nil => simp [splitOnce]
  | cons c rest induction =>
      rw [splitOnce]
      split
      · rename_i here
        simp [here]
      · rename_i elsewhere
        rw [Option.map_eq_none_iff, induction, List.mem_cons, not_or]
        exact ⟨fun later => ⟨Ne.symm elsewhere, later⟩, And.right⟩

theorem splitOnce_eq_some {separator : Char} {text before after : List Char} :
    splitOnce separator text = some (before, after) ↔
      text = before ++ separator :: after ∧ separator ∉ before := by
  induction text generalizing before with
  | nil => simp [splitOnce]
  | cons c rest induction =>
      rw [splitOnce]
      split
      · rename_i here
        subst here
        constructor
        · intro same
          cases same
          exact ⟨rfl, List.not_mem_nil⟩
        · rintro ⟨same, absent⟩
          cases before with
          | nil =>
              cases same
              rfl
          | cons d before =>
              cases same
              exact absurd List.mem_cons_self absent
      · rename_i elsewhere
        rw [Option.map_eq_some_iff]
        constructor
        · rintro ⟨⟨found, _⟩, isSplit, same⟩
          cases same
          obtain ⟨rfl, absent⟩ := induction.mp isSplit
          refine ⟨rfl, fun member => ?_⟩
          rcases List.mem_cons.mp member with here | later
          · exact elsewhere here.symm
          · exact absent later
        · rintro ⟨same, absent⟩
          cases before with
          | nil =>
              cases same
              exact absurd rfl elsewhere
          | cons d before =>
              cases same
              exact ⟨(before, after), induction.mpr ⟨rfl, fun member =>
                absent (List.mem_cons_of_mem _ member)⟩, rfl⟩

/-! ## Integer parsers -/

/-- The value of a non-empty string of decimal digits. -/
def digitsValue (digits : List Char) : Option Nat :=
  if digits.isEmpty || !digits.all isDigit then none
  else some (digits.foldl (fun value c => 10 * value + (c.toNat - 48)) 0)

/-- `str::parse::<u64>`, failures without their reason. -/
def parseU64 (text : String) : Option Nat :=
  let digits := match text.toList with
    | '+' :: digits => digits
    | digits => digits
  (digitsValue digits).filter fun value => decide (value < 2 ^ 64)

theorem parseU64_unsigned {digits : List Char}
    (unsigned : ∀ rest, digits ≠ '+' :: rest) :
    parseU64 (String.ofList digits) =
      (digitsValue digits).filter fun value => decide (value < 2 ^ 64) := by
  unfold parseU64
  rw [String.toList_ofList]
  dsimp only
  split
  · rename_i rest
    exact absurd rfl (unsigned rest)
  · rfl

/-- `str::parse::<i64>`, failures without their reason. -/
def parseI64 (text : String) : Option Int :=
  let value : Option Int := match text.toList with
    | '-' :: digits => (digitsValue digits).map fun value => -(value : Int)
    | '+' :: digits => (digitsValue digits).map Int.ofNat
    | digits => (digitsValue digits).map Int.ofNat
  value.filter fun value => decide (-2 ^ 63 ≤ value ∧ value < 2 ^ 63)

/-! ## Hexadecimal text -/

/-- The value of a hexadecimal digit in either case. -/
def hexDigitValue (c : Char) : Option Nat :=
  if 48 ≤ c.toNat ∧ c.toNat ≤ 57 then some (c.toNat - 48)
  else if 97 ≤ c.toNat ∧ c.toNat ≤ 102 then some (c.toNat - 87)
  else if 65 ≤ c.toNat ∧ c.toNat ≤ 70 then some (c.toNat - 55)
  else none

/-- The lower-case digit of a value below sixteen. -/
def hexDigit (value : Nat) : Char :=
  if value < 10 then Char.ofNat (48 + value) else Char.ofNat (87 + value)

/-- Digits in pairs; an odd number of digits is refused. -/
def hexDecodeChars : List Char → Option (List UInt8)
  | [] => some []
  | [_] => none
  | high :: low :: rest =>
      match hexDigitValue high, hexDigitValue low, hexDecodeChars rest with
      | some highValue, some lowValue, some bytes =>
          some (UInt8.ofNat (16 * highValue + lowValue) :: bytes)
      | _, _, _ => none

/-- `hex::decode`, failures without their reason. -/
def hexDecode (text : String) : Option (List UInt8) :=
  hexDecodeChars text.toList

theorem hexDecode_eq {text : String} {chars : List Char}
    (isText : text = String.ofList chars) :
    hexDecode text = hexDecodeChars chars := by
  rw [hexDecode, toList_eq isText]

def hexEncodeChars : List UInt8 → List Char
  | [] => []
  | byte :: bytes =>
      hexDigit (byte.toNat / 16) :: hexDigit (byte.toNat % 16) ::
        hexEncodeChars bytes

/-- `hex::encode`. -/
def hexEncode (bytes : List UInt8) : String :=
  String.ofList (hexEncodeChars bytes)

theorem hexDigitValue_hexDigit {value : Nat} (small : value < 16) :
    hexDigitValue (hexDigit value) = some value := by
  have digits : ∀ digit : Fin 16,
      hexDigitValue (hexDigit digit.val) = some digit.val := by
    decide
  exact digits ⟨value, small⟩

theorem toLower_hexDigit {value : Nat} (small : value < 16) :
    (hexDigit value).toLower = hexDigit value := by
  have digits : ∀ digit : Fin 16,
      (hexDigit digit.val).toLower = hexDigit digit.val := by
    decide
  exact digits ⟨value, small⟩

theorem hexDecodeChars_hexEncodeChars (bytes : List UInt8) :
    hexDecodeChars (hexEncodeChars bytes) = some bytes := by
  induction bytes with
  | nil => rfl
  | cons byte bytes induction =>
      have bound := byte.toNat_lt
      rw [hexEncodeChars, hexDecodeChars, hexDigitValue_hexDigit (by omega),
        hexDigitValue_hexDigit (by omega), induction]
      simp only [Nat.div_add_mod, UInt8.ofNat_toNat]

theorem hexEncode_injective {left right : List UInt8}
    (same : hexEncode left = hexEncode right) : left = right := by
  have chars := congrArg String.toList same
  simp only [hexEncode, String.toList_ofList] at chars
  have decoded := congrArg hexDecodeChars chars
  simpa only [hexDecodeChars_hexEncodeChars, Option.some.injEq] using decoded

theorem length_hexEncodeChars (bytes : List UInt8) :
    (hexEncodeChars bytes).length = 2 * bytes.length := by
  induction bytes with
  | nil => rfl
  | cons byte bytes induction =>
      rw [hexEncodeChars, List.length_cons, List.length_cons, induction,
        List.length_cons]
      omega

theorem mem_hexEncodeChars {bytes : List UInt8} {c : Char}
    (member : c ∈ hexEncodeChars bytes) :
    ∃ digit : Fin 16, c = hexDigit digit.val := by
  induction bytes with
  | nil => cases member
  | cons byte bytes induction =>
      have bound := byte.toNat_lt
      rw [hexEncodeChars, List.mem_cons, List.mem_cons] at member
      rcases member with high | low | rest
      · exact ⟨⟨byte.toNat / 16, by omega⟩, high⟩
      · exact ⟨⟨byte.toNat % 16, by omega⟩, low⟩
      · exact induction rest

theorem toLower_hexEncodeChars (bytes : List UInt8) :
    (hexEncodeChars bytes).map Char.toLower = hexEncodeChars bytes := by
  induction bytes with
  | nil => rfl
  | cons byte bytes induction =>
      have bound := byte.toNat_lt
      simp only [hexEncodeChars, List.map_cons, induction]
      rw [toLower_hexDigit (by omega), toLower_hexDigit (by omega)]

theorem toLower_hexEncode (bytes : List UInt8) :
    (hexEncode bytes).toList.map Char.toLower = (hexEncode bytes).toList := by
  rw [hexEncode, String.toList_ofList, toLower_hexEncodeChars]

theorem hexDigit_hexDigitValue {c : Char} {value : Nat}
    (decoded : hexDigitValue c = some value)
    (notUpper : isAsciiUppercase c = false) :
    value < 16 ∧ hexDigit value = c := by
  simp only [isAsciiUppercase, Bool.and_eq_false_iff,
    decide_eq_false_iff_not] at notUpper
  unfold hexDigitValue at decoded
  split at decoded
  · rename_i digit
    cases decoded
    refine ⟨by omega, ?_⟩
    rw [hexDigit, if_pos (by omega),
      show 48 + (c.toNat - 48) = c.toNat by omega]
    exact Char.ofNat_toNat c
  · split at decoded
    · rename_i notDigit letter
      cases decoded
      refine ⟨by omega, ?_⟩
      rw [hexDigit, if_neg (by omega),
        show 87 + (c.toNat - 87) = c.toNat by omega]
      exact Char.ofNat_toNat c
    · split at decoded
      · rename_i notDigit notLower letter
        omega
      · cases decoded

theorem hexEncodeChars_hexDecodeChars : ∀ (chars : List Char)
    {bytes : List UInt8}, hexDecodeChars chars = some bytes →
    (∀ c ∈ chars, isAsciiUppercase c = false) →
    hexEncodeChars bytes = chars
  | [], bytes, decoded, _ => by
      cases decoded
      rfl
  | [_], _, decoded, _ => nomatch decoded
  | high :: low :: rest, bytes, decoded, notUpper => by
      rw [hexDecodeChars] at decoded
      split at decoded
      · rename_i highValue lowValue tail highDecoded lowDecoded restDecoded
        cases decoded
        obtain ⟨highSmall, highSame⟩ :=
          hexDigit_hexDigitValue highDecoded (notUpper high (by simp))
        obtain ⟨lowSmall, lowSame⟩ :=
          hexDigit_hexDigitValue lowDecoded (notUpper low (by simp))
        have tailSame := hexEncodeChars_hexDecodeChars rest restDecoded
          fun c member => notUpper c (by simp [member])
        have byte : (UInt8.ofNat (16 * highValue + lowValue)).toNat =
            16 * highValue + lowValue := by
          rw [UInt8.toNat_ofNat']
          omega
        rw [hexEncodeChars, byte, tailSame,
          show (16 * highValue + lowValue) / 16 = highValue by omega,
          show (16 * highValue + lowValue) % 16 = lowValue by omega,
          highSame, lowSame]
      · cases decoded

theorem hexDigitValue_isSome {c : Char} (digit : isHexDigit c = true) :
    ∃ value, hexDigitValue c = some value := by
  simp only [isHexDigit, isDigit, Bool.or_eq_true, Bool.and_eq_true,
    decide_eq_true_iff] at digit
  unfold hexDigitValue
  split
  · exact ⟨_, rfl⟩
  · split
    · exact ⟨_, rfl⟩
    · rw [if_pos (by omega)]
      exact ⟨_, rfl⟩

theorem hexDecodeChars_isSome : ∀ (count : Nat) (chars : List Char),
    chars.length = 2 * count → (∀ c ∈ chars, isHexDigit c = true) →
    ∃ bytes, hexDecodeChars chars = some bytes ∧ bytes.length = count
  | 0, [], _, _ => ⟨[], rfl, rfl⟩
  | count + 1, high :: low :: rest, length, digits => by
      obtain ⟨highValue, highDecoded⟩ :=
        hexDigitValue_isSome (digits high (by simp))
      obtain ⟨lowValue, lowDecoded⟩ :=
        hexDigitValue_isSome (digits low (by simp))
      obtain ⟨bytes, restDecoded, restLength⟩ :=
        hexDecodeChars_isSome count rest (by simp at length; omega)
          fun c member => digits c (by simp [member])
      refine ⟨UInt8.ofNat (16 * highValue + lowValue) :: bytes, ?_, ?_⟩
      · rw [hexDecodeChars, highDecoded, lowDecoded, restDecoded]
      · rw [List.length_cons, restLength]
  | count + 1, [_], length, _ => by
      simp at length
      omega

/-- Hexadecimal text without upper-case letters is canonical: it is the
encoding of the bytes it denotes. -/
theorem hexEncode_hexDecode {text : String} {bytes : List UInt8}
    (decoded : hexDecode text = some bytes)
    (notUpper : ∀ c ∈ text.toList, isAsciiUppercase c = false) :
    hexEncode bytes = text := by
  rw [hexEncode, hexEncodeChars_hexDecodeChars _ decoded notUpper]
  exact String.ofList_toList

namespace CaseTables

variable {tables : CaseTables}

theorem lowerFrom_notUpper {before chars : List Char} {c : Char}
    (member : c ∈ tables.lowerFrom before chars) :
    isAsciiUppercase c = false := by
  induction chars generalizing before with
  | nil => cases member
  | cons head after induction =>
      rw [lowerFrom, List.mem_append] at member
      rcases member with here | later
      · have stable := tables.lower_stable _ _ _ c here [] []
        by_cases ascii : c.toNat < 128
        · rw [tables.lower_ascii _ _ _ ascii, List.cons.injEq] at stable
          have folded := toLower_toNat c
          rw [stable.1] at folded
          simp only [isAsciiUppercase, Bool.and_eq_false_iff,
            decide_eq_false_iff_not]
          split at folded <;> omega
        · simp only [isAsciiUppercase, Bool.and_eq_false_iff,
            decide_eq_false_iff_not]
          omega
      · exact induction later

theorem toLowercase_notUpper {text : String} {c : Char}
    (member : c ∈ (tables.toLowercase text).toList) :
    isAsciiUppercase c = false := by
  rw [toLowercase, String.toList_ofList] at member
  exact lowerFrom_notUpper member

end CaseTables

end Text
