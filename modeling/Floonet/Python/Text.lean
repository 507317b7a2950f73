import Mathlib.Algebra.Group.Int.Defs
import Mathlib.Algebra.Group.Nat.Defs
import Mathlib.Data.List.DropRight

/-!
# Text of the Python standard library

A `str` is a sequence of code points, lone surrogates included.  Case mapping
and the decimal digits outside ASCII come from the Unicode tables of the
interpreter, which are a parameter with the laws every version obeys.
-/

namespace Python

/-- A code point; a `str` may have surrogates. -/
abbrev CodePoint := Fin 0x110000

abbrev Str := List CodePoint

/-- The code point of a character. -/
def ascii (c : Char) : CodePoint := Fin.ofNat 0x110000 c.toNat

def str (text : String) : Str := text.toList.map ascii

/-! ## Whitespace and separators -/

/-- `str.isspace` of one code point. -/
def isspace (c : CodePoint) : Bool :=
  let n := c.val
  (9 ≤ n && n ≤ 13) || (0x1C ≤ n && n ≤ 0x20) || n == 0x85 || n == 0xA0 ||
    n == 0x1680 || (0x2000 ≤ n && n ≤ 0x200A) || n == 0x2028 || n == 0x2029 ||
    n == 0x202F || n == 0x205F || n == 0x3000

/-- The text without its trailing characters of a kind. -/
def rstripWhere (kind : CodePoint → Bool) (s : Str) : Str :=
  (s.reverse.dropWhile kind).reverse

/-- `str.strip()`. -/
def strip (s : Str) : Str := rstripWhere isspace (s.dropWhile isspace)

theorem strip_strip (s : Str) : strip (strip s) = strip s := by
  have front : (strip s).dropWhile isspace = strip s := by
    rw [List.dropWhile_eq_self_iff]
    intro nonempty
    have shorter : strip s <+: s.dropWhile isspace := List.rdropWhile_prefix _ _
    have first := List.dropWhile_get_zero_not isspace s
      (nonempty.trans_le shorter.length_le)
    rwa [shorter.getElem nonempty]
  unfold strip at *
  rw [front]
  exact List.rdropWhile_idempotent isspace _

/-- `str.split` on one character. -/
def split (separator : Char) (s : Str) : List Str := s.splitOn (ascii separator)

/-- `str.partition` on one character, without the separator. -/
def partition (separator : Char) (s : Str) : Str × Str :=
  (s.takeWhile (· != ascii separator),
    (s.dropWhile (· != ascii separator)).drop 1)

/-- `str.rfind` of one character. -/
def rfind (separator : Char) (s : Str) : Option Nat :=
  (s.reverse.idxOf? (ascii separator)).map fun index => s.length - 1 - index

/-- The first occurrence of a character. -/
theorem idxOf?_eq_some {c : CodePoint} {s : Str} {index : Nat} :
    s.idxOf? c = some index ↔ ∃ front back, s = front ++ c :: back ∧
      c ∉ front ∧ front.length = index := by
  rw [List.idxOf?_eq_some_iff]
  constructor
  · rintro ⟨within, here, before⟩
    refine ⟨s.take index, s.drop (index + 1), ?_, ?_, ?_⟩
    · rw [← here, ← List.drop_eq_getElem_cons within, List.take_append_drop]
    · intro member
      obtain ⟨place, bound, isHere⟩ := List.mem_take_iff_getElem.mp member
      exact before place (by omega) isHere
    · rw [List.length_take]
      omega
  · rintro ⟨front, back, rfl, absent, rfl⟩
    refine ⟨by simp, by simp, fun place bound isHere => absent ?_⟩
    rw [List.getElem_append_left bound] at isHere
    exact isHere ▸ List.getElem_mem bound

/-- The last occurrence of a character. -/
theorem rfind_eq_some {separator : Char} {s : Str} {pos : Nat} :
    rfind separator s = some pos ↔ ∃ front back,
      s = front ++ ascii separator :: back ∧ ascii separator ∉ back ∧
        front.length = pos := by
  simp only [rfind, Option.map_eq_some_iff, idxOf?_eq_some]
  constructor
  · rintro ⟨_, ⟨back, front, reversed, absent, rfl⟩, rfl⟩
    have isText : s = front.reverse ++ ascii separator :: back.reverse := by
      rw [← List.reverse_reverse s, reversed]
      simp
    refine ⟨front.reverse, back.reverse, isText, ?_, ?_⟩
    · rwa [List.mem_reverse]
    · rw [isText]
      simp
  · rintro ⟨front, back, rfl, absent, rfl⟩
    refine ⟨back.length, ⟨back.reverse, front.reverse, ?_, ?_, ?_⟩, ?_⟩
    · simp
    · rwa [List.mem_reverse]
    · simp
    · simp

/-- Universal newlines: how a file that is open in text mode is read. -/
def universalNewlines : Str → Str
  | [] => []
  | [c] => if c = ascii '\r' then [ascii '\n'] else [c]
  | c :: d :: rest =>
      if c = ascii '\r' then
        if d = ascii '\n' then universalNewlines (d :: rest)
        else ascii '\n' :: universalNewlines (d :: rest)
      else c :: universalNewlines (d :: rest)

/-! ## Case and digits -/

def isAsciiUpper (c : CodePoint) : Bool := 65 ≤ c.val && c.val ≤ 90

def isAsciiLower (c : CodePoint) : Bool := 97 ≤ c.val && c.val ≤ 122

def asciiLower (c : CodePoint) : CodePoint :=
  if isAsciiUpper c then Fin.ofNat 0x110000 (c.val + 32) else c

def asciiUpper (c : CodePoint) : CodePoint :=
  if isAsciiLower c then Fin.ofNat 0x110000 (c.val - 32) else c

/-- The sign for kelvin, whose lower case is the letter k. -/
def kelvin : CodePoint := 0x212A

/-- The Unicode tables.  The lower case of a character may depend on the text
around it, which is passed outwards from the character.  Of the characters
outside ASCII only the sign for kelvin has a lower case within ASCII. -/
structure Unicode where
  lower : Str → CodePoint → Str → Str
  upper : CodePoint → Str
  decimal : CodePoint → Option (Fin 10)
  lower_ascii : ∀ before c after, c.val < 128 →
    lower before c after = [asciiLower c]
  lower_kelvin : ∀ before after, lower before kelvin after = [ascii 'k']
  lower_other : ∀ before c after, 128 ≤ c.val → c ≠ kelvin →
    ∃ d ∈ lower before c after, 128 ≤ d.val
  upper_ascii : ∀ c, c.val < 128 → upper c = [asciiUpper c]
  upper_kelvin : upper kelvin = [kelvin]

/-- Tables that know ASCII and the sign for kelvin. -/
def Unicode.basic : Unicode where
  lower _ c _ := if c = kelvin then [ascii 'k'] else [asciiLower c]
  upper c := [asciiUpper c]
  decimal _ := none
  lower_ascii _ c _ small := by
    rw [if_neg]
    rintro rfl
    exact absurd small (by decide)
  lower_kelvin _ _ := if_pos rfl
  lower_other _ c _ large other := by
    refine ⟨c, ?_, large⟩
    have notUpper : isAsciiUpper c = false := by
      simp only [isAsciiUpper, Bool.and_eq_false_iff, decide_eq_false_iff_not]
      omega
    simp [other, asciiLower, notUpper]
  upper_ascii _ _ := rfl
  upper_kelvin := by decide

namespace Unicode

variable (tables : Unicode)

/-- The lower case of a text behind `before`, which is in reverse order. -/
def lowerFrom (before : Str) : Str → Str
  | [] => []
  | c :: after => tables.lower before c after ++ lowerFrom (c :: before) after

/-- `str.lower()`. -/
def toLower (s : Str) : Str := tables.lowerFrom [] s

/-- `str.upper()`. -/
def toUpper (s : Str) : Str := s.flatMap tables.upper

end Unicode

/-! ## Integers -/

/-- The characters `int` skips at both ends. -/
def isCSpace (c : CodePoint) : Bool := (9 ≤ c.val && c.val ≤ 13) || c.val == 32

/-- How `int` reads a character outside ASCII. -/
def Unicode.toAscii (tables : Unicode) (c : CodePoint) : CodePoint :=
  if c.val < 128 then c
  else if isspace c then ascii ' '
  else match tables.decimal c with
    | some digit => Fin.ofNat 0x110000 (48 + digit.val)
    | none => ascii '?'

/-- The value of a digit to a base up to 36. -/
def digitValue (c : CodePoint) : Option Nat :=
  if 48 ≤ c.val ∧ c.val ≤ 57 then some (c.val - 48)
  else if 97 ≤ c.val ∧ c.val ≤ 122 then some (c.val - 87)
  else if 65 ≤ c.val ∧ c.val ≤ 90 then some (c.val - 55)
  else none

/-- The digits at the front, with single underscores between them, and what
follows them.  The flag says that a digit has to come next. -/
def scanDigits (base : Nat) (required : Bool) (digits : List Nat) :
    Str → Option (List Nat × Str)
  | [] => if required then none else some (digits, [])
  | c :: rest =>
      if c = ascii '_' then
        if required then none else scanDigits base true digits rest
      else match (digitValue c).filter (· < base) with
        | some digit => scanDigits base false (digits ++ [digit]) rest
        | none => if required then none else some (digits, c :: rest)

/-- What follows the prefix of a hexadecimal number, if it has one. -/
def dropHexPrefix (s : Str) : Str :=
  match s with
  | zero :: x :: rest =>
      if zero = ascii '0' ∧ (x = ascii 'x' ∨ x = ascii 'X') then
        if rest.head? = some (ascii '_') then rest.drop 1 else rest
      else s
  | _ => s

/-- The most digits of a decimal number (`sys.get_int_max_str_digits`). -/
def maxStrDigits : Nat := 4300

/-- `int(s, base)` for the bases ten and sixteen. -/
def Unicode.int (tables : Unicode) (base : Nat) (s : Str) : Option Int :=
  let text := (s.map tables.toAscii).dropWhile isCSpace
  let signed := text.head? = some (ascii '+') ∨ text.head? = some (ascii '-')
  let unsigned := if signed then text.drop 1 else text
  let number := if base = 16 then dropHexPrefix unsigned else unsigned
  match scanDigits base true [] number with
  | none => none
  | some (digits, rest) =>
      if base = 10 ∧ maxStrDigits < digits.length then none
      else if rest.all isCSpace then
        let value := digits.foldl (fun value digit => base * value + digit) 0
        some (if text.head? = some (ascii '-') then -value else value)
      else none

example : Unicode.basic.int 10 (str " -1_059\n") = some (-1059) := by
  decide +kernel

/-! ## Dictionaries -/

/-- A `dict` with text keys, as far as lookups go. -/
abbrev Dict (Item : Type) := Str → Option Item

namespace Dict

variable {Item : Type}

def empty : Dict Item := fun _ => none

def set (items : Dict Item) (key : Str) (item : Item) : Dict Item :=
  fun other => if other = key then some item else items other

/-- `dict.update`. -/
def update (items new : Dict Item) : Dict Item :=
  fun key => (new key).or (items key)

@[simp] theorem set_self (items : Dict Item) (key : Str) (item : Item) :
    items.set key item key = some item := if_pos rfl

theorem set_other (items : Dict Item) {key other : Str} (item : Item)
    (different : other ≠ key) : items.set key item other = items other :=
  if_neg different

end Dict

end Python
