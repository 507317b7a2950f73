import Floonet.Python.Text
import Floonet.Text

/-!
# Objects of strings as JSON

`json.dumps` of a dictionary of strings, and a reader of such objects.  The
text is printable ASCII whatever the strings are.  A string is read back as
its UTF-16 code units: a pair of surrogates and the character it stands for
have the same text.
-/

namespace Python

open Text

/-! ## Writing -/

/-- The UTF-16 code units of a code point; a lone surrogate is one. -/
def units (c : CodePoint) : List Nat :=
  if c.val < 0x10000 then [c.val]
  else [0xD800 + (c.val - 0x10000) / 0x400, 0xDC00 + (c.val - 0x10000) % 0x400]

/-- The text in code units. -/
def utf16 (s : Str) : List Nat := s.flatMap units

/-- `{:04x}` of a code unit. -/
def hex4 (unit : Nat) : List Char :=
  [hexDigit (unit / 4096 % 16), hexDigit (unit / 256 % 16),
    hexDigit (unit / 16 % 16), hexDigit (unit % 16)]

/-- The characters that have an escape of one letter. -/
def shortEscape : Nat → Option Char
  | 8 => some 'b'
  | 9 => some 't'
  | 10 => some 'n'
  | 12 => some 'f'
  | 13 => some 'r'
  | 34 => some '"'
  | 92 => some '\\'
  | _ => none

def isPrintable (code : Nat) : Bool := 0x20 ≤ code && code ≤ 0x7E

/-- A character within a string of `json.dumps`. -/
def escapeChar (c : CodePoint) : List Char :=
  match shortEscape c.val with
  | some letter => ['\\', letter]
  | none =>
      if isPrintable c.val then [Char.ofNat c.val]
      else (units c).flatMap fun unit => '\\' :: 'u' :: hex4 unit

def dumpsStr (s : Str) : List Char := '"' :: (s.flatMap escapeChar ++ ['"'])

def dumpsMember (member : Str × Str) : List Char :=
  dumpsStr member.1 ++ ':' :: ' ' :: dumpsStr member.2

/-- The members behind the opening brace. -/
def dumpsMembers : List (Str × Str) → List Char
  | [] => ['\x7d']
  | [member] => dumpsMember member ++ ['\x7d']
  | member :: members => dumpsMember member ++ ',' :: ' ' :: dumpsMembers members

/-- `json.dumps` of a dictionary of strings. -/
def dumps (members : List (Str × Str)) : List Char :=
  '\x7b' :: dumpsMembers members

/-! ## Reading -/

/-- The escapes of one letter. -/
def unescape : Char → Option Nat
  | '"' => some 34
  | '\\' => some 92
  | '/' => some 47
  | 'b' => some 8
  | 'f' => some 12
  | 'n' => some 10
  | 'r' => some 13
  | 't' => some 9
  | _ => none

def readHex4 (a b c d : Char) : Option Nat := do
  let a ← hexDigitValue a
  let b ← hexDigitValue b
  let c ← hexDigitValue c
  let d ← hexDigitValue d
  return ((a * 16 + b) * 16 + c) * 16 + d

/-- The code units of a string, read from behind its opening quote. -/
def readString : List Char → Option (List Nat × List Char)
  | [] => none
  | '"' :: text => some ([], text)
  | '\\' :: 'u' :: a :: b :: c :: d :: text => do
      let unit ← readHex4 a b c d
      let (more, text) ← readString text
      return (unit :: more, text)
  | '\\' :: letter :: text => do
      let unit ← unescape letter
      let (more, text) ← readString text
      return (unit :: more, text)
  | c :: text =>
      if c.toNat < 0x20 then none
      else do
        let (more, text) ← readString text
        return (units (ascii c) ++ more, text)

def isSpace (c : Char) : Bool := c == ' ' || c == '\t' || c == '\n' || c == '\r'

def skip (text : List Char) : List Char := text.dropWhile isSpace

/-- The rest behind a character that comes next. -/
def expect (c : Char) (text : List Char) : Option (List Char) :=
  match skip text with
  | d :: text => if c = d then some text else none
  | [] => none

/-- A member of an object, both parts as code units. -/
def readMember (text : List Char) :
    Option ((List Nat × List Nat) × List Char) := do
  let (key, text) ← readString (← expect '"' text)
  let text ← expect ':' text
  let (value, text) ← readString (← expect '"' text)
  return ((key, value), text)

/-- The members behind the opening brace, and what is behind the closing one. -/
def readMembers : Nat → List Char →
    Option (List (List Nat × List Nat) × List Char)
  | 0, _ => none
  | fuel + 1, text => do
      let (member, text) ← readMember text
      match expect ',' text with
      | some text => do
          let (members, text) ← readMembers fuel text
          return (member :: members, text)
      | none =>
          let text ← expect '\x7d' text
          return ([member], text)

/-- A text that is an object with members, all of which are strings. -/
def readObject (text : List Char) : Option (List (List Nat × List Nat)) := do
  let (members, rest) ← readMembers text.length (← expect '\x7b' text)
  if (skip rest).isEmpty then return members else none

/-! ## What is written is read back -/

theorem readHex4_hex4 {unit : Nat} (small : unit < 0x10000) :
    readHex4 (hexDigit (unit / 4096 % 16)) (hexDigit (unit / 256 % 16))
      (hexDigit (unit / 16 % 16)) (hexDigit (unit % 16)) = some unit := by
  have digit : ∀ n, hexDigitValue (hexDigit (n % 16)) = some (n % 16) :=
    fun n => hexDigitValue_hexDigit (Nat.mod_lt n (by decide))
  unfold readHex4
  rw [digit, digit, digit, digit]
  simp only [Option.bind_eq_bind, Option.bind_some]
  exact congrArg some (by omega)

/-- More code units in front of what is read. -/
def prepend (front : List Nat) (read : List Nat × List Char) :
    List Nat × List Char := (front ++ read.1, read.2)

theorem readString_unit {unit : Nat} (small : unit < 0x10000)
    (text : List Char) :
    readString ('\\' :: 'u' :: (hex4 unit ++ text)) =
      (readString text).map (prepend [unit]) := by
  unfold hex4
  rw [List.cons_append, List.cons_append, List.cons_append, List.cons_append,
    List.nil_append, readString, readHex4_hex4 small]
  cases readString text <;> rfl

theorem readString_escape {letter : Char} {unit : Nat}
    (known : unescape letter = some unit) (text : List Char) :
    readString ('\\' :: letter :: text) =
      (readString text).map (prepend [unit]) := by
  have notHex : letter ≠ 'u' := by
    rintro rfl
    cases known
  rw [readString, known]
  · cases readString text <;> rfl
  · intro a b c d rest isHex
    exact absurd isHex notHex

theorem readString_plain {c : Char} (visible : 0x20 ≤ c.toNat)
    (noQuote : c ≠ '"') (noEscape : c ≠ '\\') (text : List Char) :
    readString (c :: text) = (readString text).map (prepend (units (ascii c))) := by
  rw [readString, if_neg (by omega)]
  · cases readString text <;> rfl
  · exact noQuote
  · intro a b d e rest isEscape
    exact absurd isEscape noEscape
  · intro letter rest isEscape
    exact absurd isEscape noEscape

theorem shortEscape_known {code : Nat} {letter : Char}
    (escape : shortEscape code = some letter) :
    unescape letter = some code := by
  unfold shortEscape at escape
  split at escape <;> cases escape <;> rfl

theorem units_lt {c : CodePoint} {unit : Nat} (member : unit ∈ units c) :
    unit < 0x10000 := by
  have bound := c.isLt
  unfold units at member
  split at member
  · rw [List.mem_singleton.mp member]
    assumption
  · simp only [List.mem_cons, List.not_mem_nil, or_false] at member
    omega

theorem ascii_ofNat {c : CodePoint} (plain : c.val < 0xD800) :
    (Char.ofNat c.val).toNat = c.val ∧ ascii (Char.ofNat c.val) = c := by
  have isCode : (Char.ofNat c.val).toNat = c.val := by
    rw [Char.ofNat, dif_pos (.inl plain)]
    rfl
  refine ⟨isCode, ?_⟩
  unfold ascii
  rw [isCode, Fin.ofNat_val_eq_self]

theorem readString_escapes {codes : List Nat}
    (small : ∀ unit ∈ codes, unit < 0x10000) (text : List Char) :
    readString ((codes.flatMap fun unit => '\\' :: 'u' :: hex4 unit) ++ text) =
      (readString text).map (prepend codes) := by
  induction codes with
  | nil =>
      have same : prepend [] = id := rfl
      rw [List.flatMap_nil, List.nil_append, same, Option.map_id]
      rfl
  | cons unit codes induction =>
      rw [List.forall_mem_cons] at small
      rw [List.flatMap_cons, List.append_assoc, List.cons_append,
        List.cons_append, readString_unit small.1, induction small.2,
        Option.map_map]
      rfl

/-- What is written for a character is read as its code units. -/
theorem readString_escapeChar (c : CodePoint) (text : List Char) :
    readString (escapeChar c ++ text) =
      (readString text).map (prepend (units c)) := by
  unfold escapeChar
  cases escape : shortEscape c.val with
  | some letter =>
      have small : c.val < 0x10000 := by
        unfold shortEscape at escape
        split at escape <;> first | omega | cases escape
      have single : units c = [c.val] := if_pos small
      rw [single]
      exact readString_escape (shortEscape_known escape) text
  | none =>
      dsimp only
      split
      case isTrue printable =>
        simp only [isPrintable, Bool.and_eq_true, decide_eq_true_eq] at printable
        obtain ⟨isCode, same⟩ := ascii_ofNat (c := c) (by omega)
        rw [List.singleton_append, readString_plain, same]
        · omega
        · intro quote
          rw [quote] at isCode
          rw [← isCode] at escape
          cases escape
        · intro backslash
          rw [backslash] at isCode
          rw [← isCode] at escape
          cases escape
      case isFalse =>
        exact readString_escapes (fun _ member => units_lt member) text

theorem readString_dumpsStr (s : Str) (text : List Char) :
    readString (s.flatMap escapeChar ++ '"' :: text) =
      some (utf16 s, text) := by
  induction s with
  | nil => rfl
  | cons c s induction =>
      rw [List.flatMap_cons, List.append_assoc, readString_escapeChar, induction]
      rfl

theorem expect_next {c : Char} (solid : isSpace c = false) (text : List Char) :
    expect c (c :: text) = some text := by
  simp [expect, skip, solid]

theorem expect_space (c : Char) (text : List Char) :
    expect c (' ' :: text) = expect c text := rfl

theorem readMember_dumpsMember (member : Str × Str) (text : List Char) :
    readMember (dumpsMember member ++ text) =
      some ((utf16 member.1, utf16 member.2), text) := by
  have shape : dumpsMember member ++ text =
      '"' :: (member.1.flatMap escapeChar ++ '"' :: ':' :: ' ' :: '"' ::
        (member.2.flatMap escapeChar ++ '"' :: text)) := by
    simp [dumpsMember, dumpsStr]
  rw [shape]
  simp only [readMember, expect_next (c := '"') rfl, Option.bind_eq_bind,
    Option.bind_some, readString_dumpsStr, expect_next (c := ':') rfl,
    expect_space]
  rfl

theorem readMembers_space (fuel : Nat) (text : List Char) :
    readMembers fuel (' ' :: text) = readMembers fuel text := by
  cases fuel with
  | zero => rfl
  | succ fuel => rfl

theorem readMembers_dumpsMembers {fuel : Nat} {members : List (Str × Str)}
    (some_member : members ≠ []) (enough : members.length ≤ fuel) :
    readMembers fuel (dumpsMembers members) =
      some (members.map (Prod.map utf16 utf16), []) := by
  induction members generalizing fuel with
  | nil => exact absurd rfl some_member
  | cons member members induction =>
      obtain ⟨fuel, rfl⟩ : ∃ smaller, fuel = smaller + 1 :=
        Nat.exists_eq_succ_of_ne_zero (by
          rintro rfl
          cases enough)
      rw [List.length_cons, Nat.add_le_add_iff_right] at enough
      cases members with
      | nil =>
          rw [dumpsMembers, readMembers, readMember_dumpsMember]
          rfl
      | cons next members =>
          rw [dumpsMembers, readMembers, readMember_dumpsMember]
          · simp only [Option.bind_eq_bind, Option.bind_some,
              expect_next (c := ',') rfl, readMembers_space,
              induction (List.cons_ne_nil _ _) enough]
            rfl
          · exact List.cons_ne_nil _ _

theorem length_dumpsMembers (members : List (Str × Str)) :
    members.length ≤ (dumpsMembers members).length := by
  induction members with
  | nil => exact Nat.zero_le _
  | cons member members induction =>
      cases members with
      | nil => simp [dumpsMembers]
      | cons next members =>
          rw [dumpsMembers]
          · simp only [List.length_append, List.length_cons] at induction ⊢
            omega
          · exact List.cons_ne_nil _ _

/-- An object of strings is read back, up to pairs of surrogates. -/
theorem readObject_dumps {members : List (Str × Str)}
    (some_member : members ≠ []) : readObject (dumps members) =
      some (members.map (Prod.map utf16 utf16)) := by
  have enough : members.length ≤ (dumps members).length :=
    (length_dumpsMembers members).trans (Nat.le_succ _)
  rw [readObject, dumps, expect_next (c := '\x7b') rfl]
  simp only [Option.bind_eq_bind, Option.bind_some]
  rw [← dumps, readMembers_dumpsMembers some_member enough]
  rfl

/-! ## The text is printable -/

def Printable (text : List Char) : Prop :=
  ∀ c ∈ text, isPrintable c.toNat = true

theorem Printable.nil : Printable [] := List.forall_mem_nil _

theorem Printable.append {front back : List Char} (first : Printable front)
    (second : Printable back) : Printable (front ++ back) := by
  intro c member
  rcases List.mem_append.mp member with early | late
  · exact first c early
  · exact second c late

theorem Printable.cons {c : Char} {text : List Char}
    (first : isPrintable c.toNat = true) (rest : Printable text) :
    Printable (c :: text) :=
  List.forall_mem_cons.mpr ⟨first, rest⟩

theorem Printable.flatMap {Item : Type} {items : List Item}
    {write : Item → List Char} (each : ∀ item ∈ items, Printable (write item)) :
    Printable (items.flatMap write) := by
  intro c member
  obtain ⟨item, isItem, written⟩ := List.mem_flatMap.mp member
  exact each item isItem c written

theorem printable_hexDigit (value : Nat) :
    isPrintable (hexDigit (value % 16)).toNat = true := by
  have all : ∀ digit : Fin 16, isPrintable (hexDigit digit.val).toNat = true := by
    decide
  exact all ⟨value % 16, Nat.mod_lt value (by decide)⟩

theorem printable_escapeChar (c : CodePoint) : Printable (escapeChar c) := by
  unfold escapeChar
  cases escape : shortEscape c.val with
  | some letter =>
      refine .cons (by decide) (.cons ?_ .nil)
      unfold shortEscape at escape
      split at escape <;> cases escape <;> decide
  | none =>
      dsimp only
      split
      case isTrue printable =>
        refine .cons ?_ .nil
        have bounds := printable
        simp only [isPrintable, Bool.and_eq_true, decide_eq_true_eq] at bounds
        rwa [(ascii_ofNat (c := c) (by omega)).1]
      case isFalse =>
        refine .flatMap fun unit _ => .cons (by decide) (.cons (by decide) ?_)
        exact .cons (printable_hexDigit _) (.cons (printable_hexDigit _)
          (.cons (printable_hexDigit _) (.cons (printable_hexDigit _) .nil)))

theorem printable_dumpsStr (s : Str) : Printable (dumpsStr s) :=
  .cons (by decide) (.append (.flatMap fun c _ => printable_escapeChar c)
    (.cons (by decide) .nil))

theorem printable_dumpsMember (member : Str × Str) :
    Printable (dumpsMember member) :=
  .append (printable_dumpsStr member.1)
    (.cons (by decide) (.cons (by decide) (printable_dumpsStr member.2)))

theorem printable_dumps (members : List (Str × Str)) :
    Printable (dumps members) := by
  refine .cons (by decide) ?_
  induction members with
  | nil => exact .cons (by decide) .nil
  | cons member members induction =>
      cases members with
      | nil =>
          exact .append (printable_dumpsMember member)
            (.cons (by decide) .nil)
      | cons next members =>
          rw [dumpsMembers]
          · exact .append (printable_dumpsMember member)
              (.cons (by decide) (.cons (by decide) induction))
          · exact List.cons_ne_nil _ _

end Python
