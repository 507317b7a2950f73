import Floonet.Lines
import Mathlib.Data.List.Basic

/-!
# Env files

The parser of env files and the process environment they are loaded into.  An
assignment of a trimmed line is read back as that line, less one layer of
quotes.
-/

namespace Floonet

open Text

/-! ## The parser -/

/-- The value has one layer of matching quotes.  A quote is one byte, so the
ends are compared as characters. -/
def isQuoted (v : String) : Bool :=
  let chars := v.toList
  let endsWith (quote : Char) : Bool :=
    chars.head? == some quote && chars.getLast? == some quote
  decide (2 ≤ chars.length) && (endsWith '"' || endsWith '\'')

/-- One layer of quotes is taken off. -/
def unquote (v : String) : String :=
  if isQuoted v then .ofList v.toList.tail.dropLast else v

theorem isQuoted_iff {v : String} :
    isQuoted v = true ↔ ∃ quote inner, (quote = '"' ∨ quote = '\'') ∧
      v.toList = quote :: (inner ++ [quote]) := by
  simp only [isQuoted, Bool.and_eq_true, Bool.or_eq_true, decide_eq_true_iff,
    beq_iff_eq]
  constructor
  · rintro ⟨long, ends⟩
    obtain ⟨quote, isQuote, first, last⟩ : ∃ quote,
        (quote = '"' ∨ quote = '\'') ∧ v.toList.head? = some quote ∧
          v.toList.getLast? = some quote := by
      rcases ends with ends | ends
      · exact ⟨_, .inl rfl, ends⟩
      · exact ⟨_, .inr rfl, ends⟩
    refine ⟨quote, ?_⟩
    cases chars : v.toList with
    | nil =>
        rw [chars] at first
        cases first
    | cons c rest =>
        rw [chars] at first last long
        cases first
        cases rest with
        | nil =>
            rw [List.length_singleton] at long
            omega
        | cons d rest =>
            rw [List.getLast?_cons_cons, List.getLast?_eq_some_iff] at last
            obtain ⟨inner, isInner⟩ := last
            exact ⟨inner, isQuote, congrArg _ isInner⟩
  · rintro ⟨quote, inner, isQuote, chars⟩
    have last : (quote :: (inner ++ [quote])).getLast? = some quote := by
      rw [← List.cons_append, List.getLast?_concat]
    have long : 2 ≤ (quote :: (inner ++ [quote])).length := by
      rw [List.length_cons, List.length_append, List.length_singleton]
      omega
    rw [chars]
    rcases isQuote with rfl | rfl
    · exact ⟨long, .inl ⟨rfl, last⟩⟩
    · exact ⟨long, .inr ⟨rfl, last⟩⟩

theorem unquote_eq {v : String} {quote : Char} {inner : List Char}
    (isQuote : quote = '"' ∨ quote = '\'')
    (chars : v.toList = quote :: (inner ++ [quote])) :
    unquote v = String.ofList inner := by
  have quoted := isQuoted_iff.mpr ⟨quote, inner, isQuote, chars⟩
  rw [unquote, if_pos quoted, chars, List.tail_cons, List.dropLast_concat]

theorem unquote_of_head? {v : String} {c : Char}
    (first : v.toList.head? = some c) (other : c ≠ '"' ∧ c ≠ '\'') :
    unquote v = v := by
  rw [unquote, if_neg]
  intro quoted
  obtain ⟨quote, inner, isQuote, chars⟩ := isQuoted_iff.mp quoted
  rw [chars] at first
  cases first
  exact isQuote.elim other.1 other.2

theorem unquote_eq_self_iff {v : String} :
    unquote v = v ↔ isQuoted v = false := by
  constructor
  · intro same
    rw [← Bool.not_eq_true]
    intro quoted
    obtain ⟨quote, inner, isQuote, chars⟩ := isQuoted_iff.mp quoted
    rw [unquote_eq isQuote chars] at same
    have lengths := congrArg List.length (congrArg String.toList same)
    rw [chars, String.toList_ofList, List.length_cons, List.length_append,
      List.length_singleton] at lengths
    omega
  · intro bare
    rw [unquote, bare]
    rfl

/-- `strip_prefix`, or the line itself. -/
def withoutPrefix (front line : List Char) : List Char :=
  if front.isPrefixOf line then line.drop front.length else line

/-- The assignment on a line, if there is one. -/
def parseEnvLine (raw : List Char) : Option (String × String) := do
  let line := (trim (.ofList raw)).toList
  if line.isEmpty || line.head? == some '#' then none
  else
    let (key, value) ← splitOnce '=' (withoutPrefix "export ".toList line)
    let key := trim (.ofList key)
    if key.isEmpty then none
    else return (key, unquote (trim (.ofList value)))

/-- The assignments of an env file. -/
def parseEnvFile (text : String) : List (String × String) :=
  (lines text.toList).filterMap parseEnvLine

/-! ## Assignments -/

/-- A line of an env file. -/
def assignment (key value : String) : String := key ++ "=" ++ value ++ "\n"

/-- A value that fits a line and is not changed by trimming. -/
structure OneLine (value : String) : Prop where
  trimmed : Trimmed value.toList
  noFeed : '\n' ∉ value.toList

theorem OneLine.of_visible {value : String}
    (visible : ∀ c ∈ value.toList, isWhitespace c = false) : OneLine value where
  trimmed := .of_visible visible
  noFeed := fun member => by cases visible _ member

theorem oneLine_empty : OneLine "" :=
  .of_visible fun _ member => (List.not_mem_nil member).elim

theorem OneLine.append {front back : String} (first : OneLine front)
    (last : OneLine back) : OneLine (front ++ back) := by
  refine ⟨⟨fun c isFirst => ?_, fun c isLast => ?_⟩, fun member => ?_⟩
  · rw [String.toList_append, List.head?_append] at isFirst
    rcases Option.or_eq_some_iff.mp isFirst with here | ⟨-, here⟩
    · exact first.trimmed.first c here
    · exact last.trimmed.first c here
  · rw [String.toList_append, List.getLast?_append] at isLast
    rcases Option.or_eq_some_iff.mp isLast with here | ⟨-, here⟩
    · exact last.trimmed.last c here
    · exact first.trimmed.last c here
  · rw [String.toList_append] at member
    rcases List.mem_append.mp member with here | here
    · exact first.noFeed here
    · exact last.noFeed here

/-- The letters of the keys. -/
def isKeyChar (c : Char) : Bool := isAsciiUppercase c || c == '_'

def isKey (key : String) : Bool := !key.isEmpty && key.toList.all isKeyChar

theorem isKeyChar_visible {c : Char} (isChar : isKeyChar c = true) :
    isWhitespace c = false := by
  rw [isKeyChar, Bool.or_eq_true, beq_iff_eq] at isChar
  rcases isChar with upper | rfl
  · simp only [isAsciiUppercase, Bool.and_eq_true, decide_eq_true_iff] at upper
    simp only [isWhitespace, Bool.or_eq_false_iff, Bool.and_eq_false_iff,
      decide_eq_false_iff_not, beq_eq_false_iff_ne]
    omega
  · rfl

theorem isKey_iff {key : String} :
    isKey key = true ↔ key ≠ "" ∧ ∀ c ∈ key.toList, isKeyChar c = true := by
  rw [isKey, Bool.and_eq_true, Bool.not_eq_true', isEmpty_eq_false,
    List.all_eq_true]

theorem isKey_of_chars {key : String} {chars : List Char}
    (isText : key = String.ofList chars)
    (letters : (!chars.isEmpty && chars.all isKeyChar) = true) :
    isKey key = true := by
  rw [Bool.and_eq_true, List.all_eq_true, ← toList_eq isText] at letters
  refine isKey_iff.mpr ⟨?_, letters.2⟩
  rintro rfl
  cases letters.1

theorem key_absent {key : String} (named : isKey key = true) {c : Char}
    (other : isKeyChar c = false) : c ∉ key.toList := by
  intro member
  rw [(isKey_iff.mp named).2 c member] at other
  cases other

/-- A key is in front of the line. -/
theorem key_first {key : String} (named : isKey key = true)
    (rest : List Char) : ∃ first chars,
      key.toList ++ rest = first :: chars ∧ isKeyChar first = true := by
  obtain ⟨nonempty, letters⟩ := isKey_iff.mp named
  cases isKey : key.toList with
  | nil => exact absurd (String.toList_eq_nil_iff.mp isKey) nonempty
  | cons first chars =>
      rw [isKey] at letters
      exact ⟨first, _, rfl, letters first List.mem_cons_self⟩

/-- The characters of an assignment. -/
def assignmentChars (key value : String) : List Char :=
  key.toList ++ '=' :: value.toList

theorem assignment_oneLine {key value : String} (named : isKey key = true)
    (one : OneLine value) :
    OneLine (String.ofList (assignmentChars key value)) := by
  constructor
  · rw [String.toList_ofList]
    constructor
    · intro c isFirst
      obtain ⟨first, chars, isLine, letter⟩ :=
        key_first named ('=' :: value.toList)
      rw [assignmentChars, isLine] at isFirst
      cases isFirst
      exact isKeyChar_visible letter
    · intro c isLast
      rw [assignmentChars, List.getLast?_append_cons] at isLast
      cases isValue : value.toList with
      | nil =>
          rw [isValue] at isLast
          cases isLast
          rfl
      | cons d chars =>
          rw [isValue, List.getLast?_cons_cons, ← isValue] at isLast
          exact one.trimmed.last c isLast
  · rw [String.toList_ofList]
    intro member
    rcases List.mem_append.mp member with inKey | inValue
    · exact key_absent named (by decide) inKey
    · rcases List.mem_cons.mp inValue with same | inValue
      · cases same
      · exact one.noFeed inValue

theorem parseEnvLine_assignment {key value : String} (named : isKey key = true)
    (one : OneLine value) :
    parseEnvLine (assignmentChars key value) = some (key, unquote value) := by
  have isLine := congrArg String.toList
    (trim_of_trimmed (assignment_oneLine named one).trimmed)
  rw [String.toList_ofList] at isLine
  obtain ⟨first, chars, split, letter⟩ := key_first named ('=' :: value.toList)
  have read : ((assignmentChars key value).isEmpty ||
      (assignmentChars key value).head? == some '#') = false := by
    have noComment : first ≠ '#' := by
      rintro rfl
      cases letter
    rw [assignmentChars, split, List.isEmpty_cons, Bool.false_or,
      List.head?_cons]
    exact beq_false_of_ne fun same => noComment (Option.some.inj same)
  have noExport : withoutPrefix "export ".toList (assignmentChars key value) =
      assignmentChars key value := by
    have letters : "export ".toList = 'e' :: "xport ".toList := toList_eq rfl
    have other : 'e' ≠ first := by
      rintro rfl
      cases letter
    rw [withoutPrefix, letters, assignmentChars, split,
      List.isPrefixOf_cons_cons, beq_false_of_ne other, Bool.false_and]
    rfl
  have parts : splitOnce '=' (assignmentChars key value) =
      some (key.toList, value.toList) :=
    splitOnce_eq_some.mpr ⟨rfl, key_absent named (by decide)⟩
  have keyVisible : trim key = key :=
    trim_visible fun c member =>
      isKeyChar_visible ((isKey_iff.mp named).2 c member)
  have nonempty : key.isEmpty = false :=
    isEmpty_eq_false.mpr (isKey_iff.mp named).1
  unfold parseEnvLine
  dsimp only
  rw [isLine, if_neg (Bool.eq_false_iff.mp read), noExport, parts]
  simp only [Option.bind_eq_bind, Option.bind_some, String.ofList_toList]
  rw [keyVisible, trim_of_trimmed one.trimmed,
    if_neg (Bool.eq_false_iff.mp nonempty)]
  rfl

/-! ## Files -/

theorem assignment_toList (key value rest : String) :
    (assignment key value ++ rest).toList =
      assignmentChars key value ++ '\n' :: rest.toList := by
  have equals : "=".toList = ['='] := toList_eq rfl
  have newline : "\n".toList = ['\n'] := toList_eq rfl
  simp only [assignment, assignmentChars, String.toList_append, equals, newline,
    List.append_assoc, List.nil_append, List.cons_append]

theorem OneLine.noReturn {value : String} (one : OneLine value) :
    value.toList.getLast? ≠ some '\r' := by
  intro isLast
  have visible := one.trimmed.last '\r' isLast
  cases visible

theorem parseEnvFile_assignment {key value : String}
    (named : isKey key = true) (one : OneLine value) (rest : String) :
    parseEnvFile (assignment key value ++ rest) =
      (key, unquote value) :: parseEnvFile rest := by
  have oneLine := assignment_oneLine named one
  have line := oneLine.noFeed
  have noReturn := oneLine.noReturn
  rw [String.toList_ofList] at line noReturn
  rw [parseEnvFile, assignment_toList, lines_cons line noReturn]
  exact List.filterMap_cons_some (parseEnvLine_assignment named one)

/-- The file made of some assignments. -/
def assignments : List (String × String) → String
  | [] => ""
  | (key, value) :: pairs => assignment key value ++ assignments pairs

theorem assignments_append (left right : List (String × String)) :
    assignments (left ++ right) = assignments left ++ assignments right := by
  induction left with
  | nil => rw [List.nil_append, assignments, String.empty_append]
  | cons pair left induction =>
      rw [List.cons_append, assignments, assignments, induction,
        String.append_assoc]

/-- The keys are proper and the values are trimmed lines. -/
def Assigns (pairs : List (String × String)) : Prop :=
  ∀ pair ∈ pairs, isKey pair.1 = true ∧ OneLine pair.2

theorem assigns_nil : Assigns [] := fun _ member => by cases member

theorem assigns_cons {key value : String} {chars : List Char}
    {pairs : List (String × String)} (isText : key = String.ofList chars)
    (letters : (!chars.isEmpty && chars.all isKeyChar) = true)
    (one : OneLine value) (rest : Assigns pairs) :
    Assigns ((key, value) :: pairs) := by
  intro pair member
  rcases List.mem_cons.mp member with rfl | later
  · exact ⟨isKey_of_chars isText letters, one⟩
  · exact rest pair later

theorem Assigns.append {left right : List (String × String)}
    (first : Assigns left) (second : Assigns right) :
    Assigns (left ++ right) := fun pair member =>
  (List.mem_append.mp member).elim (first pair) (second pair)

theorem parseEnvFile_assignments {pairs : List (String × String)}
    (valid : Assigns pairs) :
    parseEnvFile (assignments pairs) =
      pairs.map fun pair => (pair.1, unquote pair.2) := by
  induction pairs with
  | nil => rfl
  | cons pair pairs induction =>
      have first := valid pair List.mem_cons_self
      rw [assignments, parseEnvFile_assignment first.1 first.2, List.map_cons]
      exact congrArg _ (induction fun other member =>
        valid other (List.mem_cons_of_mem _ member))

/-- A comment of one line. -/
structure Comment (line : String) : Prop extends OneLine line where
  hash : line.toList.head? = some '#'

theorem Comment.of_chars {line : String} {chars : List Char}
    (isText : line = String.ofList chars)
    (comment : (chars.head? == some '#' &&
      (chars.getLast?.all fun c => !isWhitespace c) &&
        !chars.contains '\n') = true) : Comment line := by
  rw [Bool.and_eq_true, Bool.and_eq_true, beq_iff_eq, Bool.not_eq_true',
    List.contains_eq_mem, decide_eq_false_iff_not] at comment
  obtain ⟨⟨hash, last⟩, one⟩ := comment
  rw [← toList_eq isText] at hash last one
  refine ⟨⟨⟨fun c isFirst => ?_, fun c isLast => ?_⟩, one⟩, hash⟩
  · rw [hash] at isFirst
    cases isFirst
    rfl
  · rw [Option.mem_def.mp isLast] at last
    exact Bool.not_eq_true' _ ▸ last

/-- A comment or a blank line in front of a file is skipped. -/
theorem parseEnvFile_skipped {line : String} (one : OneLine line)
    (skipped : line = "" ∨ line.toList.head? = some '#')
    (rest : String) :
    parseEnvFile (line ++ "\n" ++ rest) = parseEnvFile rest := by
  have newline : "\n".toList = ['\n'] := toList_eq rfl
  have isLine := congrArg String.toList (trim_of_trimmed one.trimmed)
  have ignored : parseEnvLine line.toList = none := by
    unfold parseEnvLine
    dsimp only
    rw [String.ofList_toList, isLine]
    apply if_pos
    rcases skipped with rfl | comment
    · rfl
    · rw [comment, beq_self_eq_true, Bool.or_true]
  rw [parseEnvFile, String.toList_append, String.toList_append, newline,
    List.append_assoc, List.singleton_append,
    lines_cons one.noFeed one.noReturn]
  exact List.filterMap_cons_none ignored

/-! ## The process environment -/

/-- The environment variables, each variable once. -/
abbrev Vars := List (String × String)

/-- `env::set_var` of a new variable; no result is a panic. -/
def setVar (key value : String) (vars : Vars) : Option Vars :=
  if key.isEmpty || key.toList.contains '=' || key.toList.contains '\x00' ||
      value.toList.contains '\x00'
  then none
  else some ((key, value) :: vars)

/-- The loop of `load_env_file`, with the number of variables it sets. -/
def loadVars (vars : Vars) : List (String × String) → Option (Nat × Vars)
  | [] => some (0, vars)
  | (key, value) :: pairs =>
      if (vars.lookup key).isSome then loadVars vars pairs
      else do
        let vars ← setVar key value vars
        let (set, vars) ← loadVars vars pairs
        return (set + 1, vars)

/-- The value has no zero character. -/
def noNul (value : String) : Bool := !value.toList.contains '\x00'

theorem noNul_iff {value : String} :
    noNul value = true ↔ '\x00' ∉ value.toList := by
  rw [noNul, Bool.not_eq_true', List.contains_eq_mem, decide_eq_false_iff_not]

theorem noNul_of_chars {value : String} {chars : List Char}
    (isText : value = String.ofList chars)
    (absent : chars.contains '\x00' = false) : noNul value = true := by
  rw [noNul, toList_eq isText, absent]
  rfl

theorem noNul_append {front back : String} :
    noNul (front ++ back) = true ↔ noNul front = true ∧ noNul back = true := by
  rw [noNul_iff, noNul_iff, noNul_iff, String.toList_append, List.mem_append,
    not_or]

theorem noNul_unquote {value : String} :
    noNul (unquote value) = true ↔ noNul value = true := by
  by_cases quoted : isQuoted value = true
  · obtain ⟨quote, inner, isQuote, chars⟩ := isQuoted_iff.mp quoted
    have plain : quote ≠ '\x00' := by
      rcases isQuote with rfl | rfl <;> decide
    rw [unquote_eq isQuote chars, noNul_iff, noNul_iff, String.toList_ofList,
      chars, List.mem_cons, List.mem_append, List.mem_singleton]
    constructor
    · rintro absent (here | inside | here)
      · exact plain here.symm
      · exact absent inside
      · exact plain here.symm
    · exact fun absent inside => absent (.inr (.inl inside))
  · rw [unquote, if_neg quoted]

theorem setVar_eq_some {key value : String} {vars vars' : Vars}
    (set : setVar key value vars = some vars') :
    noNul value = true ∧ vars' = (key, value) :: vars := by
  unfold setVar at set
  split at set
  · cases set
  · rename_i allowed
    cases set
    rw [Bool.or_eq_true, not_or] at allowed
    rw [noNul, Bool.not_eq_true']
    exact ⟨Bool.eq_false_iff.mpr allowed.2, rfl⟩

theorem setVar_of_noNul {key value : String} (named : isKey key = true)
    (plain : noNul value = true) (vars : Vars) :
    setVar key value vars = some ((key, value) :: vars) := by
  have nonempty : key.isEmpty = false :=
    isEmpty_eq_false.mpr (isKey_iff.mp named).1
  have absent : ∀ c, isKeyChar c = false → key.toList.contains c = false := by
    intro c other
    rw [List.contains_eq_mem, decide_eq_false_iff_not]
    exact key_absent named other
  rw [noNul, Bool.not_eq_true'] at plain
  rw [setVar, nonempty, absent '=' rfl, absent '\x00' rfl, plain]
  rfl

/-- The first assignment of a variable counts. -/
theorem loadVars_lookup {pairs : List (String × String)} {vars vars' : Vars}
    {set : Nat} (loaded : loadVars vars pairs = some (set, vars'))
    (key : String) :
    vars'.lookup key = (vars.lookup key).or (pairs.lookup key) := by
  induction pairs generalizing vars set with
  | nil =>
      cases loaded
      rw [List.lookup_nil, Option.or_none]
  | cons pair pairs induction =>
      obtain ⟨next, value⟩ := pair
      unfold loadVars at loaded
      split at loaded
      · rename_i present
        rw [induction loaded]
        by_cases same : key = next
        · subst same
          obtain ⟨old, isOld⟩ := Option.isSome_iff_exists.mp present
          rw [isOld]
          rfl
        · rw [List.lookup_cons, beq_false_of_ne same]
      · rename_i absent
        simp only [Option.bind_eq_bind, Option.bind_eq_some_iff] at loaded
        obtain ⟨extended, isSet, ⟨count, _⟩, later, same⟩ := loaded
        cases same
        rw [induction later, (setVar_eq_some isSet).2, List.lookup_cons,
          List.lookup_cons]
        by_cases same : key = next
        · subst same
          rw [Option.not_isSome_iff_eq_none.mp absent, beq_self_eq_true]
          rfl
        · rw [beq_false_of_ne same]

theorem loadVars_noNul {pairs : List (String × String)} {vars vars' : Vars}
    {set : Nat} (plain : ∀ pair ∈ vars, noNul pair.2 = true)
    (loaded : loadVars vars pairs = some (set, vars')) :
    ∀ pair ∈ vars', noNul pair.2 = true := by
  induction pairs generalizing vars set with
  | nil =>
      cases loaded
      exact plain
  | cons pair pairs induction =>
      unfold loadVars at loaded
      split at loaded
      · exact induction plain loaded
      · simp only [Option.bind_eq_bind, Option.bind_eq_some_iff] at loaded
        obtain ⟨extended, isSet, ⟨count, _⟩, later, same⟩ := loaded
        cases same
        obtain ⟨allowed, rfl⟩ := setVar_eq_some isSet
        refine induction (fun pair member => ?_) later
        rcases List.mem_cons.mp member with rfl | old
        · exact allowed
        · exact plain pair old

theorem noNul_of_loadVars {pairs : List (String × String)} {vars : Vars}
    {set : Nat} (loaded : loadVars [] pairs = some (set, vars))
    {key value : String} (assigned : pairs.lookup key = some value) :
    noNul value = true := by
  have present := loadVars_lookup loaded key
  rw [List.lookup_nil, Option.none_or, assigned,
    List.lookup_eq_some_iff] at present
  obtain ⟨before, after, isVars, -⟩ := present
  have member : (key, value) ∈ vars := by
    rw [isVars]
    exact List.mem_append_right _ List.mem_cons_self
  exact loadVars_noNul (fun _ none => by cases none) loaded _ member

theorem loadVars_isSome {pairs : List (String × String)}
    (valid : ∀ pair ∈ pairs, isKey pair.1 = true ∧ noNul pair.2 = true)
    (vars : Vars) : (loadVars vars pairs).isSome = true := by
  induction pairs generalizing vars with
  | nil => rfl
  | cons pair pairs induction =>
      obtain ⟨named, plain⟩ := valid pair List.mem_cons_self
      have later := induction fun other member =>
        valid other (List.mem_cons_of_mem _ member)
      unfold loadVars
      split
      · exact later vars
      · obtain ⟨result, loaded⟩ := Option.isSome_iff_exists.mp
          (later ((pair.1, pair.2) :: vars))
        rw [setVar_of_noNul named plain, Option.bind_eq_bind, Option.bind_some,
          loaded]
        rfl

end Floonet
