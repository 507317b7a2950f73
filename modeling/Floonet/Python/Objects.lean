import Floonet.Python.Text

/-!
# Values, exceptions and regular expressions

What `json.loads` returns, the few operations that the policy applies to it,
and the regular expressions of one character class.
-/

namespace Python

/-- The exceptions that `except Exception` catches. -/
inductive Exn where
  | attributeError
  | typeError
  | other
deriving DecidableEq

/-- A JSON value.  A float is given by the integer that it equals, if it equals
one; the keys of a dictionary are distinct. -/
inductive Value where
  | null
  | bool (value : Bool)
  | int (value : Int)
  | float (whole : Option Int)
  | str (value : Str)
  | list (items : List Value)
  | dict (fields : List (Str × Value))

namespace Value

/-- `value.get(key, default)`. -/
def getD (value : Value) (key : Str) (default : Value) : Except Exn Value :=
  match value with
  | dict fields => .ok ((fields.lookup key).getD default)
  | _ => .error .attributeError

/-- `value.get(key)`. -/
def get (value : Value) (key : Str) : Except Exn Value := value.getD key null

/-- `bool(value)`. -/
def truthy : Value → Bool
  | null => false
  | bool value => value
  | int value => value != 0
  | float whole => whole != some 0
  | str value => !value.isEmpty
  | list items => !items.isEmpty
  | dict fields => !fields.isEmpty

/-- `value == number`; the booleans are integers. -/
def eqInt (value : Value) (number : Int) : Bool :=
  match value with
  | bool value => (if value then 1 else 0) == number
  | int value => value == number
  | float whole => whole == some number
  | _ => false

/-- `value == text`. -/
def eqStr (value : Value) (text : Str) : Bool :=
  match value with
  | str value => value == text
  | _ => false

/-- `value in numbers`, for a set. -/
def inInts (value : Value) (numbers : List Int) : Except Exn Bool :=
  match value with
  | list _ | dict _ => .error .typeError
  | _ => .ok (numbers.any value.eqInt)

end Value

/-! ## Regular expressions -/

/-- The items that the policy's expression is made of. -/
inductive RegexItem where
  | start
  | chars (members : CodePoint → Bool) (count : Nat)
  | dollar

/-- `re.match` of the items in a row.  Without `re.MULTILINE` the dollar sign
matches at the end and before a newline at the end. -/
def matchItems (atStart : Bool) (rest : Str) : List RegexItem → Bool
  | [] => true
  | .start :: items => atStart && matchItems atStart rest items
  | .chars members count :: items =>
      (rest.take count).length == count && (rest.take count).all members &&
        matchItems (atStart && count == 0) (rest.drop count) items
  | .dollar :: items =>
      (rest.isEmpty || rest == [ascii '\n']) && matchItems atStart rest items

/-- `re.match`. -/
def reMatch (items : List RegexItem) (s : Str) : Bool := matchItems true s items

/-- An expression that is anchored at both ends. -/
theorem reMatch_anchored {members : CodePoint → Bool} {count : Nat} {s : Str} :
    reMatch [.start, .chars members count, .dollar] s = true ↔
      ∃ body, body.length = count ∧ body.all members = true ∧
        (s = body ∨ s = body ++ [ascii '\n']) := by
  simp only [reMatch, matchItems, Bool.true_and, Bool.and_true,
    Bool.and_eq_true, beq_iff_eq, Bool.or_eq_true, List.isEmpty_iff]
  constructor
  · rintro ⟨⟨length, members⟩, rest⟩
    refine ⟨s.take count, length, members, ?_⟩
    have split := List.take_append_drop count s
    rcases rest with isEmpty | isNewline
    · rw [isEmpty, List.append_nil] at split
      exact .inl split.symm
    · rw [isNewline] at split
      exact .inr split.symm
  · rintro ⟨body, rfl, members, rfl | rfl⟩
    · simpa using members
    · simpa using members

end Python
