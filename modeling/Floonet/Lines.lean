import Floonet.Text
import Floonet.Validation
import Mathlib.Data.List.TakeWhile

/-!
# Lines

The lines of a text, and the lines a buffered reader delivers byte by byte.  A
trimmed line has no line feed, so it is a line of every text it is put in.
-/

namespace Text

/-! ## Line feeds -/

theorem newline_notMem_trim {text : String}
    (line : '\n' ∉ text.toList.dropLast) : '\n' ∉ (trim text).toList := by
  intro member
  obtain ⟨before, after, isText⟩ := trim_infix text
  have trimmed := trim_trimmed text
  obtain ⟨front, back, split⟩ := List.append_of_mem member
  have atEnd : back ++ after = [] := by
    cases rest : back ++ after with
    | nil => rfl
    | cons c rest' =>
        refine absurd ?_ line
        have whole : text.toList = before ++ front ++ '\n' :: c :: rest' := by
          rw [isText, split, ← rest]
          simp only [List.append_assoc, List.cons_append]
        rw [whole, List.dropLast_append_of_ne_nil (List.cons_ne_nil _ _)]
        exact List.mem_append_right _ List.mem_cons_self
  rw [split, (List.append_eq_nil_iff.mp atEnd).1] at trimmed
  have last := trimmed.last '\n' List.getLast?_concat
  cases last

/-! ## Lines of a text -/

/-- A line whose line feed is cut off loses a carriage return before it. -/
def stripReturn (line : List Char) : List Char :=
  if line.getLast? = some '\r' then line.dropLast else line

def linesFrom (line : List Char) : List Char → List (List Char)
  | [] => if line.isEmpty then [] else [line]
  | c :: rest =>
      if c = '\n' then stripReturn line :: linesFrom [] rest
      else linesFrom (line ++ [c]) rest

/-- `str::lines`. -/
def lines (text : List Char) : List (List Char) := linesFrom [] text

theorem linesFrom_append {line : List Char} (one : '\n' ∉ line)
    (before rest : List Char) :
    linesFrom before (line ++ '\n' :: rest) =
      stripReturn (before ++ line) :: lines rest := by
  induction line generalizing before with
  | nil =>
      rw [List.nil_append, linesFrom, if_pos rfl, List.append_nil]
      rfl
  | cons c line induction =>
      rw [List.mem_cons, not_or] at one
      rw [List.cons_append, linesFrom, if_neg (Ne.symm one.1),
        induction one.2, List.append_assoc, List.singleton_append]

/-- A line in front of a text is its first line. -/
theorem lines_cons {line : List Char} (one : '\n' ∉ line)
    (whole : line.getLast? ≠ some '\r') (rest : List Char) :
    lines (line ++ '\n' :: rest) = line :: lines rest := by
  rw [lines, linesFrom_append one, List.nil_append, stripReturn, if_neg whole]

/-! ## UTF-8 -/

/-- `str::from_utf8`. -/
def decodeUtf8 (bytes : List UInt8) : Option String :=
  String.fromUTF8? bytes.toByteArray

theorem decodeUtf8_eq_some {bytes : List UInt8} {text : String} :
    decodeUtf8 bytes = some text ↔
      text.toList.flatMap String.utf8EncodeChar = bytes := by
  have encoded : text.toByteArray =
      (text.toList.flatMap String.utf8EncodeChar).toByteArray := by
    rw [← String.utf8Encode_toList, List.utf8Encode]
  unfold decodeUtf8 String.fromUTF8?
  constructor
  · intro decoded
    split at decoded
    · cases decoded
      have same := congrArg (fun array => array.data.toList) encoded
      rw [List.toList_data_toByteArray] at same
      exact same.symm.trans List.toList_data_toByteArray
    · cases decoded
  · rintro rfl
    rw [← encoded, dif_pos text.isValidUTF8]
    rfl

/-- Only a line feed is encoded with the byte of a line feed. -/
theorem newline_notMem_dropLast {bytes : List UInt8} {text : String}
    (decoded : decodeUtf8 bytes = some text) (line : 10 ∉ bytes.dropLast) :
    '\n' ∉ text.toList.dropLast := by
  intro member
  apply line
  have nonempty : text.toList ≠ [] := by
    rintro empty
    rw [empty] at member
    cases member
  have split := List.dropLast_concat_getLast nonempty
  rw [← decodeUtf8_eq_some.mp decoded, ← split, List.flatMap_append,
    List.flatMap_singleton,
    List.dropLast_append_of_ne_nil String.utf8EncodeChar_ne_nil]
  have newline : (10 : UInt8) ∈ String.utf8EncodeChar '\n' := by decide
  exact List.mem_append_left _ (List.mem_flatMap.mpr ⟨_, member, newline⟩)

end Text

/-! ## Buffered readers -/

namespace Streams

open Text Validation

/-- The failures that the readers tell apart. -/
inductive IoError where
  | interrupted
  | invalidUtf8
  | other (description : String)
deriving DecidableEq

/-- What `fill_buf` finds, call by call.  An empty buffer is the end of the
file, after which a terminal can go on. -/
abbrev Reader := List (Except IoError (List UInt8))

/-- `read_until`. -/
def readUntil (delimiter : UInt8) :
    Reader → Except IoError (List UInt8 × Reader)
  | [] => .ok ([], [])
  | .error .interrupted :: later => readUntil delimiter later
  | .error failure :: _ => .error failure
  | .ok chunk :: later =>
      let before := chunk.takeWhile (· != delimiter)
      match chunk.dropWhile (· != delimiter) with
      | found :: after =>
          .ok (before ++ [found],
            if after.isEmpty then later else .ok after :: later)
      | [] =>
          if chunk.isEmpty then .ok ([], later)
          else (readUntil delimiter later).map fun (more, rest) =>
            (chunk ++ more, rest)

/-- `read_line`. -/
def readLine (reader : Reader) : Except IoError (String × Reader) := do
  let (bytes, rest) ← readUntil 10 reader
  let line ← demand (decodeUtf8 bytes) .invalidUtf8
  return (line, rest)

theorem notMem_dropLast_append {Value : Type} {value : Value}
    {front back : List Value} (first : value ∉ front)
    (second : value ∉ back.dropLast) : value ∉ (front ++ back).dropLast := by
  intro member
  by_cases none : back = []
  · rw [none, List.append_nil] at member
    exact first (List.dropLast_subset _ member)
  · rw [List.dropLast_append_of_ne_nil none] at member
    rcases List.mem_append.mp member with inFront | inBack
    · exact first inFront
    · exact second inBack

theorem readUntil_dropLast {delimiter : UInt8} {reader rest : Reader}
    {bytes : List UInt8}
    (found : readUntil delimiter reader = .ok (bytes, rest)) :
    delimiter ∉ bytes.dropLast := by
  have passed : ∀ chunk : List UInt8,
      delimiter ∉ chunk.takeWhile (· != delimiter) := by
    intro chunk member
    have other := List.mem_takeWhile_imp member
    rw [bne_self_eq_false] at other
    cases other
  induction reader generalizing bytes with
  | nil =>
      cases found
      exact List.not_mem_nil
  | cons next later induction =>
      cases next with
      | error failure =>
          cases failure with
          | interrupted => exact induction found
          | invalidUtf8 | other => cases found
      | ok chunk =>
          unfold readUntil at found
          dsimp only at found
          split at found
          · cases found
            rw [List.dropLast_concat]
            exact passed chunk
          · rename_i noMore
            split at found
            · cases found
              exact List.not_mem_nil
            · cases continued : readUntil delimiter later with
              | error failure =>
                  rw [continued] at found
                  cases found
              | ok result =>
                  rw [continued] at found
                  cases found
                  have absent : delimiter ∉ chunk := by
                    intro member
                    have passes := List.dropWhile_eq_nil_iff.mp noMore _ member
                    rw [bne_self_eq_false] at passes
                    cases passes
                  exact notMem_dropLast_append absent (induction continued)

theorem readLine_newline {reader rest : Reader} {line : String}
    (read : readLine reader = .ok (line, rest)) :
    '\n' ∉ line.toList.dropLast := by
  simp only [readLine, bind_eq_ok, demand_eq_ok, pure_eq_ok] at read
  obtain ⟨⟨bytes, later⟩, found, _, decoded, same⟩ := read
  cases same
  exact newline_notMem_dropLast decoded (readUntil_dropLast found)

theorem readLine_typed {line : String} {before : List UInt8}
    (encoded : line.toList.flatMap String.utf8EncodeChar = before ++ [10])
    (one : 10 ∉ before) (later : Reader) :
    readLine (.ok (before ++ [10]) :: later) = .ok (line, later) := by
  have other : ∀ byte ∈ before, (byte != 10) = true := by
    intro byte member
    rw [bne_iff_ne]
    rintro rfl
    exact one member
  have found : readUntil 10 (.ok (before ++ [10]) :: later) =
      .ok (before ++ [10], later) := by
    have stops : [10].takeWhile (fun byte : UInt8 => byte != 10) = [] := rfl
    unfold readUntil
    rw [List.takeWhile_append_of_pos other, List.dropWhile_append_of_pos other,
      stops, List.append_nil]
    rfl
  simp only [readLine, bind_eq_ok, demand_eq_ok, pure_eq_ok]
  exact ⟨_, found, line, decodeUtf8_eq_some.mpr encoded, rfl⟩

theorem readLine_nil : readLine [] = .ok ("", []) := by
  simp only [readLine, bind_eq_ok, demand_eq_ok, pure_eq_ok]
  exact ⟨([], []), rfl, "", decodeUtf8_eq_some.mpr rfl, rfl⟩

end Streams
