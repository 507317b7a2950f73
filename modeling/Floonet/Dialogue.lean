import Floonet.Lines

/-!
# Dialogues over streams

A dialogue reads lines and writes texts until a stream fails.  What it returns
is bounded step by step: no bound depends on what the streams deliver.
-/

namespace Streams

open Text Validation

variable {Out : Type}

/-- A `Write`, on the output so far. -/
structure Writer (Out : Type) where
  write : Out → String → Except IoError Out
  flush : Out → Except IoError Out

/-- The writer that discards what it is given. -/
def Writer.sink : Writer Unit where
  write _ _ := .ok ()
  flush _ := .ok ()

/-- A computation over a reader and the output of a writer. -/
abbrev Dialogue (Out Value : Type) :=
  StateT (Reader × Out) (Except IoError) Value

namespace Dialogue

/-- Wait for a line. -/
def takeLine : Dialogue Out String := fun (reader, out) => do
  let (line, rest) ← readLine reader
  return (line, rest, out)

/-- `write!` to the terminal. -/
def print (w : Writer Out) (text : String) : Dialogue Out Unit :=
  fun (reader, out) => do
    let out ← w.write out text
    return ((), reader, out)

/-- Show what was written. -/
def flush (w : Writer Out) : Dialogue Out Unit :=
  fun (reader, out) => do
    let out ← w.flush out
    return ((), reader, out)

/-! ## Runs -/

theorem run_bind {Value Next : Type} {first : Dialogue Out Value}
    {streams streams' : Reader × Out} {value : Value}
    (ran : first.run streams = .ok (value, streams'))
    (rest : Value → Dialogue Out Next) :
    (first >>= rest).run streams = (rest value).run streams' := by
  rw [StateT.run_bind, ran]
  rfl

theorem run_takeLine {reader rest : Reader} {line : String}
    (read : readLine reader = .ok (line, rest)) (out : Out) :
    takeLine.run (reader, out) = .ok (line, rest, out) := by
  change (readLine reader >>= fun (line, rest) => pure (line, rest, out)) = _
  rw [read]
  rfl

/-! ## What a dialogue returns -/

/-- Every value that the dialogue returns satisfies a condition. -/
def Returns {Value : Type} (dialogue : Dialogue Out Value)
    (condition : Value → Prop) : Prop :=
  ∀ streams value streams', dialogue.run streams = .ok (value, streams') →
    condition value

section Returns

variable {Value Next : Type} {condition : Value → Prop}
  {bound : Next → Prop}

theorem returns_any (dialogue : Dialogue Out Value) :
    Returns dialogue fun _ => True :=
  fun _ _ _ _ => trivial

theorem returns_pure {value : Value} (holds : condition value) :
    Returns (pure value : Dialogue Out Value) condition := by
  intro streams value' streams' returned
  cases returned
  exact holds

theorem returns_bind {first : Dialogue Out Value}
    {rest : Value → Dialogue Out Next} (opening : Returns first condition)
    (following : ∀ value, condition value → Returns (rest value) bound) :
    Returns (first >>= rest) bound := by
  intro streams next streams' returned
  rw [StateT.run_bind, bind_eq_ok] at returned
  obtain ⟨⟨value, between⟩, first, rest⟩ := returned
  exact following value (opening _ _ _ first) _ _ _ rest

theorem returns_then {first : Dialogue Out Value} {rest : Dialogue Out Next}
    (following : Returns rest bound) :
    Returns (first >>= fun _ => rest) bound :=
  returns_bind (returns_any first) fun _ _ => following

theorem returns_takeLine : Returns (takeLine : Dialogue Out String)
    fun line => '\n' ∉ line.toList.dropLast := by
  rintro ⟨reader, out⟩ line streams' returned
  unfold takeLine at returned
  have taken := bind_eq_ok.mp returned
  obtain ⟨⟨line', rest⟩, read, same⟩ := taken
  cases same
  exact readLine_newline read

end Returns

end Dialogue

end Streams
