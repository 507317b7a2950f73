import Floonet.Concurrent.Program
import Mathlib.Data.List.Forall2

/-!
# Complete runs and failover

`Program.Yields` relates a program to the steps and answers of a complete run
and to the result of it.  `failover` tries alternatives in order until one of
them succeeds; its runs are the runs of the alternatives it tried, one after
another.
-/

namespace Concurrent

namespace Program

variable {Op : Type} {Ans : Op → Type} {Res Out : Type}

/-- The program ends with `result` after exactly the steps `events`. -/
inductive Yields : Program Op Ans Res → List (Event Op Ans) → Res → Prop where
  | done (result : Res) : Yields (.done result) [] result
  | step {op : Op} {next : Ans op → Program Op Ans Res} {result : Res}
      {events : List (Event Op Ans)} (answer : Ans op) :
      Yields (next answer) events result →
      Yields (.step op next) (⟨op, answer⟩ :: events) result

section Yields

variable {events : List (Event Op Ans)}

theorem yields_done {result out : Res} :
    (Program.done result : Program Op Ans Res).Yields events out ↔
      events = [] ∧ out = result := by
  constructor
  · intro yields
    cases yields with
    | done => exact ⟨rfl, rfl⟩
  · rintro ⟨rfl, rfl⟩
    exact .done out

theorem yields_step {op : Op} {next : Ans op → Program Op Ans Res}
    {out : Res} :
    (Program.step op next).Yields events out ↔
      ∃ answer later, events = ⟨op, answer⟩ :: later ∧
        (next answer).Yields later out := by
  constructor
  · intro yields
    cases yields with
    | step answer later => exact ⟨answer, _, rfl, later⟩
  · rintro ⟨answer, later, rfl, yields⟩
    exact .step answer yields

theorem yields_perform_bind {op : Op} {rest : Ans op → Program Op Ans Out}
    {out : Out} :
    (perform op >>= rest).Yields events out ↔
      ∃ answer later, events = ⟨op, answer⟩ :: later ∧
        (rest answer).Yields later out := by
  rw [perform_bind, yields_step]

/-- A run of a sequence is a run of its first part followed by a run of the
rest. -/
theorem yields_bind {program : Program Op Ans Res}
    {rest : Res → Program Op Ans Out} {out : Out} :
    (program >>= rest).Yields events out ↔
      ∃ first result later, events = first ++ later ∧
        program.Yields first result ∧ (rest result).Yields later out := by
  induction program generalizing events with
  | done result =>
      rw [done_bind]
      constructor
      · intro yields
        exact ⟨[], result, events, rfl, .done result, yields⟩
      · rintro ⟨first, result', later, rfl, firstYields, yields⟩
        obtain ⟨rfl, rfl⟩ := yields_done.mp firstYields
        exact yields
  | step op next induction =>
      rw [step_bind, yields_step]
      constructor
      · rintro ⟨answer, events, rfl, yields⟩
        obtain ⟨first, result, later, rfl, firstYields, laterYields⟩ :=
          (induction answer).mp yields
        exact ⟨_, result, later, rfl, .step answer firstYields, laterYields⟩
      · rintro ⟨first, result, later, rfl, firstYields, laterYields⟩
        obtain ⟨answer, first, rfl, yields⟩ := yields_step.mp firstYields
        exact ⟨answer, first ++ later, rfl,
          (induction answer).mpr ⟨first, result, later, rfl, yields,
            laterYields⟩⟩

end Yields

end Program

/-! ## Failover -/

section Failover

variable {Op : Type} {Ans : Op → Type} {Res Alternative Error : Type}
  (attempt : Alternative → Program Op Ans (Except Error Res))

/-- The first success of the alternatives, or the error of the last one. -/
def failover (lastErr : Error) :
    List Alternative → Program Op Ans (Except Error Res)
  | [] => return .error lastErr
  | alternative :: rest => do
      match ← attempt alternative with
      | .ok result => return .ok result
      | .error error => failover error rest

/-- A run of an alternative that ends with an error. -/
def Fails (alternative : Alternative) (events : List (Event Op Ans)) : Prop :=
  ∃ error, (attempt alternative).Yields events (.error error)

variable {attempt} {lastErr : Error} {events : List (Event Op Ans)}

theorem failover_cons_yields {alternative : Alternative}
    {rest : List Alternative} {outcome : Except Error Res} :
    (failover attempt lastErr (alternative :: rest)).Yields events outcome ↔
      (∃ result, outcome = .ok result ∧
        (attempt alternative).Yields events (.ok result)) ∨
      ∃ first error later, events = first ++ later ∧
        (attempt alternative).Yields first (.error error) ∧
        (failover attempt error rest).Yields later outcome := by
  rw [failover, Program.yields_bind]
  constructor
  · rintro ⟨first, attempted, later, rfl, firstYields, laterYields⟩
    cases attempted with
    | ok result =>
        obtain ⟨rfl, rfl⟩ := Program.yields_done.mp laterYields
        rw [List.append_nil]
        exact .inl ⟨result, rfl, firstYields⟩
    | error error => exact .inr ⟨first, error, later, rfl, firstYields,
        laterYields⟩
  · rintro (⟨result, rfl, yields⟩ |
      ⟨first, error, later, rfl, firstYields, laterYields⟩)
    · exact ⟨events, .ok result, [], (List.append_nil events).symm, yields,
        .done _⟩
    · exact ⟨first, .error error, later, rfl, firstYields, laterYields⟩

/-- A result comes from one alternative, and every alternative before it has
failed. -/
theorem failover_yields_ok {alternatives : List Alternative} {result : Res}
    (yields : (failover attempt lastErr alternatives).Yields events
      (.ok result)) :
    ∃ before chosen after failed own,
      alternatives = before ++ chosen :: after ∧
      List.Forall₂ (Fails attempt) before failed ∧
      events = failed.flatten ++ own ∧
      (attempt chosen).Yields own (.ok result) := by
  induction alternatives generalizing lastErr events with
  | nil =>
      obtain ⟨-, different⟩ := Program.yields_done.mp yields
      cases different
  | cons alternative rest induction =>
      rcases failover_cons_yields.mp yields with ⟨_, same, own⟩ |
        ⟨first, error, later, rfl, failed, laterYields⟩
      · cases same
        exact ⟨[], alternative, rest, [], events, rfl, .nil, rfl, own⟩
      · obtain ⟨before, chosen, after, chunks, own, rfl, allFailed, rfl,
          chosenYields⟩ := induction laterYields
        refine ⟨alternative :: before, chosen, after, first :: chunks, own,
          rfl, .cons ⟨error, failed⟩ allFailed, ?_, chosenYields⟩
        rw [List.flatten_cons, List.append_assoc]

/-- An error means that every alternative has failed. -/
theorem failover_yields_error {alternatives : List Alternative} {error : Error}
    (yields : (failover attempt lastErr alternatives).Yields events
      (.error error)) :
    ∃ failed, List.Forall₂ (Fails attempt) alternatives failed ∧
      events = failed.flatten := by
  induction alternatives generalizing lastErr events with
  | nil =>
      obtain ⟨rfl, -⟩ := Program.yields_done.mp yields
      exact ⟨[], .nil, rfl⟩
  | cons alternative rest induction =>
      rcases failover_cons_yields.mp yields with ⟨_, different, -⟩ |
        ⟨first, error, later, rfl, failed, laterYields⟩
      · cases different
      · obtain ⟨chunks, allFailed, rfl⟩ := induction laterYields
        exact ⟨first :: chunks, .cons ⟨error, failed⟩ allFailed, rfl⟩

end Failover

end Concurrent
