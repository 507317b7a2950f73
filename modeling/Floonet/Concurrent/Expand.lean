import Floonet.Concurrent.Failover
import Floonet.Concurrent.Pool

/-!
# Steps made of smaller steps

`Program.expand` carries out every step of a program by a program of smaller
steps.  If all the smaller steps but the one that takes effect leave the state
alone, then whatever they are interleaved with, a pool that performs them is
matched by a pool that performs the original steps.
-/

namespace Concurrent

variable {Op Low : Type} {Ans : Op → Type} {LowAns : Low → Type} {Res : Type}

namespace Program

/-- Carry out every step by a program. -/
def expand (impl : (op : Op) → Program Low LowAns (Ans op)) :
    Program Op Ans Res → Program Low LowAns Res
  | .done result => .done result
  | .step op next => impl op >>= fun answer => (next answer).expand impl

/-- What a program that has come to its end has done is a complete run. -/
theorem Follows.yields {program rest : Program Op Ans Res}
    {past : List (Event Op Ans)} (follows : program.Follows past rest)
    {events : List (Event Op Ans)} {result : Res}
    (yields : rest.Yields events result) :
    program.Yields (past ++ events) result := by
  induction follows generalizing events with
  | start => exact yields
  | next answer _ induction =>
      rw [List.append_assoc]
      exact induction (.step answer yields)

/-- The events of a program are explained by segments of smaller ones. -/
abbrev Explains (impl : (op : Op) → Program Low LowAns (Ans op))
    (events : List (Event Op Ans))
    (segments : List (List (Event Low LowAns))) : Prop :=
  List.Forall₂ (fun event segment =>
    (impl event.op).Yields segment event.answer) events segments

section Expand

variable {impl : (op : Op) → Program Low LowAns (Ans op)}
  {program : Program Op Ans Res}

theorem expand_uses {allowed : Low → Prop}
    (uses : ∀ op, (impl op).Uses fun _ low => allowed low)
    (program : Program Op Ans Res) :
    (program.expand impl).Uses fun _ low => allowed low := by
  induction program with
  | done result => exact uses_done result
  | step op next induction => exact (uses op).bind induction

theorem expand_yields {lows : List (Event Low LowAns)} {result : Res}
    (yields : (program.expand impl).Yields lows result) :
    ∃ events segments, program.Yields events result ∧
      Explains impl events segments ∧ lows = segments.flatten := by
  induction program generalizing lows with
  | done result' =>
      obtain ⟨rfl, rfl⟩ := yields_done.mp yields
      exact ⟨[], [], .done result, .nil, rfl⟩
  | step op next induction =>
      obtain ⟨segment, answer, later, rfl, first, rest⟩ :=
        yields_bind.mp yields
      obtain ⟨events, segments, ran, explained, rfl⟩ := induction answer rest
      exact ⟨⟨op, answer⟩ :: events, segment :: segments, .step answer ran,
        .cons first explained, rfl⟩

end Expand

end Program

open Program

/-- How far a program is with the small steps of its next step. -/
inductive Progress (impl : (op : Op) → Program Low LowAns (Ans op))
    (carries : (op : Op) → Program Low LowAns (Ans op) → Prop) :
    List (Event Low LowAns) → Program Low LowAns Res → Program Op Ans Res →
    Prop where
  | done (result : Res) : Progress impl carries [] (.done result) (.done result)
  | busy {op : Op} {next : Ans op → Program Op Ans Res}
      {part : List (Event Low LowAns)} {low : Low}
      {rest : LowAns low → Program Low LowAns (Ans op)}
      (follows : (impl op).Follows part (.step low rest))
      (carried : carries op (.step low rest)) :
      Progress impl carries part
        (.step low fun answer => rest answer >>= fun result =>
          (next result).expand impl)
        (.step op next)

variable {State Env LowEnv Tick Request : Type}

namespace System

variable (sys : System State Env Tick Request Op Ans Res)
  (impl : (op : Op) → Program Low LowAns (Ans op))
  (lowExec : LowEnv → (low : Low) → State → LowAns low × State)

/-- The system that performs the small steps. -/
def expanded : System State LowEnv Tick Request Low LowAns Res where
  handler request := (sys.handler request).expand impl
  exec := lowExec
  tick := sys.tick
  initial := sys.initial

/-- What is left of the small steps of `op` takes its effect at once, at one
step that is the last or after the last. -/
def Carries (op : Op) : Program Low LowAns (Ans op) → Prop
  | .done answer => ∀ state, ∃ env, sys.exec env op state = (answer, state)
  | .step low next => ∀ lowEnv state,
      ((lowExec lowEnv low state).2 = state ∧
        Carries op (next (lowExec lowEnv low state).1)) ∨
      ∃ answer env, next (lowExec lowEnv low state).1 = .done answer ∧
        sys.exec env op state = (answer, (lowExec lowEnv low state).2)

/-- A thread that performs small steps beside one that does not. -/
structure Matches (fine : Thread State Request Low LowAns Res)
    (coarse : Thread State Request Op Ans Res) : Prop where
  request : fine.request = coarse.request
  explained : ∃ segments part, fine.events = segments.flatten ++ part ∧
    Explains impl coarse.events segments ∧
    Progress impl (sys.Carries lowExec) part fine.program coarse.program

/-- Pools with the same state and matching threads. -/
structure Refines (fine : Pool State Request Low LowAns Res)
    (coarse : Pool State Request Op Ans Res) : Prop where
  state : fine.state = coarse.state
  threads : List.Forall₂ (sys.Matches impl lowExec) fine.threads coarse.threads

variable {sys impl lowExec}
  {fine fineLater : Pool State Request Low LowAns Res}
  {coarse : Pool State Request Op Ans Res}

theorem Step.perform {index : Nat} {thread : Thread State Request Op Ans Res}
    (found : coarse.threads[index]? = some thread) {op : Op}
    {next : Ans op → Program Op Ans Res}
    (pending : thread.program = .step op next) {env : Env} {answer : Ans op}
    {after : State}
    (executed : sys.exec env op coarse.state = (answer, after)) :
    ∃ label moved, sys.Step coarse label
        ⟨after, coarse.threads.set index moved⟩ ∧
      moved.request = thread.request ∧
      moved.events = thread.events ++ [⟨op, answer⟩] ∧
      moved.program = next answer := by
  obtain ⟨isAnswer, isAfter⟩ := Prod.ext_iff.mp executed
  dsimp only at isAnswer isAfter
  subst isAnswer isAfter
  exact ⟨_, _, .act env found pending, rfl, Thread.advance_events _ _ _, rfl⟩

/-- The thread at `index` can get ahead until it matches `follower`. -/
def GetsAhead (sys : System State Env Tick Request Op Ans Res)
    (impl : (op : Op) → Program Low LowAns (Ans op))
    (lowExec : LowEnv → (low : Low) → State → LowAns low × State)
    (coarse : Pool State Request Op Ans Res) (index : Nat) (after : State)
    (follower : Thread State Request Low LowAns Res) : Prop :=
  ∃ later, sys.Steps anyMove coarse later ∧ later.state = after ∧
    ∃ caught, later.threads = coarse.threads.set index caught ∧
      sys.Matches impl lowExec follower caught

/-- A thread with this program performs the steps that need no small step. -/
def CatchesUp (sys : System State Env Tick Request Op Ans Res)
    (impl : (op : Op) → Program Low LowAns (Ans op))
    (lowExec : LowEnv → (low : Low) → State → LowAns low × State)
    (program : Program Op Ans Res) : Prop :=
  ∀ ⦃coarse : Pool State Request Op Ans Res⦄ ⦃index : Nat⦄
    ⦃thread : Thread State Request Op Ans Res⦄
    ⦃segments : List (List (Event Low LowAns))⦄
    ⦃follower : Thread State Request Low LowAns Res⦄,
    coarse.threads[index]? = some thread → thread.program = program →
    Explains impl thread.events segments →
    follower.request = thread.request →
    follower.events = segments.flatten →
    follower.program = program.expand impl →
    GetsAhead sys impl lowExec coarse index coarse.state follower

/-- The step that a thread carries out has taken its effect. -/
theorem CatchesUp.commit {index : Nat}
    {thread : Thread State Request Op Ans Res}
    (found : coarse.threads[index]? = some thread) {op : Op}
    {next : Ans op → Program Op Ans Res}
    (pending : thread.program = .step op next) {env : Env} {answer : Ans op}
    {after : State}
    (executed : sys.exec env op coarse.state = (answer, after))
    (catches : CatchesUp sys impl lowExec (next answer))
    {segments : List (List (Event Low LowAns))}
    {segment : List (Event Low LowAns)}
    (explained : Explains impl thread.events segments)
    (yields : (impl op).Yields segment answer)
    {follower : Thread State Request Low LowAns Res}
    (request : follower.request = thread.request)
    (events : follower.events = segments.flatten ++ segment)
    (program : follower.program = (next answer).expand impl) :
    GetsAhead sys impl lowExec coarse index after follower := by
  obtain ⟨label, moved, step, sameRequest, isEvents, isNext⟩ :=
    Step.perform found pending executed
  have bound := (List.getElem?_eq_some_iff.mp found).1
  have explained' : Explains impl moved.events (segments ++ [segment]) := by
    rw [isEvents]
    exact List.rel_append explained (.cons yields .nil)
  have movedFound : (coarse.threads.set index moved)[index]? = some moved :=
    List.getElem?_set_self bound
  have events' : follower.events = (segments ++ [segment]).flatten := by
    rw [events, List.flatten_append]
    simp
  have gets : GetsAhead sys impl lowExec
      ⟨after, coarse.threads.set index moved⟩ index after follower :=
    catches movedFound isNext explained' (request.trans sameRequest.symm)
      events' program
  obtain ⟨later, steps, sameState, caught, threads, isMatch⟩ := gets
  refine ⟨later, (Steps.tail (.refl coarse) step trivial).trans steps,
    sameState, caught, ?_, isMatch⟩
  rw [threads, List.set_set]

theorem catchesUp (carried : ∀ op, sys.Carries lowExec op (impl op))
    (program : Program Op Ans Res) : CatchesUp sys impl lowExec program := by
  induction program with
  | done result =>
      intro coarse index thread segments follower found isProgram explained
        request events program
      have same : coarse.threads.set index thread = coarse.threads := by
        obtain ⟨bound, rfl⟩ := List.getElem?_eq_some_iff.mp found
        exact List.set_getElem_self bound
      refine ⟨coarse, .refl coarse, rfl, thread, same.symm, request, segments,
        [], by rw [events, List.append_nil], explained, ?_⟩
      rw [program, isProgram]
      exact .done result
  | step op next induction =>
      intro coarse index thread segments follower found isProgram explained
        request events program
      have whole := carried op
      have follows : (impl op).Follows [] (impl op) := .start
      cases isImpl : impl op with
      | done answer =>
          rw [isImpl] at whole
          obtain ⟨env, executed⟩ := whole coarse.state
          have yields : (impl op).Yields [] answer := by
            rw [isImpl]
            exact .done answer
          have whole : follower.events = segments.flatten ++ [] := by
            rw [events, List.append_nil]
          refine CatchesUp.commit found isProgram executed (induction answer)
            explained yields request whole ?_
          rw [program, Program.expand, isImpl]
          rfl
      | step low rest =>
          have same : coarse.threads.set index thread = coarse.threads := by
            obtain ⟨bound, rfl⟩ := List.getElem?_eq_some_iff.mp found
            exact List.set_getElem_self bound
          refine ⟨coarse, .refl coarse, rfl, thread, same.symm, request,
            segments, [], by rw [events, List.append_nil], explained, ?_⟩
          rw [program, isProgram, Program.expand, isImpl]
          rw [isImpl] at whole
          exact .busy (isImpl ▸ follows) whole

/-- A thread that has taken a small step of `op` stays with its match, or
comes to the end of `op`. -/
theorem Matches.act (carried : ∀ op, sys.Carries lowExec op (impl op))
    {index : Nat} {thread : Thread State Request Op Ans Res}
    (found : coarse.threads[index]? = some thread) {op : Op}
    {next : Ans op → Program Op Ans Res}
    (pending : thread.program = .step op next)
    {segments : List (List (Event Low LowAns))} {part : List (Event Low LowAns)}
    (explained : Explains impl thread.events segments)
    {rest : Program Low LowAns (Ans op)} (follows : (impl op).Follows part rest)
    {after : State}
    (left : (after = coarse.state ∧ sys.Carries lowExec op rest) ∨
      ∃ answer env, rest = .done answer ∧
        sys.exec env op coarse.state = (answer, after))
    {follower : Thread State Request Low LowAns Res}
    (request : follower.request = thread.request)
    (events : follower.events = segments.flatten ++ part)
    (program : follower.program =
      rest >>= fun answer => (next answer).expand impl) :
    GetsAhead sys impl lowExec coarse index after follower := by
  have ends : ∀ answer env, rest = .done answer →
      sys.exec env op coarse.state = (answer, after) →
        GetsAhead sys impl lowExec coarse index after follower := by
    rintro answer env rfl executed
    have yields := follows.yields (.done answer)
    rw [List.append_nil] at yields
    exact CatchesUp.commit found pending executed
      (catchesUp carried (next answer)) explained yields request events program
  rcases left with ⟨rfl, left⟩ | ⟨answer, env, isDone, executed⟩
  · cases rest with
    | done answer =>
        obtain ⟨env, executed⟩ := left coarse.state
        exact ends answer env rfl executed
    | step low rest =>
        have same : coarse.threads.set index thread = coarse.threads := by
          obtain ⟨bound, rfl⟩ := List.getElem?_eq_some_iff.mp found
          exact List.set_getElem_self bound
        refine ⟨coarse, .refl coarse, rfl, thread, same.symm, request,
          segments, part, events, explained, ?_⟩
        rw [program, pending]
        exact .busy follows left
  · exact ends answer env isDone executed

theorem forall₂_set {Left Right : Type} {Related : Left → Right → Prop}
    {lefts : List Left} {rights : List Right}
    (related : List.Forall₂ Related lefts rights) {left : Left} {right : Right}
    (new : Related left right) (index : Nat) :
    List.Forall₂ Related (lefts.set index left) (rights.set index right) := by
  induction related generalizing index with
  | nil => exact .nil
  | cons first rest induction =>
      cases index with
      | zero => exact .cons new rest
      | succ index => exact .cons first (induction index)

theorem forall₂_getElem? {Left Right : Type} {Related : Left → Right → Prop}
    {lefts : List Left} {rights : List Right}
    (related : List.Forall₂ Related lefts rights) {index : Nat} {left : Left}
    (found : lefts[index]? = some left) :
    ∃ right, rights[index]? = some right ∧ Related left right := by
  induction related generalizing index with
  | nil => cases found
  | @cons first second _ _ same rest induction =>
      cases index with
      | zero =>
          cases found
          exact ⟨second, rfl, same⟩
      | succ index => exact induction found

/-- Every small step is matched by any number of original steps. -/
theorem Refines.step (carried : ∀ op, sys.Carries lowExec op (impl op))
    {label : Label State Request Low LowAns}
    (step : (sys.expanded impl lowExec).Step fine label fineLater)
    (refines : sys.Refines impl lowExec fine coarse) :
    ∃ coarseLater, sys.Steps anyMove coarse coarseLater ∧
      sys.Refines impl lowExec fineLater coarseLater := by
  obtain ⟨sameState, threads⟩ := refines
  cases step with
  | tick elapsed =>
      refine ⟨⟨sys.tick elapsed coarse.state, coarse.threads⟩,
        .tail (.refl coarse) (.tick coarse elapsed) trivial, ?_, threads⟩
      exact congrArg (sys.tick elapsed) sameState
  | arrive request =>
      have arrival : sys.Step coarse (.arrive request)
          ⟨coarse.state, coarse.threads ++ [sys.fresh request]⟩ :=
        .arrive coarse request
      have found : (coarse.threads ++ [sys.fresh request])[
          coarse.threads.length]? = some (sys.fresh request) := by simp
      have gets : GetsAhead sys impl lowExec
          ⟨coarse.state, coarse.threads ++ [sys.fresh request]⟩
          coarse.threads.length coarse.state
          ((sys.expanded impl lowExec).fresh request) :=
        catchesUp carried (sys.handler request) found rfl .nil rfl rfl rfl
      obtain ⟨later, steps, laterState, caught, laterThreads, isMatch⟩ := gets
      refine ⟨later, (Steps.tail (.refl coarse) arrival trivial).trans steps,
        sameState.trans laterState.symm, ?_⟩
      have caughtUp : later.threads = coarse.threads ++ [caught] := by
        rw [laterThreads, List.set_append_right _ _ (Nat.le_refl _)]
        simp
      rw [caughtUp]
      exact List.rel_append threads (.cons isMatch .nil)
  | @act index follower low next lowEnv isThread pending =>
      obtain ⟨thread, found, request, segments, part, events, explained,
        progress⟩ := forall₂_getElem? threads isThread
      generalize isProgram : thread.program = program at progress
      rw [pending] at progress
      cases progress with
      | @busy op coarseNext _ _ rest follows carriedPart =>
          obtain ⟨state, threads'⟩ := fine
          subst sameState
          generalize isMoved : follower.advance ((sys.expanded impl
            lowExec).taken lowEnv low coarse.state) _ = moved
          have request' : moved.request = thread.request := by
            rw [← isMoved]
            exact request
          have events' : moved.events = segments.flatten ++
              (part ++ [⟨low, (lowExec lowEnv low coarse.state).1⟩]) := by
            rw [← isMoved, Thread.advance_events, events, List.append_assoc]
            rfl
          have program' : moved.program =
              rest (lowExec lowEnv low coarse.state).1 >>= fun answer =>
                (coarseNext answer).expand impl := by
            rw [← isMoved]
            rfl
          obtain ⟨later, steps, laterState, caught, laterThreads, isMatch⟩ :=
            Matches.act carried found isProgram explained
              (follows.next (lowExec lowEnv low coarse.state).1)
              (carriedPart lowEnv coarse.state) request' events' program'
          refine ⟨later, steps, laterState.symm, ?_⟩
          rw [laterThreads]
          exact forall₂_set threads isMatch index

/-- Runs of small steps are matched by runs of the original ones. -/
theorem Refines.run {permitted : Permission State Request Low LowAns Res}
    (carried : ∀ op, sys.Carries lowExec op (impl op))
    (reachable : (sys.expanded impl lowExec).Reachable permitted fine) :
    ∃ coarse, sys.Reachable anyMove coarse ∧
      sys.Refines impl lowExec fine coarse := by
  refine Reachable.induct (motive := fun fine => ∃ coarse,
    sys.Reachable anyMove coarse ∧ sys.Refines impl lowExec fine coarse)
    ?start ?step reachable
  case start => exact fun state initial => ⟨⟨state, []⟩, .start initial, rfl, .nil⟩
  case step =>
    rintro fine label fineLater - ⟨coarse, before, refines⟩ step -
    obtain ⟨coarseLater, steps, later⟩ := refines.step carried step
    exact ⟨coarseLater, before.steps steps, later⟩

/-! ## Reading a refinement -/

section Reading

variable {follower : Thread State Request Low LowAns Res}
  {thread : Thread State Request Op Ans Res}

theorem Refines.coarseThread (refines : sys.Refines impl lowExec fine coarse)
    (member : follower ∈ fine.threads) :
    ∃ thread ∈ coarse.threads, sys.Matches impl lowExec follower thread := by
  obtain ⟨index, found⟩ := List.getElem?_of_mem member
  obtain ⟨thread, isThread, isMatch⟩ := forall₂_getElem? refines.threads found
  exact ⟨thread, List.mem_of_getElem? isThread, isMatch⟩

theorem Refines.fineThread (refines : sys.Refines impl lowExec fine coarse)
    (member : thread ∈ coarse.threads) :
    ∃ follower ∈ fine.threads, sys.Matches impl lowExec follower thread := by
  obtain ⟨index, found⟩ := List.getElem?_of_mem member
  obtain ⟨follower, isThread, isMatch⟩ :=
    forall₂_getElem? refines.threads.flip found
  exact ⟨follower, List.mem_of_getElem? isThread, isMatch⟩

theorem Matches.done_iff (isMatch : sys.Matches impl lowExec follower thread)
    {result : Res} :
    follower.program = .done result ↔ thread.program = .done result := by
  obtain ⟨-, segments, part, -, -, progress⟩ := isMatch
  generalize follower.program = fineProgram at progress ⊢
  generalize thread.program = coarseProgram at progress ⊢
  cases progress with
  | done result' =>
      constructor
      · rintro ⟨⟩
        rfl
      · rintro ⟨⟩
        rfl
  | busy => exact ⟨nofun, nofun⟩

/-- An original step was carried out by small steps of the same thread. -/
theorem Matches.carriedOut (isMatch : sys.Matches impl lowExec follower thread)
    {event : Event Op Ans} (member : event ∈ thread.events) :
    ∃ segment, (impl event.op).Yields segment event.answer ∧
      segment ⊆ follower.events := by
  obtain ⟨-, segments, part, events, explained, -⟩ := isMatch
  obtain ⟨index, found⟩ := List.getElem?_of_mem member
  obtain ⟨segment, isSegment, yields⟩ := forall₂_getElem? explained found
  refine ⟨segment, yields, fun low lowMember => ?_⟩
  rw [events]
  exact List.mem_append_left _ (List.mem_flatten_of_mem
    (List.mem_of_getElem? isSegment) lowMember)

end Reading

/-! ## Steps that can be carried out -/

/-- A step that may have any answer and leaves the state alone can be carried
out by small steps that leave it alone. -/
theorem carries_of_still {op : Op} {still : Low → Prop}
    (kept : ∀ low, still low → ∀ lowEnv state,
      (lowExec lowEnv low state).2 = state)
    (realized : ∀ answer state, ∃ env, sys.exec env op state = (answer, state))
    {program : Program Low LowAns (Ans op)}
    (uses : program.Uses fun _ low => still low) :
    sys.Carries lowExec op program := by
  replace uses := uses []
  generalize [] = past at uses
  induction program generalizing past with
  | done answer => exact realized answer
  | step low next induction =>
      intro lowEnv state
      exact .inl ⟨kept low uses.1 lowEnv state, induction _ _ (uses.2 _)⟩

end System

end Concurrent
