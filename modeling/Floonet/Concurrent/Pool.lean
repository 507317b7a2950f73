import Floonet.Concurrent.Program

/-!
# Interleaved execution of programs

A `System` says which program serves a request, what one atomic step does to
the shared state, and how the surroundings change the state by themselves.  A
`Pool` is a shared state together with every request that ever arrived; one
move of a pool is an arrival, one atomic step of one thread, or a tick of the
surroundings.  Nothing restricts which thread moves next.

Runs can be restricted by a condition on moves, `permitted`.  The results of
this file lift facts about one move to every reachable pool: what a thread has
received (`Reachable.follows`, `Reachable.executed`), what has not been undone
since (`Reachable.pastEvolved`), and what the other threads leave alone
(`Reachable.localInvariant`).
-/

namespace Concurrent

/-- The request programs of a server and the meaning of their steps.  `Env` is
what the world outside answers, `Tick` what it changes on its own. -/
structure System (State Env Tick Request Op : Type) (Ans : Op → Type)
    (Res : Type) where
  handler : Request → Program Op Ans Res
  exec : Env → (op : Op) → State → Ans op × State
  tick : Tick → State → State
  initial : State → Prop

/-- A step that was taken, with the shared states around it. -/
structure Taken (State Op : Type) (Ans : Op → Type) extends Event Op Ans where
  before : State
  after : State

/-- A request, the rest of its program, and what it has done so far. -/
structure Thread (State Request Op : Type) (Ans : Op → Type) (Res : Type) where
  request : Request
  program : Program Op Ans Res
  past : List (Taken State Op Ans)

/-- The shared state and the threads, in the order of their arrival. -/
structure Pool (State Request Op : Type) (Ans : Op → Type) (Res : Type) where
  state : State
  threads : List (Thread State Request Op Ans Res)

/-- What a move of a pool is. -/
inductive Label (State Request Op : Type) (Ans : Op → Type) where
  | arrive (request : Request)
  | act (index : Nat) (taken : Taken State Op Ans)
  | tick

namespace Thread

variable {State Request Op : Type} {Ans : Op → Type} {Res : Type}

def events (thread : Thread State Request Op Ans Res) : List (Event Op Ans) :=
  thread.past.map Taken.toEvent

/-- The program has come to its end. -/
def Finished (thread : Thread State Request Op Ans Res) : Prop :=
  ∃ result, thread.program = .done result

theorem not_finished_of_pending {thread : Thread State Request Op Ans Res}
    {op : Op} {next : Ans op → Program Op Ans Res}
    (pending : thread.program = .step op next) : ¬ thread.Finished := by
  rintro ⟨result, done⟩
  rw [done] at pending
  cases pending

/-- The thread after it has taken a step and continues with `rest`. -/
def advance (thread : Thread State Request Op Ans Res)
    (taken : Taken State Op Ans) (rest : Program Op Ans Res) :
    Thread State Request Op Ans Res :=
  { thread with program := rest, past := thread.past ++ [taken] }

@[simp] theorem advance_request
    (thread : Thread State Request Op Ans Res)
    (taken : Taken State Op Ans) (rest : Program Op Ans Res) :
    (thread.advance taken rest).request = thread.request := rfl

@[simp] theorem advance_program
    (thread : Thread State Request Op Ans Res)
    (taken : Taken State Op Ans) (rest : Program Op Ans Res) :
    (thread.advance taken rest).program = rest := rfl

@[simp] theorem advance_past
    (thread : Thread State Request Op Ans Res)
    (taken : Taken State Op Ans) (rest : Program Op Ans Res) :
    (thread.advance taken rest).past = thread.past ++ [taken] := rfl

@[simp] theorem advance_events
    (thread : Thread State Request Op Ans Res)
    (taken : Taken State Op Ans) (rest : Program Op Ans Res) :
    (thread.advance taken rest).events =
      thread.events ++ [taken.toEvent] := by
  simp [events]

theorem mem_events {thread : Thread State Request Op Ans Res}
    {event : Event Op Ans} :
    event ∈ thread.events ↔
      ∃ taken, taken ∈ thread.past ∧ taken.toEvent = event :=
  List.mem_map

end Thread

/-- Some thread has received this answer. -/
def Pool.Saw {State Request Op : Type} {Ans : Op → Type} {Res : Type}
    (pool : Pool State Request Op Ans Res) (event : Event Op Ans) : Prop :=
  ∃ thread ∈ pool.threads, event ∈ thread.events

namespace System

variable {State Env Tick Request Op : Type} {Ans : Op → Type} {Res : Type}
  (sys : System State Env Tick Request Op Ans Res)

/-- The thread that starts to serve a request. -/
def fresh (request : Request) : Thread State Request Op Ans Res :=
  { request, program := sys.handler request, past := [] }

/-- The record of executing `op` in `state`. -/
def taken (env : Env) (op : Op) (state : State) : Taken State Op Ans :=
  { op
    answer := (sys.exec env op state).1
    before := state
    after := (sys.exec env op state).2 }

/-- A move: a request arrives, a thread takes a step, or time passes. -/
inductive Step : Pool State Request Op Ans Res → Label State Request Op Ans →
    Pool State Request Op Ans Res → Prop where
  | arrive (pool : Pool State Request Op Ans Res) (request : Request) :
      Step pool (.arrive request)
        ⟨pool.state, pool.threads ++ [sys.fresh request]⟩
  | act {pool : Pool State Request Op Ans Res} {index : Nat}
      {thread : Thread State Request Op Ans Res} {op : Op}
      {next : Ans op → Program Op Ans Res} (env : Env)
      (found : pool.threads[index]? = some thread)
      (pending : thread.program = .step op next) :
      Step pool (.act index (sys.taken env op pool.state))
        ⟨(sys.exec env op pool.state).2,
          pool.threads.set index (thread.advance
            (sys.taken env op pool.state)
            (next (sys.exec env op pool.state).1))⟩
  | tick (pool : Pool State Request Op Ans Res) (elapsed : Tick) :
      Step pool .tick ⟨sys.tick elapsed pool.state, pool.threads⟩

/-- A condition on moves. -/
abbrev Permission (State Request Op : Type) (Ans : Op → Type) (Res : Type) :=
  Pool State Request Op Ans Res → Label State Request Op Ans →
    Pool State Request Op Ans Res → Prop

/-- The condition that permits every move. -/
def anyMove : Permission State Request Op Ans Res := fun _ _ _ => True

/-- Any number of permitted moves. -/
inductive Steps (permitted : Permission State Request Op Ans Res) :
    Pool State Request Op Ans Res → Pool State Request Op Ans Res → Prop where
  | refl (pool : Pool State Request Op Ans Res) : Steps permitted pool pool
  | tail {first middle last : Pool State Request Op Ans Res}
      {label : Label State Request Op Ans} :
      Steps permitted first middle → sys.Step middle label last →
      permitted middle label last → Steps permitted first last

/-- The pools of runs that start without requests. -/
def Reachable (permitted : Permission State Request Op Ans Res)
    (pool : Pool State Request Op Ans Res) : Prop :=
  ∃ state, sys.initial state ∧ sys.Steps permitted ⟨state, []⟩ pool

variable {sys} {permitted stricter : Permission State Request Op Ans Res}
  {pool later : Pool State Request Op Ans Res}

theorem taken_eq {env : Env} {op op' : Op} {state : State} {answer : Ans op'}
    (same : (sys.taken env op state).toEvent = ⟨op', answer⟩) :
    op = op' ∧ answer = (sys.exec env op' state).1 := by
  have sameOp : op = op' := congrArg Event.op same
  subst sameOp
  exact ⟨rfl, (eq_of_heq (Event.mk.inj same).2).symm⟩

theorem Steps.trans {first middle last : Pool State Request Op Ans Res}
    (left : sys.Steps permitted first middle)
    (right : sys.Steps permitted middle last) :
    sys.Steps permitted first last := by
  induction right with
  | refl => exact left
  | tail _ step allowed induction => exact .tail induction step allowed

theorem Reachable.steps (reachable : sys.Reachable permitted pool)
    (steps : sys.Steps permitted pool later) :
    sys.Reachable permitted later := by
  obtain ⟨state, initial, fromStart⟩ := reachable
  exact ⟨state, initial, fromStart.trans steps⟩

theorem Reachable.step {label : Label State Request Op Ans}
    (reachable : sys.Reachable permitted pool)
    (step : sys.Step pool label later)
    (allowed : permitted pool label later) :
    sys.Reachable permitted later :=
  reachable.steps (.tail (.refl pool) step allowed)

theorem Reachable.start {state : State} (initial : sys.initial state) :
    sys.Reachable permitted ⟨state, []⟩ :=
  ⟨state, initial, .refl _⟩

/-- Induction over the moves of a run. -/
theorem Reachable.induct {motive : Pool State Request Op Ans Res → Prop}
    (start : ∀ state, sys.initial state → motive ⟨state, []⟩)
    (step : ∀ pool label later, sys.Reachable permitted pool → motive pool →
      sys.Step pool label later → permitted pool label later → motive later)
    (reachable : sys.Reachable permitted pool) : motive pool := by
  obtain ⟨state, initial, steps⟩ := reachable
  induction steps with
  | refl => exact start state initial
  | tail before move allowed induction =>
      exact step _ _ _ ⟨state, initial, before⟩ induction move allowed

theorem Reachable.mono
    (weaker : ∀ pool label later, sys.Reachable stricter pool →
      sys.Step pool label later → stricter pool label later →
      permitted pool label later)
    (reachable : sys.Reachable stricter pool) :
    sys.Reachable permitted pool := by
  refine Reachable.induct (motive := sys.Reachable permitted)
    ?start ?step reachable
  case start => exact fun state initial => .start initial
  case step =>
    intro pool label later before induction move allowed
    exact induction.step move (weaker _ _ _ before move allowed)

/-! ## What one move does to the threads -/

/-- A thread after a move is either the one that moved, a new one, or a thread
that was there before, at the same position. -/
theorem Step.thread_cases {label : Label State Request Op Ans} {index : Nat}
    {thread : Thread State Request Op Ans Res}
    (step : sys.Step pool label later)
    (found : later.threads[index]? = some thread) :
    (∃ request, label = .arrive request ∧ thread = sys.fresh request) ∨
    (∃ old op next env, pool.threads[index]? = some old ∧
      old.program = .step op next ∧
      label = .act index (sys.taken env op pool.state) ∧
      later.state = (sys.exec env op pool.state).2 ∧
      thread = old.advance (sys.taken env op pool.state)
        (next (sys.exec env op pool.state).1)) ∨
    (pool.threads[index]? = some thread ∧
      ∀ taken, label ≠ .act index taken) := by
  cases step with
  | arrive request =>
      rw [List.getElem?_append] at found
      split at found
      · exact .inr (.inr ⟨found, fun _ => nofun⟩)
      · left
        refine ⟨request, rfl, ?_⟩
        have member := List.mem_of_getElem? found
        simpa using member
  | @act index' old op next env oldFound pending =>
      rw [List.getElem?_set] at found
      split at found
      · rename_i same
        subst same
        split at found
        · exact .inr (.inl ⟨old, op, next, env, oldFound, pending, rfl, rfl,
            (Option.some.inj found).symm⟩)
        · cases found
      · rename_i different
        refine .inr (.inr ⟨found, ?_⟩)
        intro taken equal
        cases equal
        exact different rfl
  | tick elapsed => exact .inr (.inr ⟨found, fun _ => nofun⟩)

/-- A thread goes on serving its request. -/
theorem Step.continues {label : Label State Request Op Ans}
    (step : sys.Step pool label later)
    {thread : Thread State Request Op Ans Res}
    (member : thread ∈ pool.threads) :
    ∃ thread' ∈ later.threads, thread'.request = thread.request ∧
      thread.past <+: thread'.past := by
  cases step with
  | arrive request =>
      exact ⟨thread, List.mem_append_left _ member, rfl, List.prefix_refl _⟩
  | @act index actor op next env found pending =>
      obtain ⟨other, otherFound⟩ := List.getElem?_of_mem member
      by_cases same : index = other
      · subst same
        rw [found] at otherFound
        cases otherFound
        have bound := (List.getElem?_eq_some_iff.mp found).1
        exact ⟨_, List.mem_of_getElem? (List.getElem?_set_self bound), rfl,
          List.prefix_append _ _⟩
      · refine ⟨thread, List.mem_of_getElem? (i := other) ?_, rfl,
          List.prefix_refl _⟩
        rw [List.getElem?_set_ne same]
        exact otherFound
  | tick elapsed => exact ⟨thread, member, rfl, List.prefix_refl _⟩

/-- A thread that has finished stays as it is. -/
theorem Step.finished {label : Label State Request Op Ans}
    (step : sys.Step pool label later)
    {thread : Thread State Request Op Ans Res}
    (member : thread ∈ pool.threads) (finished : thread.Finished) :
    thread ∈ later.threads := by
  cases step with
  | arrive request => exact List.mem_append_left _ member
  | @act index actor op next env found pending =>
      obtain ⟨other, otherFound⟩ := List.getElem?_of_mem member
      refine List.mem_of_getElem? (i := other) ?_
      rw [List.getElem?_set_ne, otherFound]
      rintro rfl
      rw [found] at otherFound
      cases otherFound
      exact Thread.not_finished_of_pending pending finished
  | tick elapsed => exact member

theorem Steps.finished (steps : sys.Steps permitted pool later)
    {thread : Thread State Request Op Ans Res}
    (member : thread ∈ pool.threads) (finished : thread.Finished) :
    thread ∈ later.threads := by
  induction steps with
  | refl => exact member
  | tail _ step _ induction => exact step.finished induction finished

theorem Step.saw_iff {label : Label State Request Op Ans}
    (step : sys.Step pool label later) (event : Event Op Ans) :
    later.Saw event ↔ pool.Saw event ∨
      ∃ index taken, label = .act index taken ∧ taken.toEvent = event := by
  constructor
  · rintro ⟨thread, member, seen⟩
    obtain ⟨index, found⟩ := List.getElem?_of_mem member
    rcases step.thread_cases found with
      ⟨request, -, rfl⟩ | ⟨old, op, next, env, oldFound, -, isAct, -, rfl⟩ |
      ⟨same, -⟩
    · cases seen
    · rw [Thread.advance_events, List.mem_append, List.mem_singleton] at seen
      rcases seen with before | now
      · exact .inl ⟨old, List.mem_of_getElem? oldFound, before⟩
      · exact .inr ⟨index, _, isAct, now.symm⟩
    · exact .inl ⟨thread, List.mem_of_getElem? same, seen⟩
  · rintro (⟨thread, member, seen⟩ | ⟨_, _, isAct, rfl⟩)
    · obtain ⟨thread', member', -, more⟩ := step.continues member
      exact ⟨thread', member', (more.map Taken.toEvent).subset seen⟩
    · cases step with
      | arrive => cases isAct
      | tick => cases isAct
      | @act index thread op next env found pending =>
          cases isAct
          have bound := (List.getElem?_eq_some_iff.mp found).1
          refine ⟨_, List.mem_of_getElem? (List.getElem?_set_self bound), ?_⟩
          rw [Thread.advance_events]
          exact List.mem_append_right _ List.mem_cons_self

theorem Step.saw {label : Label State Request Op Ans}
    (step : sys.Step pool label later) {event : Event Op Ans}
    (seen : pool.Saw event) : later.Saw event :=
  (step.saw_iff event).mpr (.inl seen)

/-! ## Facts about the history of every thread -/

theorem Reachable.follows (reachable : sys.Reachable permitted pool) :
    ∀ thread ∈ pool.threads,
      (sys.handler thread.request).Follows thread.events thread.program := by
  refine Reachable.induct (motive := fun pool => ∀ thread ∈ pool.threads,
    (sys.handler thread.request).Follows thread.events thread.program)
    ?start ?step reachable
  case start => simp
  case step =>
      intro pool label later before induction move allowed thread member
      obtain ⟨index, found⟩ := List.getElem?_of_mem member
      rcases move.thread_cases found with
        ⟨request, -, rfl⟩ | ⟨old, op, next, env, oldFound, pending, -, -, rfl⟩ |
        ⟨same, -⟩
      · exact .start
      · have followed := induction old (List.mem_of_getElem? oldFound)
        rw [pending] at followed
        rw [Thread.advance_events]
        exact followed.next (sys.exec env op pool.state).1
      · exact induction thread (List.mem_of_getElem? same)

/-- The local rule of `Concurrent.Program` for the threads of a pool. -/
theorem Reachable.every
    {stepOk : Request → List (Event Op Ans) → Op → Prop}
    {resultOk : Request → List (Event Op Ans) → Res → Prop}
    (handlers : ∀ request, (sys.handler request).Every
      (stepOk request) (resultOk request) [])
    (reachable : sys.Reachable permitted pool)
    {thread : Thread State Request Op Ans Res}
    (member : thread ∈ pool.threads) :
    thread.program.Every (stepOk thread.request) (resultOk thread.request)
      thread.events :=
  (reachable.follows thread member).every (handlers thread.request)

/-- Every recorded step was executed in the state recorded before it. -/
theorem Reachable.executed (reachable : sys.Reachable permitted pool) :
    ∀ thread ∈ pool.threads, ∀ taken ∈ thread.past,
      ∃ env, taken = sys.taken env taken.op taken.before := by
  refine Reachable.induct (motive := fun pool => ∀ thread ∈ pool.threads,
    ∀ taken ∈ thread.past, ∃ env, taken = sys.taken env taken.op taken.before)
    ?start ?step reachable
  case start => simp
  case step =>
      intro pool label later before induction move allowed thread member taken
        takenMember
      obtain ⟨index, found⟩ := List.getElem?_of_mem member
      rcases move.thread_cases found with
        ⟨request, -, rfl⟩ | ⟨old, op, next, env, oldFound, pending, -, -, rfl⟩ |
        ⟨same, -⟩
      · simp [fresh] at takenMember
      · rw [Thread.advance_past, List.mem_append, List.mem_singleton]
          at takenMember
        rcases takenMember with earlier | rfl
        · exact induction old (List.mem_of_getElem? oldFound) taken earlier
        · exact ⟨env, rfl⟩
      · exact induction thread (List.mem_of_getElem? same) taken takenMember

/-- A relation on states that every move respects. -/
structure Evolution (sys : System State Env Tick Request Op Ans Res)
    (evolves : State → State → Prop) : Prop where
  refl : ∀ state, evolves state state
  trans : ∀ first middle last, evolves first middle → evolves middle last →
    evolves first last
  exec : ∀ env op state, evolves state (sys.exec env op state).2
  tick : ∀ elapsed state, evolves state (sys.tick elapsed state)

section Evolution

variable {evolves : State → State → Prop}

theorem Evolution.step (evolution : sys.Evolution evolves)
    {label : Label State Request Op Ans}
    (step : sys.Step pool label later) : evolves pool.state later.state := by
  cases step with
  | arrive => exact evolution.refl _
  | act env => exact evolution.exec _ _ _
  | tick => exact evolution.tick _ _

theorem Evolution.steps (evolution : sys.Evolution evolves)
    (steps : sys.Steps permitted pool later) :
    evolves pool.state later.state := by
  induction steps with
  | refl => exact evolution.refl _
  | tail _ step _ induction =>
      exact evolution.trans _ _ _ induction (evolution.step step)

/-- What a thread saw has only evolved since. -/
theorem Reachable.pastEvolved (evolution : sys.Evolution evolves)
    (reachable : sys.Reachable permitted pool) :
    ∀ thread ∈ pool.threads, ∀ taken ∈ thread.past,
      evolves taken.after pool.state := by
  refine Reachable.induct (motive := fun pool => ∀ thread ∈ pool.threads,
    ∀ taken ∈ thread.past, evolves taken.after pool.state)
    ?start ?step reachable
  case start => simp
  case step =>
      intro pool label later before induction move allowed thread member taken
        takenMember
      have onward := evolution.step move
      obtain ⟨index, found⟩ := List.getElem?_of_mem member
      rcases move.thread_cases found with
        ⟨request, -, rfl⟩ |
        ⟨old, op, next, env, oldFound, pending, -, sameState, rfl⟩ | ⟨same, -⟩
      · simp [fresh] at takenMember
      · rw [Thread.advance_past, List.mem_append, List.mem_singleton]
          at takenMember
        rcases takenMember with earlier | rfl
        · exact evolution.trans _ _ _
            (induction old (List.mem_of_getElem? oldFound) taken earlier)
            onward
        · rw [sameState]
          exact evolution.refl _
      · exact evolution.trans _ _ _
          (induction thread (List.mem_of_getElem? same) taken takenMember)
          onward

/-- What a thread does happens after what it did before. -/
theorem Reachable.pastOrdered (evolution : sys.Evolution evolves)
    (reachable : sys.Reachable permitted pool) :
    ∀ thread ∈ pool.threads, thread.past.Pairwise
      fun earlier later => evolves earlier.after later.before := by
  refine Reachable.induct (motive := fun pool => ∀ thread ∈ pool.threads,
    thread.past.Pairwise fun earlier later =>
      evolves earlier.after later.before) ?start ?step reachable
  case start => simp
  case step =>
      intro pool label later before induction move allowed thread member
      obtain ⟨index, found⟩ := List.getElem?_of_mem member
      rcases move.thread_cases found with
        ⟨request, -, rfl⟩ | ⟨old, op, next, env, oldFound, pending, -, -, rfl⟩ |
        ⟨same, -⟩
      · exact .nil
      · have oldMember := List.mem_of_getElem? oldFound
        rw [Thread.advance_past, List.pairwise_append]
        refine ⟨induction old oldMember, List.pairwise_singleton _ _, ?_⟩
        intro earlier earlierMember last lastMember
        rw [List.mem_singleton.mp lastMember]
        exact before.pastEvolved evolution old oldMember earlier earlierMember
      · exact induction thread (List.mem_of_getElem? same)

end Evolution

/-! ## Invariants -/

/-- An invariant of the shared state.  In the step case the acting thread's
history is available through `Reachable.every`. -/
theorem Reachable.invariant (Inv : State → Prop)
    (start : ∀ state, sys.initial state → Inv state)
    (act : ∀ (pool : Pool State Request Op Ans Res) (index : Nat)
      (thread : Thread State Request Op Ans Res) (op : Op)
      (next : Ans op → Program Op Ans Res) (env : Env),
      sys.Reachable permitted pool → Inv pool.state →
      pool.threads[index]? = some thread → thread.program = .step op next →
      permitted pool (.act index (sys.taken env op pool.state))
        ⟨(sys.exec env op pool.state).2,
          pool.threads.set index (thread.advance
            (sys.taken env op pool.state)
            (next (sys.exec env op pool.state).1))⟩ →
      Inv (sys.exec env op pool.state).2)
    (tick : ∀ elapsed state, Inv state → Inv (sys.tick elapsed state))
    (reachable : sys.Reachable permitted pool) : Inv pool.state := by
  refine Reachable.induct (motive := fun pool => Inv pool.state)
    start ?step reachable
  case step =>
      intro pool label later before induction move allowed
      cases move with
      | arrive => exact induction
      | act env found pending =>
          exact act _ _ _ _ _ env before induction found pending allowed
      | tick => exact tick _ _ induction

/-- An invariant that each thread has about the shared state: it holds on
arrival, the thread's own steps keep it and so do the moves of the others. -/
theorem Reachable.localInvariant
    (Local : Thread State Request Op Ans Res → State → Prop)
    (arrive : ∀ (pool : Pool State Request Op Ans Res) request,
      sys.Reachable permitted pool → Local (sys.fresh request) pool.state)
    (own : ∀ (pool later : Pool State Request Op Ans Res)
      (thread : Thread State Request Op Ans Res) (op : Op)
      (next : Ans op → Program Op Ans Res) (env : Env),
      sys.Reachable permitted pool → sys.Reachable permitted later →
      thread ∈ pool.threads → thread.program = .step op next →
      later.state = (sys.exec env op pool.state).2 →
      thread.advance (sys.taken env op pool.state)
        (next (sys.exec env op pool.state).1) ∈ later.threads →
      Local thread pool.state →
      Local (thread.advance (sys.taken env op pool.state)
        (next (sys.exec env op pool.state).1)) later.state)
    (others : ∀ (pool later : Pool State Request Op Ans Res)
      (label : Label State Request Op Ans) (index : Nat)
      (thread : Thread State Request Op Ans Res),
      sys.Reachable permitted pool → sys.Step pool label later →
      permitted pool label later → pool.threads[index]? = some thread →
      (∀ taken, label ≠ .act index taken) →
      Local thread pool.state → Local thread later.state)
    (reachable : sys.Reachable permitted pool) :
    ∀ thread ∈ pool.threads, Local thread pool.state := by
  refine Reachable.induct (motive := fun pool => ∀ thread ∈ pool.threads,
    Local thread pool.state) ?start ?step reachable
  case start => simp
  case step =>
      intro pool label later before induction move allowed thread member
      obtain ⟨index, found⟩ := List.getElem?_of_mem member
      rcases move.thread_cases found with
        ⟨request, rfl, rfl⟩ |
        ⟨old, op, next, env, oldFound, pending, -, sameState, rfl⟩ |
        ⟨same, notOwn⟩
      · cases move
        exact arrive pool request before
      · have oldMember := List.mem_of_getElem? oldFound
        exact own pool later old op next env before (before.step move allowed)
          oldMember pending sameState member (induction old oldMember)
      · exact others pool later label index thread before move allowed same
          notOwn (induction thread (List.mem_of_getElem? same))

end System

end Concurrent
