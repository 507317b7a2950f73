import Floonet.Concurrent.Pool

/-!
# Serving one request at a time

`System.SerialRun` is the sequential reading of a system: requests are served
to completion one after the other, and the surroundings tick only in between.
It is embedded into the pools by `SerialRun.embed`, so an invariant of all
restricted interleavings is an invariant of serial runs as soon as the
restriction never concerns a thread that runs alone.

`System.play` executes an explicit schedule and `System.conduct` an explicit
serial one.  Their requests are `Served`: they carry the program that serves
them in any convenient form.
-/

namespace Concurrent

/-- One request served alone, with the states around it. -/
structure Exchange (State Env Request Res : Type) where
  request : Request
  env : Env
  before : State
  response : Res
  after : State

namespace System

variable {State Env Tick Request Op : Type} {Ans : Op → Type} {Res : Type}
  (sys : System State Env Tick Request Op Ans Res)

/-- Serve a request without interruption. -/
def exchange (env : Env) (request : Request) (state : State) :
    Exchange State Env Request Res :=
  { request
    env
    before := state
    response := ((sys.handler request).run (sys.exec env) state).1
    after := ((sys.handler request).run (sys.exec env) state).2 }

/-- `sys.SerialRun log state`: serving the requests of `log` one at a time
leads from an initial state to `state`. -/
inductive SerialRun : List (Exchange State Env Request Res) → State → Prop where
  | start {state : State} : sys.initial state → SerialRun [] state
  | tick {log : List (Exchange State Env Request Res)} {state : State}
      (elapsed : Tick) :
      SerialRun log state → SerialRun log (sys.tick elapsed state)
  | serve {log : List (Exchange State Env Request Res)} {state : State}
      (env : Env) (request : Request) :
      SerialRun log state →
      SerialRun (log ++ [sys.exchange env request state])
        (sys.exchange env request state).after

/-- A request and a form of the program that serves it. -/
structure Served where
  request : Request
  program : Program Op Ans Res
  serves : sys.handler request = program

/-- One move of an explicit schedule. -/
inductive Move where
  | arrive (served : sys.Served)
  | act (index : Nat) (env : Env)
  | tick (elapsed : Tick)

/-- Execute one move, if the thread it names can act. -/
def move (pool : Pool State Request Op Ans Res) :
    sys.Move → Option (Label State Request Op Ans ×
      Pool State Request Op Ans Res)
  | .arrive served =>
      some (.arrive served.request,
        ⟨pool.state, pool.threads ++ [⟨served.request, served.program, []⟩]⟩)
  | .act index env =>
      match pool.threads[index]? with
      | none => none
      | some thread =>
          match thread.program with
          | .done _ => none
          | .step op next =>
              some (.act index (sys.taken env op pool.state),
                ⟨(sys.exec env op pool.state).2,
                  pool.threads.set index (thread.advance
                    (sys.taken env op pool.state)
                    (next (sys.exec env op pool.state).1))⟩)
  | .tick elapsed => some (.tick, ⟨sys.tick elapsed pool.state, pool.threads⟩)

/-- Execute a schedule as long as its moves pass a test. -/
def play (allows : Pool State Request Op Ans Res →
      Label State Request Op Ans → Pool State Request Op Ans Res → Bool)
    (pool : Pool State Request Op Ans Res) :
    List sys.Move → Option (Pool State Request Op Ans Res)
  | [] => some pool
  | first :: moves => (sys.move pool first).bind fun moved =>
      if allows pool moved.1 moved.2 then play allows moved.2 moves else none

/-- The moves of one request that is served without interruption. -/
def alone (served : sys.Served) (index : Nat) (env : Env) (count : Nat) :
    List sys.Move :=
  .arrive served :: List.replicate count (.act index env)

/-- One turn of an explicit serial schedule. -/
inductive Turn where
  | serve (env : Env) (served : sys.Served)
  | tick (elapsed : Tick)

/-- The exchange of a request whose program is given. -/
def Served.exchange {sys : System State Env Tick Request Op Ans Res}
    (served : sys.Served) (env : Env) (state : State) :
    Exchange State Env Request Res :=
  { request := served.request
    env
    before := state
    response := (served.program.run (sys.exec env) state).1
    after := (served.program.run (sys.exec env) state).2 }

/-- Execute a serial schedule. -/
def conduct : List sys.Turn → State →
    List (Exchange State Env Request Res) × State
  | [], state => ([], state)
  | .serve env served :: turns, state =>
      let now := served.exchange env state
      let rest := conduct turns now.after
      (now :: rest.1, rest.2)
  | .tick elapsed :: turns, state => conduct turns (sys.tick elapsed state)

variable {sys} {permitted : Permission State Request Op Ans Res}
  {pool later : Pool State Request Op Ans Res}

theorem move_step {first : sys.Move} {label : Label State Request Op Ans}
    (moved : sys.move pool first = some (label, later)) :
    sys.Step pool label later := by
  cases first with
  | arrive served =>
      obtain ⟨request, program, serves⟩ := served
      subst serves
      cases moved
      exact .arrive pool request
  | act index env =>
      simp only [move] at moved
      split at moved
      · cases moved
      · rename_i thread found
        split at moved
        · cases moved
        · rename_i op next pending
          cases moved
          exact .act env found pending
  | tick elapsed =>
      cases moved
      exact .tick pool elapsed

theorem play_steps {allows : Pool State Request Op Ans Res →
      Label State Request Op Ans → Pool State Request Op Ans Res → Bool}
    (sound : ∀ before label after, allows before label after = true →
      permitted before label after)
    {moves : List sys.Move} (played : sys.play allows pool moves = some later) :
    sys.Steps permitted pool later := by
  induction moves generalizing pool with
  | nil =>
      cases played
      exact .refl _
  | cons first moves induction =>
      obtain ⟨⟨label, middle⟩, moved, rest⟩ :=
        Option.bind_eq_some_iff.mp played
      dsimp only at rest
      split at rest
      · rename_i allowed
        exact (Steps.tail (.refl pool) (move_step moved)
          (sound _ _ _ allowed)).trans (induction rest)
      · cases rest

/-- A schedule from an initial state, and what can be read off its end. -/
theorem play_reaches {Holds : Pool State Request Op Ans Res → Prop}
    [DecidablePred Holds]
    (allows : Pool State Request Op Ans Res → Label State Request Op Ans →
      Pool State Request Op Ans Res → Bool)
    (sound : ∀ before label after, allows before label after = true →
      permitted before label after)
    {state : State} (initial : sys.initial state) (moves : List sys.Move)
    (played : (sys.play allows ⟨state, []⟩ moves).any
      (fun pool => decide (Holds pool)) = true) :
    ∃ pool, sys.Reachable permitted pool ∧ Holds pool := by
  obtain ⟨pool, reached, holds⟩ := (Option.any_eq_true _ _).mp played
  exact ⟨pool, ⟨state, initial, play_steps sound reached⟩,
    of_decide_eq_true holds⟩

theorem play_continues
    {Holds : Pool State Request Op Ans Res → Pool State Request Op Ans Res →
      Prop} [∀ first later, Decidable (Holds first later)]
    (allows : Pool State Request Op Ans Res → Label State Request Op Ans →
      Pool State Request Op Ans Res → Bool)
    (sound : ∀ before label after, allows before label after = true →
      permitted before label after)
    {state : State} (initial : sys.initial state)
    (moves more : List sys.Move)
    (played : (sys.play allows ⟨state, []⟩ moves).any (fun first =>
      (sys.play allows first more).any fun later =>
        decide (Holds first later)) = true) :
    ∃ first later, sys.Reachable permitted first ∧
      sys.Steps permitted first later ∧ Holds first later := by
  obtain ⟨first, reached, continued⟩ := (Option.any_eq_true _ _).mp played
  obtain ⟨later, reachedLater, holds⟩ := (Option.any_eq_true _ _).mp continued
  exact ⟨first, later, ⟨state, initial, play_steps sound reached⟩,
    play_steps sound reachedLater, of_decide_eq_true holds⟩

theorem play_steps_once
    {Holds : Pool State Request Op Ans Res → Label State Request Op Ans →
      Pool State Request Op Ans Res → Prop}
    [∀ before label after, Decidable (Holds before label after)]
    (allows : Pool State Request Op Ans Res → Label State Request Op Ans →
      Pool State Request Op Ans Res → Bool)
    (sound : ∀ before label after, allows before label after = true →
      permitted before label after)
    {state : State} (initial : sys.initial state) (moves : List sys.Move)
    (last : sys.Move)
    (played : (sys.play allows ⟨state, []⟩ moves).any (fun pool =>
      (sys.move pool last).any fun moved => allows pool moved.1 moved.2 &&
        decide (Holds pool moved.1 moved.2)) = true) :
    ∃ pool label later, sys.Reachable permitted pool ∧
      sys.Step pool label later ∧ permitted pool label later ∧
        Holds pool label later := by
  obtain ⟨pool, reached, moves⟩ := (Option.any_eq_true _ _).mp played
  obtain ⟨⟨label, later⟩, moved, holds⟩ := (Option.any_eq_true _ _).mp moves
  rw [Bool.and_eq_true, decide_eq_true_iff] at holds
  exact ⟨pool, label, later, ⟨state, initial, play_steps sound reached⟩,
    move_step moved, sound _ _ _ holds.1, holds.2⟩

theorem Served.exchange_eq (served : sys.Served) (env : Env) (state : State) :
    served.exchange env state = sys.exchange env served.request state := by
  obtain ⟨request, program, serves⟩ := served
  subst serves
  rfl

theorem SerialRun.serveBy {log : List (Exchange State Env Request Res)}
    {state : State} (run : sys.SerialRun log state) (env : Env)
    (served : sys.Served) :
    sys.SerialRun (log ++ [served.exchange env state])
      (served.exchange env state).after := by
  rw [served.exchange_eq]
  exact run.serve env served.request

theorem SerialRun.conduct {log : List (Exchange State Env Request Res)}
    {state : State} (run : sys.SerialRun log state) (turns : List sys.Turn) :
    sys.SerialRun (log ++ (sys.conduct turns state).1)
      (sys.conduct turns state).2 := by
  induction turns generalizing log state with
  | nil =>
      rw [System.conduct, List.append_nil]
      exact run
  | cons turn turns induction =>
      cases turn with
      | serve env served =>
          have extended := induction (run.serveBy env served)
          rw [List.append_assoc] at extended
          exact extended
      | tick elapsed => exact induction (run.tick elapsed)

theorem conduct_reaches
    {Holds : List (Exchange State Env Request Res) → State → Prop}
    [∀ log state, Decidable (Holds log state)] {state : State}
    (initial : sys.initial state) (turns : List sys.Turn)
    (conducted : decide (Holds (sys.conduct turns state).1
      (sys.conduct turns state).2) = true) :
    ∃ log final, sys.SerialRun log final ∧ Holds log final :=
  ⟨_, _, SerialRun.conduct (.start initial) turns,
    of_decide_eq_true conducted⟩

theorem SerialRun.split {log before after : List (Exchange State Env Request Res)}
    {served : Exchange State Env Request Res} {state : State}
    (run : sys.SerialRun log state) (parts : log = before ++ served :: after) :
    sys.SerialRun before served.before ∧
      served = sys.exchange served.env served.request served.before := by
  induction run generalizing after with
  | start initial => simp at parts
  | tick elapsed _ induction => exact induction parts
  | @serve log state env request run induction =>
      rcases List.eq_nil_or_concat after with rfl | ⟨middle, last, rfl⟩
      · obtain ⟨rfl, same⟩ := List.append_inj' parts rfl
        cases same
        exact ⟨run, rfl⟩
      · rw [List.concat_eq_append, ← List.cons_append, ← List.append_assoc]
          at parts
        exact induction (List.append_inj' parts rfl).1

theorem SerialRun.evolved {evolves : State → State → Prop}
    (evolution : sys.Evolution evolves)
    {log : List (Exchange State Env Request Res)} {state : State}
    (run : sys.SerialRun log state) :
    ∀ served ∈ log, evolves served.after state := by
  induction run with
  | start initial => simp
  | tick elapsed _ induction =>
      intro served member
      exact evolution.trans _ _ _ (induction served member)
        (evolution.tick elapsed _)
  | @serve log state env request _ induction =>
      have onward : evolves state (sys.exchange env request state).after :=
        Program.run_preserves (sys.exec env) (evolves state)
          (fun op later reached =>
            evolution.trans _ _ _ reached (evolution.exec env op later))
          (sys.handler request) state (evolution.refl state)
      intro served member
      rcases List.mem_append.mp member with old | new
      · exact evolution.trans _ _ _ (induction served old) onward
      · rw [List.mem_singleton.mp new]
        exact evolution.refl _

/-! ## The serial schedules among all schedules -/

/-- Nothing but steps of the running thread happens while a thread runs. -/
def oneAtATime : Permission State Request Op Ans Res :=
  fun pool label _ => (∀ index taken, label ≠ .act index taken) →
    ∀ thread ∈ pool.threads, thread.Finished

theorem Reachable.lastRuns (reachable : sys.Reachable oneAtATime pool) :
    ∃ idle running, pool.threads = idle ++ running ∧ running.length ≤ 1 ∧
      ∀ thread ∈ idle, thread.Finished := by
  refine Reachable.induct (motive := fun pool =>
    ∃ idle running, pool.threads = idle ++ running ∧ running.length ≤ 1 ∧
      ∀ thread ∈ idle, thread.Finished) ?start ?step reachable
  case start => exact fun _ _ => ⟨[], [], rfl, by simp, by simp⟩
  case step =>
      intro pool label later before induction move allowed
      cases move with
      | arrive request =>
          exact ⟨pool.threads, [sys.fresh request], rfl, by simp,
            allowed fun _ _ => nofun⟩
      | @act index thread op next env found pending =>
          obtain ⟨idle, running, split, short, finished⟩ := induction
          refine ⟨idle, running.set (index - idle.length) (thread.advance
            (sys.taken env op pool.state)
            (next (sys.exec env op pool.state).1)), ?_, by simpa, finished⟩
          have beyond : idle.length ≤ index := by
            apply Nat.le_of_not_lt
            intro within
            rw [split, List.getElem?_append_left within] at found
            obtain ⟨result, done⟩ :=
              finished thread (List.mem_of_getElem? found)
            rw [done] at pending
            cases pending
          simp only [split, List.set_append_right _ _ beyond]
      | tick elapsed => exact induction

theorem Reachable.othersFinished (reachable : sys.Reachable oneAtATime pool)
    {index other : Nat} {thread bystander : Thread State Request Op Ans Res}
    {op : Op} {next : Ans op → Program Op Ans Res}
    (found : pool.threads[index]? = some thread)
    (pending : thread.program = .step op next)
    (otherFound : pool.threads[other]? = some bystander)
    (different : other ≠ index) : bystander.Finished := by
  obtain ⟨idle, running, split, short, finished⟩ := reachable.lastRuns
  have running_index : ∀ {position : Nat}
      {candidate : Thread State Request Op Ans Res},
      pool.threads[position]? = some candidate →
      candidate ∈ idle ∨ position = idle.length := by
    intro position candidate candidateFound
    rw [split] at candidateFound
    by_cases within : position < idle.length
    · rw [List.getElem?_append_left within] at candidateFound
      exact .inl (List.mem_of_getElem? candidateFound)
    · have bound := (List.getElem?_eq_some_iff.mp candidateFound).1
      rw [List.length_append] at bound
      exact .inr (by omega)
  rcases running_index otherFound with member | last
  · exact finished bystander member
  · rcases running_index found with member | sameLast
    · obtain ⟨result, done⟩ := finished thread member
      rw [done] at pending
      cases pending
    · exact absurd (last.trans sameLast.symm) different

/-- In a serial run, whatever the steps of an unfinished thread have left
alone is still as it was when the thread saw it. -/
theorem Reachable.ownPast {R : State → State → Prop}
    (refl : ∀ state, R state state)
    (trans : ∀ first middle last, R first middle → R middle last →
      R first last)
    (reachable : sys.Reachable oneAtATime pool)
    {thread : Thread State Request Op Ans Res}
    (member : thread ∈ pool.threads) (running : ¬ thread.Finished)
    (steps : ∀ taken ∈ thread.past, R taken.before taken.after) :
    ∀ taken ∈ thread.past, R taken.after pool.state := by
  refine Reachable.localInvariant (fun thread state => ¬ thread.Finished →
    (∀ taken ∈ thread.past, R taken.before taken.after) →
      ∀ taken ∈ thread.past, R taken.after state)
    ?arrive ?own ?others reachable thread member running steps
  case arrive =>
    intro pool request _ _ _ taken takenMember
    cases takenMember
  case own =>
    intro pool later thread op next env _ _ _ pending sameState _ induction _
      steps taken takenMember
    have unfinished := Thread.not_finished_of_pending pending
    have last : R pool.state later.state := by
      rw [sameState]
      exact steps _ (List.mem_append_right _ List.mem_cons_self)
    rcases List.mem_append.mp takenMember with old | new
    · have earlier := induction unfinished (fun taken member =>
        steps taken (List.mem_append_left _ member)) taken old
      exact trans _ _ _ earlier last
    · rw [List.mem_singleton.mp new, sameState]
      exact refl _
  case others =>
    intro pool later label index thread before move allowed found other
      induction running steps taken takenMember
    have finished : thread.Finished := by
      cases move with
      | arrive request =>
          exact allowed (fun _ _ => nofun) thread (List.mem_of_getElem? found)
      | @act acting actor op next env actorFound pending =>
          apply before.othersFinished actorFound pending found
          intro same
          subst same
          exact other _ rfl
      | tick elapsed =>
          exact allowed (fun _ _ => nofun) thread (List.mem_of_getElem? found)
    exact absurd finished running

theorem Step.actLast (env : Env) {state : State}
    {idle : List (Thread State Request Op Ans Res)} {request : Request}
    {op : Op} {next : Ans op → Program Op Ans Res}
    {past : List (Taken State Op Ans)} :
    sys.Step ⟨state, idle ++ [⟨request, .step op next, past⟩]⟩
      (.act idle.length (sys.taken env op state))
      ⟨(sys.exec env op state).2, idle ++ [⟨request,
        next (sys.exec env op state).1, past ++ [sys.taken env op state]⟩]⟩ := by
  have found : (idle ++ [(⟨request, .step op next, past⟩ :
      Thread State Request Op Ans Res)])[idle.length]? =
      some ⟨request, .step op next, past⟩ := by simp
  have step : sys.Step ⟨state, _⟩ _ _ := .act env found rfl
  simpa [Thread.advance] using step

variable (sys) in
theorem run_steps (env : Env) (program : Program Op Ans Res)
    (state : State) (idle : List (Thread State Request Op Ans Res))
    (request : Request) (past : List (Taken State Op Ans)) :
    ∃ past', sys.Steps oneAtATime
      ⟨state, idle ++ [⟨request, program, past⟩]⟩
      ⟨(program.run (sys.exec env) state).2,
        idle ++ [⟨request, .done (program.run (sys.exec env) state).1,
          past'⟩]⟩ := by
  induction program generalizing state past with
  | done result => exact ⟨past, .refl _⟩
  | step op next induction =>
      obtain ⟨past', rest⟩ := induction (sys.exec env op state).1
        (sys.exec env op state).2 (past ++ [sys.taken env op state])
      refine ⟨past', Steps.trans (.tail (.refl _) (.actLast env) ?_) rest⟩
      exact fun notAct => absurd rfl (notAct _ _)

/-- A serial run is a run of the pools: its state is reached with every
thread finished. -/
theorem SerialRun.embed {log : List (Exchange State Env Request Res)}
    {state : State} (run : sys.SerialRun log state) :
    ∃ threads, sys.Reachable oneAtATime ⟨state, threads⟩ ∧
      ∀ thread ∈ threads, thread.Finished := by
  induction run with
  | start initial => exact ⟨[], .start initial, by simp⟩
  | tick elapsed _ induction =>
      obtain ⟨threads, reachable, finished⟩ := induction
      exact ⟨threads, reachable.step (.tick _ elapsed) fun _ => finished,
        finished⟩
  | @serve log state env request _ induction =>
      obtain ⟨threads, reachable, finished⟩ := induction
      have arrived := reachable.step (.arrive _ request) fun _ => finished
      obtain ⟨past, steps⟩ := run_steps sys env
        (sys.handler request) state threads request []
      refine ⟨_, arrived.steps steps, ?_⟩
      intro thread member
      rcases List.mem_append.mp member with old | new
      · exact finished thread old
      · rw [List.mem_singleton] at new
        exact ⟨_, congrArg Thread.program new⟩

end System

end Concurrent
