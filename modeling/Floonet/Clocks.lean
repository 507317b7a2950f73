import Floonet.Footprint

/-!
# The clocks

The steps of the server read the clocks and only ticks move them.  The instant
that a step is given has been read before, and where time passes between
requests only it is the present one.
-/

namespace Floonet

open Concurrent Program System

variable {ext : Extern} {cfg : Config}
  {permitted : Permission World Request Op Op.Ans Response}
  {pool later : FloonetPool} {thread : FloonetThread}

theorem Op.exec_instant (env : Env) (op : Op) (world : World) :
    (op.exec env world).2.instant = world.instant := by
  cases op <;> rfl

theorem Op.exec_unixTime (env : Env) (op : Op) (world : World) :
    (op.exec env world).2.unixTime = world.unixTime := by
  cases op <;> rfl

theorem instant_evolution : (server ext cfg).Evolution
    fun earlier later => earlier.instant ≤ later.instant where
  refl _ := Nat.le_refl _
  trans _ _ _ := Nat.le_trans
  exec env op state := Nat.le_of_eq (op.exec_instant env state).symm
  tick _ _ := Nat.le_add_right _ _

theorem Reachable.within
    (reachable : (server ext cfg).Reachable permitted pool)
    (member : thread ∈ pool.threads) {op : Op}
    {next : op.Ans → Handler Response}
    (pending : thread.program = .step op next) :
    Op.Within cfg thread.request.charges thread.request.authEvent
      thread.events op := by
  have every := reachable.every
    (fun request => routes_uses ext cfg request []) member
  rw [pending] at every
  exact every.1

/-- What a thread has received is the outcome of one of its steps. -/
theorem Reachable.received
    (reachable : (server ext cfg).Reachable permitted pool)
    (member : thread ∈ pool.threads) {op : Op} {answer : op.Ans}
    (saw : History.Saw thread.events op answer) :
    ∃ taken ∈ thread.past, taken.op = op ∧
      ∃ env, answer = (op.exec env taken.before).1 := by
  obtain ⟨taken, takenMember, isRead⟩ := Thread.mem_events.mp saw
  obtain ⟨env, executed⟩ := reachable.executed thread member taken takenMember
  rw [executed] at isRead
  obtain ⟨isOp, isAnswer⟩ := taken_eq isRead
  exact ⟨taken, takenMember, isOp, env, isAnswer⟩

theorem Reachable.timed_saw
    (reachable : (server ext cfg).Reachable permitted pool)
    (member : thread ∈ pool.threads) {op : Op}
    {next : op.Ans → Handler Response}
    (pending : thread.program = .step op next) {now : Instant}
    (timed : op.timed = some now) :
    History.Saw thread.events .instantNow now := by
  obtain ⟨earlier, isEvents⟩ :=
    (Reachable.within reachable member pending).timed now timed
  rw [isEvents]
  exact List.mem_append_right _ List.mem_cons_self

/-- No step is given an instant that lies in the future. -/
theorem Reachable.timed
    (reachable : (server ext cfg).Reachable permitted pool)
    (member : thread ∈ pool.threads) {op : Op}
    {next : op.Ans → Handler Response}
    (pending : thread.program = .step op next) {now : Instant}
    (timed : op.timed = some now) : now ≤ pool.state.instant := by
  obtain ⟨taken, takenMember, isOp, env, rfl⟩ := Reachable.received reachable
    member (Reachable.timed_saw reachable member pending timed)
  obtain ⟨env, executed⟩ := reachable.executed thread member taken takenMember
  have onward := reachable.pastEvolved instant_evolution thread member taken
    takenMember
  rw [executed, isOp] at onward
  exact onward

/-! ## Requests that take no time -/

/-- Time passes between requests only. -/
def servedAtOnce : Permission World Request Op Op.Ans Response :=
  fun pool label _ => label = .tick → ∀ thread ∈ pool.threads, thread.Finished

/-- The clocks show the same time. -/
structure World.SameTime (earlier later : World) : Prop where
  unixTime : later.unixTime = earlier.unixTime
  instant : later.instant = earlier.instant

theorem World.SameTime.trans {first middle last : World}
    (left : first.SameTime middle) (right : middle.SameTime last) :
    first.SameTime last where
  unixTime := right.unixTime.trans left.unixTime
  instant := right.instant.trans left.instant

theorem Op.exec_sameTime (env : Env) (op : Op) (world : World) :
    world.SameTime (op.exec env world).2 where
  unixTime := op.exec_unixTime env world
  instant := op.exec_instant env world

theorem Step.sameTime {label : Label World Request Op Op.Ans}
    (step : (server ext cfg).Step pool label later) (still : label ≠ .tick) :
    pool.state.SameTime later.state := by
  cases step with
  | arrive => exact ⟨rfl, rfl⟩
  | act env => exact Op.exec_sameTime env _ _
  | tick => exact absurd rfl still

/-- While a request is served the clocks stand still. -/
theorem Reachable.sameTime
    (reachable : (server ext cfg).Reachable servedAtOnce pool)
    (member : thread ∈ pool.threads) (running : ¬ thread.Finished) :
    ∀ taken ∈ thread.past, taken.before.SameTime pool.state := by
  refine Reachable.localInvariant (fun thread state => ¬ thread.Finished →
    ∀ taken ∈ thread.past, taken.before.SameTime state)
    ?arrive ?own ?others reachable thread member running
  case arrive =>
    intro pool request _ _ taken takenMember
    cases takenMember
  case own =>
    intro pool later thread op next env _ _ _ pending sameState _ induction _
      taken takenMember
    have onward : pool.state.SameTime later.state := by
      rw [sameState]
      exact op.exec_sameTime env pool.state
    rcases List.mem_append.mp takenMember with old | new
    · exact (induction (Thread.not_finished_of_pending pending) taken old).trans
        onward
    · rw [List.mem_singleton.mp new]
      exact onward
  case others =>
    intro pool later label index thread before step allowed found other
      induction running taken takenMember
    have still : label ≠ .tick := fun isTick =>
      running (allowed isTick thread (List.mem_of_getElem? found))
    exact (induction running taken takenMember).trans (Step.sameTime step still)

section AtOnce

variable (reachable : (server ext cfg).Reachable servedAtOnce pool)
  (member : thread ∈ pool.threads) (running : ¬ thread.Finished)
include reachable member running

theorem Reachable.unixNow {now : Int}
    (saw : History.Saw thread.events .unixNow now) :
    now = pool.state.unixTime.seconds := by
  obtain ⟨taken, takenMember, -, env, rfl⟩ :=
    Reachable.received reachable member saw
  have same := Reachable.sameTime reachable member running taken takenMember
  rw [same.unixTime]
  rfl

theorem Reachable.instantNow {now : Instant}
    (saw : History.Saw thread.events .instantNow now) :
    now = pool.state.instant := by
  obtain ⟨taken, takenMember, -, env, rfl⟩ :=
    Reachable.received reachable member saw
  have same := Reachable.sameTime reachable member running taken takenMember
  rw [same.instant]
  rfl

end AtOnce

end Floonet
