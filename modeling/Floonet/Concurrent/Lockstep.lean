import Floonet.Concurrent.Program

/-!
# Programs in lockstep

Two programs are executed alone, each from a state of its own.  `Lockstep`
compares what an observer is shown of the states they pass through, and the
states they end in.  The two runs perform equally many steps, and they return
the same result.  Programs that stop at the first error compose by the rules
of their `ExceptT`.
-/

namespace Concurrent

namespace Program

variable {Op State View : Type} {Ans : Op → Type} {Res Out : Type}

/-- The states of a solo run, from the first one to the last one. -/
def visits (exec : (op : Op) → State → Ans op × State) :
    Program Op Ans Res → State → List State
  | .done _, state => [state]
  | .step op next, state =>
      state :: (next (exec op state).1).visits exec (exec op state).2

/-- From any two states in the relation `pre`, the runs show the same, state by
state, and return one result, with which `post` relates their last states. -/
def Lockstep (exec : (op : Op) → State → Ans op × State)
    (shown : State → View) (pre : State → State → Prop)
    (left right : Program Op Ans Res) (post : Res → State → State → Prop) :
    Prop :=
  ∀ state state', pre state state' →
    (left.visits exec state).map shown =
        (right.visits exec state').map shown ∧
      (left.run exec state).1 = (right.run exec state').1 ∧
      post (left.run exec state).1 (left.run exec state).2
        (right.run exec state').2

variable {exec : (op : Op) → State → Ans op × State} {shown : State → View}
  {pre : State → State → Prop} {post : Res → State → State → Prop}
  {left right : Program Op Ans Res}

/-- A run of two parts visits the states of both, the middle one once. -/
theorem visits_bind (program : Program Op Ans Res)
    (rest : Res → Program Op Ans Out) (state : State) :
    (program >>= rest).visits exec state =
      (program.visits exec state).dropLast ++
        (rest (program.run exec state).1).visits exec
          (program.run exec state).2 := by
  induction program generalizing state with
  | done result => rfl
  | step op next induction =>
      obtain ⟨first, later, visited⟩ : ∃ first later,
          (next (exec op state).1).visits exec (exec op state).2 =
            first :: later := by
        cases next (exec op state).1 with
        | done result => exact ⟨_, _, rfl⟩
        | step op' next' => exact ⟨_, _, rfl⟩
      have follows := induction (exec op state).1 (exec op state).2
      change state :: (next (exec op state).1 >>= rest).visits exec
        (exec op state).2 = (state :: (next (exec op state).1).visits exec
          (exec op state).2).dropLast ++ _
      rw [follows, visited, List.dropLast_cons_cons]
      rfl

theorem lockstep_done {result : Res}
    (shows : ∀ state state', pre state state' → shown state = shown state')
    (holds : ∀ state state', pre state state' → post result state state') :
    Lockstep exec shown pre (.done result) (.done result) post :=
  fun state state' related =>
    ⟨congrArg (fun view => [view]) (shows state state' related), rfl,
      holds state state' related⟩

theorem lockstep_perform {Answer : Type}
    {exec : (op : Op) → State → Answer × State}
    {post : Answer → State → State → Prop} {op op' : Op}
    (before : ∀ state state', pre state state' → shown state = shown state')
    (answers : ∀ state state', pre state state' →
      (exec op state).1 = (exec op' state').1)
    (after : ∀ state state', pre state state' →
      shown (exec op state).2 = shown (exec op' state').2)
    (holds : ∀ state state', pre state state' →
      post (exec op state).1 (exec op state).2 (exec op' state').2) :
    Lockstep exec shown pre (perform op) (perform op') post := by
  intro state state' related
  refine ⟨?_, answers state state' related, holds state state' related⟩
  change [shown state, shown (exec op state).2] =
    [shown state', shown (exec op' state').2]
  rw [before state state' related, after state state' related]

/-- The rule of composition. -/
theorem Lockstep.bind {middle : Res → State → State → Prop}
    {rest rest' : Res → Program Op Ans Out}
    {last : Out → State → State → Prop}
    (first : Lockstep exec shown pre left right middle)
    (later : ∀ result,
      Lockstep exec shown (middle result) (rest result) (rest' result) last) :
    Lockstep exec shown pre (left >>= rest) (right >>= rest') last := by
  intro state state' related
  obtain ⟨views, same, between⟩ := first state state' related
  obtain ⟨views', same', ends⟩ := later _ _ _ between
  rw [run_bind, run_bind, visits_bind, visits_bind, ← same, List.map_append,
    List.map_append, List.map_dropLast, List.map_dropLast, views, views']
  exact ⟨rfl, same', ends⟩

/-- The rule of consequence. -/
theorem Lockstep.mono {pre' : State → State → Prop}
    {post' : Res → State → State → Prop}
    (lockstep : Lockstep exec shown pre left right post)
    (stronger : ∀ state state', pre' state state' → pre state state')
    (weaker : ∀ result state state', post result state state' →
      post' result state state') :
    Lockstep exec shown pre' left right post' := by
  intro state state' related
  obtain ⟨views, same, ends⟩ :=
    lockstep state state' (stronger state state' related)
  exact ⟨views, same, weaker _ _ _ ends⟩

/-! ## Programs that stop at the first error -/

section Fallible

variable {Error : Type}

/-- Executed alone from a state with `before`, a program that ends without an
error ends with `after`. -/
def Ends (exec : (op : Op) → State → Ans op × State) (before : State → Prop)
    (program : ExceptT Error (Program Op Ans) Res)
    (after : Res → State → Prop) : Prop :=
  Triple exec before program.run fun result state =>
    ∀ value, result = .ok value → after value state

theorem ends_pure {before : State → Prop} {after : Res → State → Prop}
    {value : Res} (holds : ∀ state, before state → after value state) :
    Ends exec before (pure value : ExceptT Error (Program Op Ans) Res)
      after := by
  rintro state given _ ⟨⟩
  exact holds state given

theorem Ends.bind {before : State → Prop} {middle : Res → State → Prop}
    {after : Out → State → Prop} {first : ExceptT Error (Program Op Ans) Res}
    {rest : Res → ExceptT Error (Program Op Ans) Out}
    (opening : Ends exec before first middle)
    (later : ∀ value, Ends exec (middle value) (rest value) after) :
    Ends exec before (first >>= rest) after := by
  refine Triple.bind opening fun result => ?_
  cases result with
  | error reason =>
      rintro state - _ ⟨⟩
  | ok value => exact fun state holds => later value state (holds value rfl)

/-- What the first part does to the state does not matter. -/
theorem Ends.later {before : State → Prop} {after : Out → State → Prop}
    {first : ExceptT Error (Program Op Ans) Res}
    {rest : Res → ExceptT Error (Program Op Ans) Out}
    (later : ∀ value, Ends exec (fun _ => True) (rest value) after) :
    Ends exec before (first >>= rest) after :=
  have anything : Ends exec before first fun _ _ => True :=
    fun _ _ _ _ => trivial
  .bind anything later

theorem Ends.and {before before' : State → Prop}
    {after after' : Res → State → Prop}
    {program : ExceptT Error (Program Op Ans) Res}
    (left : Ends exec before program after)
    (right : Ends exec before' program after') :
    Ends exec (fun state => before state ∧ before' state) program
      fun value state => after value state ∧ after' value state :=
  fun state given value ended =>
    ⟨left state given.1 value ended, right state given.2 value ended⟩

theorem Ends.mono {before before' : State → Prop}
    {after after' : Res → State → Prop}
    {program : ExceptT Error (Program Op Ans) Res}
    (ends : Ends exec before program after)
    (stronger : ∀ state, before' state → before state)
    (weaker : ∀ value state, after value state → after' value state) :
    Ends exec before' program after' :=
  fun state given value ended =>
    weaker value _ (ends state (stronger state given) value ended)

/-- The composition of programs that stop at the first error. -/
theorem Lockstep.bindExcept {first first' : ExceptT Error (Program Op Ans) Res}
    {rest rest' : Res → ExceptT Error (Program Op Ans) Out}
    {middle : Except Error Res → State → State → Prop}
    {last : Except Error Out → State → State → Prop}
    (opening : Lockstep exec shown pre first.run first'.run middle)
    (shows : ∀ reason state state', middle (.error reason) state state' →
      shown state = shown state')
    (failed : ∀ reason state state', middle (.error reason) state state' →
      last (.error reason) state state')
    (later : ∀ result, Lockstep exec shown (middle (.ok result))
      (rest result).run (rest' result).run last) :
    Lockstep exec shown pre (first >>= rest).run (first' >>= rest').run
      last := by
  refine Lockstep.bind opening fun result => ?_
  cases result with
  | error reason => exact lockstep_done (shows reason) (failed reason)
  | ok value => exact later value

end Fallible

end Program

end Concurrent
