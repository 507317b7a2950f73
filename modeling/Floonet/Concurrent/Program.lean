/-!
# Programs made of atomic steps

A request handler of a concurrent server alternates atomic steps on the shared
state with local computation.  `Program` is the tree of its behaviours: every
node names the next atomic step, every branch a possible answer to it.  The
same tree is executed alone by `Program.run` and in any interleaving by the
pools of `Concurrent.Pool`.

`Program.Every` is the local proof rule: a property of each step and of each
result, stated about the answers the program has received so far, that holds
on every branch whatever the answers are.
-/

namespace Concurrent

/-- A program is a result, or a step and what follows its answer. -/
inductive Program (Op : Type) (Ans : Op → Type) (Res : Type) : Type where
  | done (result : Res)
  | step (op : Op) (next : Ans op → Program Op Ans Res)

/-- One atomic step of a program together with the answer it received. -/
structure Event (Op : Type) (Ans : Op → Type) where
  op : Op
  answer : Ans op

namespace Program

variable {Op State : Type} {Ans : Op → Type} {Res Out : Type}

/-- Go on with the result. -/
def bind : Program Op Ans Res → (Res → Program Op Ans Out) →
    Program Op Ans Out
  | .done result, rest => rest result
  | .step op next, rest => .step op fun answer => (next answer).bind rest

instance : Monad (Program Op Ans) where
  pure := .done
  bind := bind

/-- The program that performs one step and returns its answer. -/
def perform (op : Op) : Program Op Ans (Ans op) :=
  .step op .done

@[simp] theorem pure_eq_done (result : Res) :
    (pure result : Program Op Ans Res) = .done result := rfl

@[simp] theorem done_bind (result : Res)
    (rest : Res → Program Op Ans Out) :
    (Program.done result >>= rest) = rest result := rfl

@[simp] theorem step_bind (op : Op) (next : Ans op → Program Op Ans Res)
    (rest : Res → Program Op Ans Out) :
    (Program.step op next >>= rest) =
      .step op fun answer => next answer >>= rest := rfl

@[simp] theorem perform_bind (op : Op)
    (rest : Ans op → Program Op Ans Out) :
    (perform op >>= rest) = .step op rest := rfl

/-- The step a program is about to perform. -/
def nextOp : Program Op Ans Res → Option Op
  | .done _ => none
  | .step op _ => some op

theorem nextOp_eq_some {program : Program Op Ans Res} {op : Op} :
    program.nextOp = some op ↔ ∃ next, program = .step op next := by
  cases program with
  | done result => exact ⟨nofun, nofun⟩
  | step op' next =>
      constructor
      · intro same
        cases same
        exact ⟨next, rfl⟩
      · rintro ⟨next', same⟩
        cases same
        rfl

theorem nextOp_eq_none {program : Program Op Ans Res} :
    program.nextOp = none ↔ ∃ result, program = .done result := by
  cases program with
  | done result => exact ⟨fun _ => ⟨result, rfl⟩, fun _ => rfl⟩
  | step op next => exact ⟨nofun, nofun⟩

/-- The result of a program that has come to its end. -/
def result? : Program Op Ans Res → Option Res
  | .done result => some result
  | .step _ _ => none

theorem result?_eq_some {program : Program Op Ans Res} {result : Res} :
    program.result? = some result ↔ program = .done result := by
  cases program with
  | done result' => simp [result?]
  | step op next => simp [result?]

/-! ## Running a program alone -/

/-- Execute a program without interruption; `exec` answers each step. -/
def run (exec : (op : Op) → State → Ans op × State) :
    Program Op Ans Res → State → Res × State
  | .done result, state => (result, state)
  | .step op next, state =>
      (next (exec op state).1).run exec (exec op state).2

section Run

variable (exec : (op : Op) → State → Ans op × State)

@[simp] theorem run_done (result : Res) (state : State) :
    (Program.done result : Program Op Ans Res).run exec state =
      (result, state) := rfl

@[simp] theorem run_step (op : Op) (next : Ans op → Program Op Ans Res)
    (state : State) :
    (Program.step op next).run exec state =
      (next (exec op state).1).run exec (exec op state).2 := rfl

@[simp] theorem run_perform (op : Op) (state : State) :
    (perform op).run exec state = exec op state := rfl

theorem run_bind (program : Program Op Ans Res)
    (rest : Res → Program Op Ans Out) (state : State) :
    (program >>= rest).run exec state =
      (rest (program.run exec state).1).run exec
        (program.run exec state).2 := by
  induction program generalizing state with
  | done result => rfl
  | step op next induction => exact induction _ _

theorem run_perform_bind {op : Op} {answer : Ans op} {state after : State}
    (executed : exec op state = (answer, after))
    (rest : Ans op → Program Op Ans Out) :
    (perform op >>= rest).run exec state = (rest answer).run exec after := by
  rw [perform_bind, run_step, executed]

theorem run_preserves (Inv : State → Prop)
    (kept : ∀ op state, Inv state → Inv (exec op state).2)
    (program : Program Op Ans Res) (state : State)
    (holds : Inv state) : Inv (program.run exec state).2 := by
  induction program generalizing state with
  | done result => exact holds
  | step op next induction =>
      exact induction _ _ (kept op state holds)

end Run

/-! ## Properties of every branch -/

/-- `stepOk` holds of every step the program can perform and `resultOk` of
every result it can return; both see the answers received before. -/
def Every (stepOk : List (Event Op Ans) → Op → Prop)
    (resultOk : List (Event Op Ans) → Res → Prop) :
    Program Op Ans Res → List (Event Op Ans) → Prop
  | .done result, past => resultOk past result
  | .step op next, past =>
      stepOk past op ∧
        ∀ answer, (next answer).Every stepOk resultOk
          (past ++ [⟨op, answer⟩])

section Every

variable {stepOk stepOk' : List (Event Op Ans) → Op → Prop}
  {resultOk resultOk' : List (Event Op Ans) → Res → Prop}
  {outOk : List (Event Op Ans) → Out → Prop}
  {past : List (Event Op Ans)}

@[simp] theorem every_done {result : Res} :
    (Program.done result).Every stepOk resultOk past ↔
      resultOk past result := Iff.rfl

@[simp] theorem every_step {op : Op} {next : Ans op → Program Op Ans Res} :
    (Program.step op next).Every stepOk resultOk past ↔
      stepOk past op ∧
        ∀ answer, (next answer).Every stepOk resultOk
          (past ++ [⟨op, answer⟩]) := Iff.rfl

theorem every_bind {program : Program Op Ans Res}
    {rest : Res → Program Op Ans Out} :
    (program >>= rest).Every stepOk outOk past ↔
      program.Every stepOk
        (fun past' result => (rest result).Every stepOk outOk past') past := by
  induction program generalizing past with
  | done result => rfl
  | step op next induction =>
      exact and_congr Iff.rfl (forall_congr' fun answer => induction answer)

@[simp] theorem every_perform {resultOk : List (Event Op Ans) → Ans op → Prop} :
    (perform op).Every stepOk resultOk past ↔
      stepOk past op ∧ ∀ answer, resultOk (past ++ [⟨op, answer⟩]) answer :=
  Iff.rfl

theorem every_perform_bind {op : Op} {rest : Ans op → Program Op Ans Out} :
    (perform op >>= rest).Every stepOk outOk past ↔
      stepOk past op ∧
        ∀ answer, (rest answer).Every stepOk outOk
          (past ++ [⟨op, answer⟩]) := Iff.rfl

/-- The rule of consequence.  Only histories that extend the present one have
to be considered. -/
theorem Every.mono {program : Program Op Ans Res}
    (every : program.Every stepOk resultOk past)
    (steps : ∀ past' op, past <+: past' → stepOk past' op → stepOk' past' op)
    (results : ∀ past' result, past <+: past' →
      resultOk past' result → resultOk' past' result) :
    program.Every stepOk' resultOk' past := by
  induction program generalizing past with
  | done result => exact results past result (List.prefix_refl past) every
  | step op next induction =>
      refine ⟨steps past op (List.prefix_refl past) every.1, fun answer => ?_⟩
      have extended : past <+: past ++ [⟨op, answer⟩] :=
        List.prefix_append _ _
      exact induction answer (every.2 answer)
        (fun past' op' later => steps past' op' (extended.trans later))
        (fun past' result later => results past' result (extended.trans later))

theorem Every.and {program : Program Op Ans Res}
    (left : program.Every stepOk resultOk past)
    (right : program.Every stepOk' resultOk' past) :
    program.Every (fun past op => stepOk past op ∧ stepOk' past op)
      (fun past result => resultOk past result ∧ resultOk' past result)
      past := by
  induction program generalizing past with
  | done result => exact ⟨left, right⟩
  | step op next induction =>
      exact ⟨⟨left.1, right.1⟩, fun answer =>
        induction answer (left.2 answer) (right.2 answer)⟩

/-- Whatever a program does, its history grows. -/
theorem every_extends (program : Program Op Ans Res)
    (past : List (Event Op Ans)) :
    program.Every (fun _ _ => True) (fun past' _ => past <+: past') past := by
  induction program generalizing past with
  | done result => exact List.prefix_refl past
  | step op next induction =>
      refine ⟨trivial, fun answer => (induction answer _).mono
        (fun _ _ _ _ => trivial) fun past' _ _ extended => ?_⟩
      exact (List.prefix_append past _).trans extended

theorem Every.grows {quiet : Op → Prop} {program : Program Op Ans Res}
    (every : program.Every (fun _ op => quiet op) resultOk past) :
    program.Every (fun _ op => quiet op)
      (fun past' result => (∃ new, past' = past ++ new ∧
        ∀ event ∈ new, quiet event.op) ∧ resultOk past' result) past := by
  induction program generalizing past with
  | done result => exact ⟨⟨[], by simp, by simp⟩, every⟩
  | step op next induction =>
      refine ⟨every.1, fun answer => (induction answer (every.2 answer)).mono
        (fun _ _ _ quiet => quiet) ?_⟩
      rintro past' result - ⟨⟨new, rfl, quietNew⟩, holds⟩
      refine ⟨⟨⟨op, answer⟩ :: new, by simp, ?_⟩, holds⟩
      intro event member
      rcases List.mem_cons.mp member with rfl | old
      · exact every.1
      · exact quietNew event old

/-- A state property kept by the steps a program can perform is kept by its
run. -/
theorem Every.run_preserves {quiet : Op → Prop}
    {exec : (op : Op) → State → Ans op × State} (Inv : State → Prop)
    (kept : ∀ op state, quiet op → Inv state → Inv (exec op state).2)
    {program : Program Op Ans Res}
    (every : program.Every (fun _ op => quiet op) resultOk past)
    {state : State} (holds : Inv state) : Inv (program.run exec state).2 := by
  induction program generalizing state past with
  | done result => exact holds
  | step op next induction =>
      exact induction _ (every.2 _) (kept op state every.1 holds)

/-- A run ends with one of the results a program can return. -/
theorem Every.run_result (exec : (op : Op) → State → Ans op × State)
    {program : Program Op Ans Res} (every : program.Every stepOk resultOk past)
    (state : State) : ∃ past', resultOk past' (program.run exec state).1 := by
  induction program generalizing state past with
  | done result => exact ⟨past, every⟩
  | step op next induction => exact induction _ (every.2 _) _

theorem Every.run_congr {quiet : Op → Prop}
    {exec exec' : (op : Op) → State → Ans op × State}
    (agree : ∀ op state, quiet op → exec op state = exec' op state)
    {program : Program Op Ans Res}
    (every : program.Every (fun _ op => quiet op) resultOk past)
    (state : State) : program.run exec state = program.run exec' state := by
  induction program generalizing state past with
  | done result => rfl
  | step op next induction =>
      rw [run_step, run_step, agree op state every.1]
      exact induction _ (every.2 _) _

theorem Every.quiet_bind {quiet : Op → Prop} {program : Program Op Ans Res}
    {rest : Res → Program Op Ans Out}
    (every : program.Every (fun _ op => quiet op) resultOk past)
    (allowed : ∀ past' op, quiet op → stepOk past' op)
    (continues : ∀ new result, (∀ event ∈ new, quiet event.op) →
      resultOk (past ++ new) result →
        (rest result).Every stepOk outOk (past ++ new)) :
    (program >>= rest).Every stepOk outOk past := by
  rw [every_bind]
  apply every.grows.mono (fun past' op _ => allowed past' op)
  rintro past' result - ⟨⟨new, rfl, quietNew⟩, holds⟩
  exact continues new result quietNew holds

end Every

/-! ## Pre- and postconditions of solo runs -/

/-- Executed alone from a state with `pre`, the program ends with `post`. -/
def Triple (exec : (op : Op) → State → Ans op × State) (pre : State → Prop)
    (program : Program Op Ans Res) (post : Res → State → Prop) : Prop :=
  ∀ state, pre state →
    post (program.run exec state).1 (program.run exec state).2

section Triple

variable {exec : (op : Op) → State → Ans op × State} {pre : State → Prop}
  {post : Res → State → Prop} {program : Program Op Ans Res}

theorem triple_done {result : Res} (holds : ∀ state, pre state →
    post result state) : Triple exec pre (.done result) post :=
  holds

theorem Triple.bind {middle : Res → State → Prop}
    {rest : Res → Program Op Ans Out} {last : Out → State → Prop}
    (first : Triple exec pre program middle)
    (later : ∀ result, Triple exec (middle result) (rest result) last) :
    Triple exec pre (program >>= rest) last := by
  intro state holds
  rw [run_bind]
  exact later _ _ (first state holds)

theorem Triple.mono {post' : Res → State → Prop}
    (triple : Triple exec pre program post)
    (weaker : ∀ result state, post result state → post' result state) :
    Triple exec pre program post' :=
  fun state holds => weaker _ _ (triple state holds)

/-- What a precondition says about no state may be assumed. -/
theorem Triple.given {fact : Prop}
    (triple : fact → Triple exec pre program post) :
    Triple exec (fun state => pre state ∧ fact) program post :=
  fun state holds => triple holds.2 state holds.1

/-- Steps that keep an invariant keep it over the run of a program. -/
theorem Every.triple {quiet : Op → Prop}
    {resultOk : List (Event Op Ans) → Res → Prop}
    {past : List (Event Op Ans)}
    (every : program.Every (fun _ op => quiet op) resultOk past)
    (kept : ∀ op state, quiet op → pre state → pre (exec op state).2) :
    Triple exec pre program fun _ state => pre state :=
  fun _ holds => every.run_preserves pre kept holds

end Triple

/-! ## The steps a program can perform -/

/-- Every step of the program is `allowed`, whatever the answers are. -/
def Uses (allowed : List (Event Op Ans) → Op → Prop)
    (program : Program Op Ans Res) : Prop :=
  ∀ past, program.Every allowed (fun _ _ => True) past

section Uses

variable {allowed : List (Event Op Ans) → Op → Prop}

theorem uses_done (result : Res) :
    (Program.done result : Program Op Ans Res).Uses allowed :=
  fun _ => trivial

theorem uses_step {op : Op} {next : Ans op → Program Op Ans Res}
    (here : ∀ past, allowed past op)
    (later : ∀ answer, (next answer).Uses allowed) :
    (Program.step op next).Uses allowed :=
  fun past => ⟨here past, fun answer => later answer _⟩

theorem uses_perform {op : Op} (here : ∀ past, allowed past op) :
    (perform op : Program Op Ans (Ans op)).Uses allowed :=
  uses_step here uses_done

theorem Uses.mono {allowed' : List (Event Op Ans) → Op → Prop}
    {program : Program Op Ans Res} (uses : program.Uses allowed)
    (weaker : ∀ past op, allowed past op → allowed' past op) :
    program.Uses allowed' :=
  fun past => (uses past).mono (fun past' op _ => weaker past' op)
    fun _ _ _ _ => trivial

theorem Uses.bind {program : Program Op Ans Res}
    {rest : Res → Program Op Ans Out} (uses : program.Uses allowed)
    (later : ∀ result, (rest result).Uses allowed) :
    (program >>= rest).Uses allowed :=
  fun past => every_bind.mpr ((uses past).mono (fun _ _ _ here => here)
    fun past' result _ _ => later result past')

theorem uses_perform_bind {op : Op} {rest : Ans op → Program Op Ans Out}
    (here : ∀ past, allowed past op)
    (later : ∀ answer, (rest answer).Uses allowed) :
    (perform op >>= rest).Uses allowed :=
  uses_step here later

end Uses

/-! ## Where a program stands after some answers -/

/-- `program.Follows past rest`: having received the answers `past`, what is
left of `program` is `rest`. -/
inductive Follows (program : Program Op Ans Res) :
    List (Event Op Ans) → Program Op Ans Res → Prop where
  | start : Follows program [] program
  | next {past : List (Event Op Ans)} {op : Op}
      {next : Ans op → Program Op Ans Res} (answer : Ans op) :
      Follows program past (.step op next) →
      Follows program (past ++ [⟨op, answer⟩]) (next answer)

theorem Follows.every
    {stepOk : List (Event Op Ans) → Op → Prop}
    {resultOk : List (Event Op Ans) → Res → Prop}
    {program rest : Program Op Ans Res} {past : List (Event Op Ans)}
    (follows : program.Follows past rest)
    (every : program.Every stepOk resultOk []) :
    rest.Every stepOk resultOk past := by
  induction follows with
  | start => exact every
  | next answer _ induction => exact induction.2 answer

/-- What a step that has been taken relied on. -/
theorem Follows.relied
    {stepOk : List (Event Op Ans) → Op → Prop}
    {resultOk : List (Event Op Ans) → Res → Prop}
    {program rest : Program Op Ans Res} {past : List (Event Op Ans)}
    (follows : program.Follows past rest)
    (every : program.Every stepOk resultOk []) {event : Event Op Ans}
    (member : event ∈ past) : ∃ before ⊆ past, stepOk before event.op := by
  induction follows with
  | start => cases member
  | @next past op next answer before induction =>
      have extended : past ⊆ past ++ [⟨op, answer⟩] :=
        List.subset_append_left _ _
      rcases List.mem_append.mp member with old | new
      · obtain ⟨earlier, within, relied⟩ := induction old
        exact ⟨earlier, List.Subset.trans within extended, relied⟩
      · cases List.mem_singleton.mp new
        exact ⟨past, extended, (before.every every).1⟩

end Program

end Concurrent
