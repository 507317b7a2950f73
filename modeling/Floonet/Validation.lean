/-!
# Validation with refusals

Sequences of checks in `Except`: the first check that fails determines the
refusal.  The lemmas read acceptance as a conjunction and bound the refusals
a sequence can give.
-/

namespace Validation

variable {Refusal Value Out : Type}

/-- Go on if `condition` holds. -/
def require (condition : Bool) (refusal : Refusal) : Except Refusal Unit :=
  if condition then .ok () else .error refusal

/-- Go on with a value if there is one. -/
def demand (value : Option Value) (refusal : Refusal) :
    Except Refusal Value :=
  match value with
  | some value => .ok value
  | none => .error refusal

/-! ## Acceptance -/

@[simp] theorem require_eq_ok {condition : Bool} {refusal : Refusal}
    {done : Unit} :
    require condition refusal = .ok done ↔ condition = true := by
  unfold require
  split <;> simp_all

@[simp] theorem demand_eq_ok {option : Option Value} {refusal : Refusal}
    {value : Value} :
    demand option refusal = .ok value ↔ option = some value := by
  unfold demand
  split <;> simp_all

@[simp] theorem bind_eq_ok {first : Except Refusal Value}
    {rest : Value → Except Refusal Out} {out : Out} :
    (first >>= rest) = .ok out ↔
      ∃ value, first = .ok value ∧ rest value = .ok out := by
  cases first with
  | error refusal => simp [bind, Except.bind]
  | ok value => simp [bind, Except.bind]

@[simp] theorem pure_eq_ok {value out : Value} :
    (pure value : Except Refusal Value) = .ok out ↔ value = out := by
  simp [pure, Except.pure]

theorem toOption_eq_some {outcome : Except Refusal Value} {value : Value} :
    outcome.toOption = some value ↔ outcome = .ok value := by
  cases outcome <;> simp [Except.toOption]

-- The same for computations that may also give no outcome at all.

theorem run_bind_eq_ok {first : ExceptT Refusal Option Value}
    {rest : Value → ExceptT Refusal Option Out} {out : Out} :
    (first >>= rest).run = some (.ok out) ↔
      ∃ value, first.run = some (.ok value) ∧
        (rest value).run = some (.ok out) := by
  rw [ExceptT.run_bind]
  cases first.run with
  | none =>
      constructor
      · rintro ⟨⟩
      · rintro ⟨_, ⟨⟩, _⟩
  | some outcome =>
      cases outcome with
      | error refusal =>
          constructor
          · rintro ⟨⟩
          · rintro ⟨_, ⟨⟩, _⟩
      | ok value =>
          constructor
          · intro ran
            exact ⟨value, rfl, ran⟩
          · rintro ⟨_, ⟨⟩, ran⟩
            exact ran

theorem run_liftExcept_eq_ok {outcome : Except Refusal Value} {value : Value} :
    (liftExcept outcome : ExceptT Refusal Option Value).run =
        some (.ok value) ↔
      outcome = .ok value := by
  cases outcome with
  | error refusal =>
      constructor
      · rintro ⟨⟩
      · rintro ⟨⟩
  | ok result =>
      constructor
      · rintro ⟨⟩
        rfl
      · rintro ⟨⟩
        rfl

/-! ## Refusals -/

/-- Every refusal satisfies a condition. -/
def Refuses (condition : Refusal → Prop) (outcome : Except Refusal Value) :
    Prop :=
  ∀ refusal, outcome = .error refusal → condition refusal

section Refuses

variable {condition : Refusal → Prop}

theorem refuses_require {holds : Bool} {refusal : Refusal}
    (allowed : condition refusal) : Refuses condition (require holds refusal) := by
  intro refusal' refused
  unfold require at refused
  split at refused
  · cases refused
  · cases refused
    exact allowed

theorem refuses_demand {option : Option Value} {refusal : Refusal}
    (allowed : condition refusal) :
    Refuses condition (demand option refusal) := by
  intro refusal' refused
  unfold demand at refused
  split at refused
  · cases refused
  · cases refused
    exact allowed

theorem refuses_pure (value : Value) :
    Refuses condition (pure value : Except Refusal Value) :=
  fun _ refused => nomatch refused

theorem Refuses.bind {first : Except Refusal Value}
    {rest : Value → Except Refusal Out}
    (refuses : Refuses condition first)
    (continues : ∀ value, Refuses condition (rest value)) :
    Refuses condition (first >>= rest) := by
  intro refusal refused
  cases first with
  | error refusal' =>
      cases refused
      exact refuses refusal rfl
  | ok value => exact continues value refusal refused

end Refuses

end Validation
