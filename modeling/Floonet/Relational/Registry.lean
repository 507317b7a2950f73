import Mathlib.Data.PEquiv

/-!
# Registries

A registry is a partial bijection between names and keys: a name has one owner
at most and a key one name.  Its moves give a free name to a key without a
name, take a name away, or hand a name over to a key without a name.
-/

namespace Relational

variable {Name Key : Type} [DecidableEq Name]

namespace Registry

/-- Take a name away from its owner. -/
def release (registry : Name ≃. Key) (name : Name) : Name ≃. Key where
  toFun other := if other = name then none else registry other
  invFun key := (registry.symm key).filter fun other => decide (other ≠ name)
  inv other key := by
    rw [Option.filter_eq_some_iff, registry.eq_some_iff, decide_eq_true_iff]
    by_cases same : other = name
    · simp [same]
    · simp [same]

section Release

variable {registry : Name ≃. Key} {name : Name} {key : Key}

@[simp] theorem release_apply (other : Name) :
    release registry name other =
      if other = name then none else registry other := rfl

/-- Nothing happens to a name that is free. -/
theorem release_eq_self (free : registry name = none) :
    release registry name = registry := by
  refine PEquiv.ext fun other => ?_
  rw [release_apply]
  split
  · rename_i same
    rw [same, free]
  · rfl

theorem release_symm_eq_none (nameless : ∀ other, registry other = some key →
    other = name) : (release registry name).symm key = none := by
  rw [Option.eq_none_iff_forall_not_mem]
  intro other isName
  have owned := (PEquiv.eq_some_iff _).mp isName
  rw [release_apply] at owned
  split at owned
  · cases owned
  · rename_i different
    exact different (nameless other owned)

end Release

variable [DecidableEq Key]

/-- Give a free name to a key that has none. -/
def assign (registry : Name ≃. Key) (name : Name) (key : Key)
    (free : registry name = none) (nameless : registry.symm key = none) :
    Name ≃. Key where
  toFun other := if other = name then some key else registry other
  invFun other := if other = key then some name else registry.symm other
  inv other owner := by
    by_cases sameName : other = name <;> by_cases sameKey : owner = key
    · simp [sameName, sameKey]
    · subst sameName
      have different : registry.symm owner ≠ some other := by
        rw [Ne, registry.eq_some_iff, free]
        exact nofun
      simp [sameKey, different, Ne.symm sameKey]
    · subst sameKey
      have different : registry other ≠ some owner := by
        rw [Ne, ← registry.eq_some_iff, nameless]
        exact nofun
      simp [sameName, different, Ne.symm sameName]
    · simp only [if_neg sameName, if_neg sameKey]
      exact registry.eq_some_iff

variable {registry : Name ≃. Key} {name : Name} {key : Key}

@[simp] theorem assign_apply {free : registry name = none}
    {nameless : registry.symm key = none} (other : Name) :
    assign registry name key free nameless other =
      if other = name then some key else registry other := rfl

/-- Releasing a name makes it free for a key that has no other name. -/
def handOver (registry : Name ≃. Key) (name : Name) (key : Key)
    (nameless : ∀ other, registry other = some key → other = name) :
    Name ≃. Key :=
  assign (release registry name) name key (by simp)
    (release_symm_eq_none nameless)

@[simp] theorem handOver_apply
    {nameless : ∀ other, registry other = some key → other = name}
    (other : Name) : handOver registry name key nameless other =
      if other = name then some key else registry other := by
  rw [handOver, assign_apply]
  split
  · rfl
  · rw [release_apply, if_neg ‹_›]

/-- One move of a registry. -/
inductive Move : (Name ≃. Key) → (Name ≃. Key) → Prop where
  | assign (registry : Name ≃. Key) (name : Name) (key : Key)
      (free : registry name = none) (nameless : registry.symm key = none) :
      Move registry (assign registry name key free nameless)
  | release (registry : Name ≃. Key) (name : Name) (key : Key)
      (owned : registry name = some key) :
      Move registry (release registry name)
  | handOver (registry : Name ≃. Key) (name : Name) (seller buyer : Key)
      (owned : registry name = some seller)
      (nameless : ∀ other, registry other = some buyer → other = name) :
      Move registry (handOver registry name buyer nameless)

end Registry

end Relational
