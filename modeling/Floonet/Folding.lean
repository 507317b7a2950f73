import Mathlib.Data.List.Basic
import Mathlib.Logic.Relation

/-!
# Erasing and swapping symbols

Texts that may be changed by inserting or deleting symbols of one kind and by
swapping paired symbols.  A partial map on symbols that erases exactly the
first and identifies exactly the second is a complete normal form: two texts
can be turned into each other if and only if it maps them to the same text.
-/

namespace Folding

variable {α : Type*}

/-- One change at one place of a text. -/
inductive Move (erased : α → Prop) (paired : α → α → Prop) :
    List α → List α → Prop where
  | insert {before after : List α} {symbol : α} : erased symbol →
      Move erased paired (before ++ after) (before ++ symbol :: after)
  | delete {before after : List α} {symbol : α} : erased symbol →
      Move erased paired (before ++ symbol :: after) (before ++ after)
  | swap {before after : List α} {left right : α} :
      paired left right ∨ paired right left →
      Move erased paired (before ++ left :: after) (before ++ right :: after)

/-- A finite sequence of changes. -/
def Turns (erased : α → Prop) (paired : α → α → Prop) :
    List α → List α → Prop :=
  Relation.ReflTransGen (Move erased paired)

/-- The fold erases exactly the symbols that may be inserted, and represents
the others by symbols they are paired with. -/
structure Normalizes (fold : α → Option α) (erased : α → Prop)
    (paired : α → α → Prop) : Prop where
  erases : ∀ symbol, fold symbol = none ↔ erased symbol
  identifies : ∀ left right, paired left right → fold left = fold right
  represents : ∀ symbol image, fold symbol = some image →
    image = symbol ∨ paired symbol image

section Changes

variable {erased : α → Prop} {paired : α → α → Prop} {left right : List α}

theorem Move.symm (move : Move erased paired left right) :
    Move erased paired right left := by
  cases move with
  | insert isErased => exact .delete isErased
  | delete isErased => exact .insert isErased
  | swap isPair => exact .swap isPair.symm

theorem Move.cons (symbol : α) (move : Move erased paired left right) :
    Move erased paired (symbol :: left) (symbol :: right) := by
  cases move with
  | @insert before _ _ isErased =>
      exact @insert _ _ _ (symbol :: before) _ _ isErased
  | @delete before _ _ isErased =>
      exact @delete _ _ _ (symbol :: before) _ _ isErased
  | @swap before _ _ _ isPair =>
      exact @swap _ _ _ (symbol :: before) _ _ _ isPair

theorem Turns.symm (turns : Turns erased paired left right) :
    Turns erased paired right left := by
  induction turns with
  | refl => exact .refl
  | tail _ move induction => exact .head move.symm induction

theorem Turns.cons (symbol : α) (turns : Turns erased paired left right) :
    Turns erased paired (symbol :: left) (symbol :: right) := by
  induction turns with
  | refl => exact .refl
  | tail _ move induction => exact .tail induction (move.cons symbol)

end Changes

namespace Normalizes

variable {fold : α → Option α} {erased : α → Prop} {paired : α → α → Prop}
  (normalizes : Normalizes fold erased paired)

include normalizes

theorem move_eq {left right : List α} (move : Move erased paired left right) :
    left.filterMap fold = right.filterMap fold := by
  cases move with
  | insert isErased =>
      rw [List.filterMap_append, List.filterMap_append,
        List.filterMap_cons_none ((normalizes.erases _).mpr isErased)]
  | delete isErased =>
      rw [List.filterMap_append, List.filterMap_append,
        List.filterMap_cons_none ((normalizes.erases _).mpr isErased)]
  | @swap before after first second isPair =>
      have same : fold first = fold second := by
        rcases isPair with forward | backward
        · exact normalizes.identifies _ _ forward
        · exact (normalizes.identifies _ _ backward).symm
      rw [List.filterMap_append, List.filterMap_append, List.filterMap_cons,
        List.filterMap_cons, same]

/-- Every text can be turned into its normal form. -/
theorem turns_filterMap (text : List α) :
    Turns erased paired text (text.filterMap fold) := by
  induction text with
  | nil => exact .refl
  | cons symbol text induction =>
      cases folded : fold symbol with
      | none =>
          rw [List.filterMap_cons_none folded]
          have isErased := (normalizes.erases symbol).mp folded
          exact .head (@Move.delete _ _ _ [] _ _ isErased) induction
      | some image =>
          rw [List.filterMap_cons_some folded]
          have rest := induction.cons image
          rcases normalizes.represents symbol image folded with same | isPair
          · rwa [same] at rest ⊢
          · exact .head (@Move.swap _ _ _ [] _ _ _ (.inl isPair)) rest

/-- The normal form is complete. -/
theorem turns_iff {left right : List α} :
    Turns erased paired left right ↔
      left.filterMap fold = right.filterMap fold := by
  constructor
  · intro turns
    induction turns with
    | refl => rfl
    | tail _ move induction => exact induction.trans (normalizes.move_eq move)
  · intro same
    have back := (normalizes.turns_filterMap right).symm
    rw [← same] at back
    exact (normalizes.turns_filterMap left).trans back

end Normalizes

end Folding
