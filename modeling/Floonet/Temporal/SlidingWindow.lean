import Mathlib.Algebra.Group.Nat.Defs

/-!
# Sliding windows

A limiter that admits an event when fewer than `max` of the admitted ones lie
within the last `window` instants admits at most `max` in every half-open
interval of this length.
-/

namespace SlidingWindow

variable {window now : Nat} {times : List Nat}

/-- The instants that lie less than `window` before `now`. -/
def recent (window now : Nat) (times : List Nat) : List Nat :=
  times.filter fun time => decide (now - time < window)

/-- The instants in the half-open interval of length `window` from `start`. -/
def during (window start : Nat) (times : List Nat) : List Nat :=
  times.filter fun time => decide (start ≤ time ∧ time < start + window)

@[simp] theorem recent_nil : recent window now [] = [] := rfl

@[simp] theorem recent_append (times new : List Nat) :
    recent window now (times ++ new) =
      recent window now times ++ recent window now new :=
  List.filter_append times new

theorem mem_recent {time : Nat} :
    time ∈ recent window now times ↔ time ∈ times ∧ now - time < window := by
  simp [recent]

theorem recent_eq_nil :
    recent window now times = [] ↔
      ∀ time ∈ times, ¬ now - time < window := by
  simp [recent, List.filter_eq_nil_iff]

theorem recent_sublist : (recent window now times).Sublist times :=
  List.filter_sublist

/-- What is not recent now is not recent later, and a narrower window sees
less. -/
theorem recent_recent {wide later : Nat} (narrower : window ≤ wide)
    (onward : now ≤ later) :
    recent window later (recent wide now times) =
      recent window later times := by
  rw [recent, recent, recent, List.filter_filter]
  refine List.filter_congr fun time _ => ?_
  simp only [Bool.and_eq_decide, decide_eq_true_iff, decide_eq_decide]
  omega

theorem recent_eq_nil_mono {wide later : Nat} (narrower : window ≤ wide)
    (onward : now ≤ later) (none : recent wide now times = []) :
    recent window later times = [] := by
  rw [← recent_recent narrower onward, none, recent_nil]

theorem during_sublist {start : Nat} (inside : now < start + window)
    (past : ∀ time ∈ times, time ≤ now) :
    (during window start times).Sublist (recent window now times) := by
  have narrowed : during window start times =
      (recent window now times).filter fun time => decide (start ≤ time) := by
    rw [during, recent, List.filter_filter]
    refine List.filter_congr fun time member => ?_
    have bound := past time member
    simp only [Bool.and_eq_decide, decide_eq_true_iff, decide_eq_decide]
    omega
  rw [narrowed]
  exact List.filter_sublist

/-- Admitting an event where there is room keeps the bound on every
interval. -/
theorem length_during_snoc {max : Nat}
    (bounded : ∀ start, (during window start times).length ≤ max)
    (past : ∀ time ∈ times, time ≤ now)
    (room : (recent window now times).length < max) (start : Nat) :
    (during window start (times ++ [now])).length ≤ max := by
  have split : during window start (times ++ [now]) =
      during window start times ++ during window start [now] :=
    List.filter_append times [now]
  rw [split, List.length_append]
  by_cases inside : start ≤ now ∧ now < start + window
  · have earlier := (during_sublist inside.2 past).length_le
    have one : (during window start [now]).length ≤ 1 :=
      List.length_filter_le _ [now]
    omega
  · have none : during window start [now] = [] := by
      simp [during, inside]
    rw [none, List.length_nil]
    exact bounded start

end SlidingWindow
