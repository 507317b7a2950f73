import Floonet.Clocks
import Floonet.RateFlood

/-!
# Records of the cooldowns

An operation that starts a cooldown is recorded in the map that the rate
limits use as well.  The record stays there as long as the cooldown lasts,
unless a cleanup with a shorter window drops it.
-/

namespace Floonet

open Concurrent Program System SlidingWindow

variable {ext : Extern} {cfg : Config}
  {permitted : Permission World Request Op Op.Ans Response}
  {pool later : FloonetPool}

/-! ## The map of a run -/

theorem Op.exec_keyed (env : Env) (op : Op) {world : World}
    (keyed : world.rate.Keyed) : (op.exec env world).2.rate.Keyed := by
  cases op with
  | allow => exact keyed.allow
  | cooldownActive => exact keyed.cooldownActive
  | recordOp => exact keyed.recordOp
  | _ => exact keyed

theorem Reachable.keyed
    (reachable : (server ext cfg).Reachable permitted pool) :
    pool.state.rate.Keyed := by
  refine Reachable.invariant (fun world => world.rate.Keyed) ?start ?act
    (fun _ _ keyed => keyed) reachable
  case start =>
    intro state initial
    rw [initial.rate]
    exact List.nodup_nil
  case act =>
    exact fun _ _ _ op _ env _ keyed _ _ _ => op.exec_keyed env keyed

theorem writeBuckets_plain {bucket : String}
    (known : bucket ∈ writeBuckets) : ':' ∉ bucket.toList := by
  revert bucket
  decide

/-! ## Cooldowns -/

/-- The buckets of the cooldowns, and how long each lasts. -/
def Cooldown (cfg : Config) (bucket : String) (span : Duration) : Prop :=
  bucket = "namechange" ∧ span = cfg.nameChangeCooldown ∨
    bucket = "paidpoll" ∧ span = cfg.paidPollInterval

namespace Cooldown

variable {bucket : String} {span : Duration}

theorem plain (cooldown : Cooldown cfg bucket span) :
    ':' ∉ bucket.toList := by
  rcases cooldown with ⟨rfl, -⟩ | ⟨rfl, -⟩ <;> decide

theorem unique {other : Duration} (cooldown : Cooldown cfg bucket span)
    (same : Cooldown cfg bucket other) : span = other := by
  rcases cooldown with ⟨rfl, rfl⟩ | ⟨rfl, rfl⟩
  · rcases same with ⟨-, rfl⟩ | ⟨isPoll, -⟩
    · rfl
    · exact absurd isPoll (by decide)
  · rcases same with ⟨isChange, -⟩ | ⟨-, rfl⟩
    · exact absurd isChange (by decide)
    · rfl

/-- The rate limits do not share the entries of the cooldowns. -/
theorem key_ne_allow (cooldown : Cooldown cfg bucket span)
    {key limit ip : String} {max : Nat} {window : Duration} {now : Instant}
    (limited : (Op.allow limit ip max window now).limited cfg) :
    RateMap.key bucket key ≠ RateMap.key limit ip := by
  have different : bucket ≠ "read" ∧ bucket ∉ writeBuckets := by
    rcases cooldown with ⟨rfl, -⟩ | ⟨rfl, -⟩ <;> decide
  intro same
  rcases limited with ⟨rfl, -⟩ | ⟨known, -⟩
  · exact different.1
      (RateMap.key_inj cooldown.plain (by decide) same).1
  · obtain ⟨rfl, -⟩ := RateMap.key_inj cooldown.plain
      (writeBuckets_plain known) same
    exact different.2 known

theorem window_eq (cooldown : Cooldown cfg bucket span)
    {key other key' : String} {window : Duration} {now : Instant}
    (limited : (Op.cooldownActive other key' window now).limited cfg)
    (same : RateMap.key bucket key = RateMap.key other key') :
    span = window := by
  have looked : Cooldown cfg other window := limited
  obtain ⟨rfl, -⟩ := RateMap.key_inj cooldown.plain looked.plain same
  exact cooldown.unique looked

end Cooldown

/-! ## Records that last -/

/-- The record of an operation at `since` lasts as long as the cooldown. -/
structure Lasts (bucket key : String) (span : Duration) (since : Instant)
    (world : World) : Prop where
  past : since ≤ world.instant
  stored : world.instant < since + span →
    since ∈ world.rate.hits (RateMap.key bucket key)

/-- The step cleans the map up and drops a record within the cooldown. -/
def Op.drops (bucket key : String) (span : Duration) (world : World) :
    Op → Prop
  | .allow limit ip max window now =>
      world.rate.forgets limit ip max window now (RateMap.key bucket key) span
  | _ => False

namespace Lasts

variable {bucket key : String} {span : Duration} {since : Instant}
  {world : World}

theorem recent (lasts : Lasts bucket key span since world)
    (active : world.instant < since + span) :
    since ∈ SlidingWindow.recent span world.instant
      (world.rate.hits (RateMap.key bucket key)) := by
  exact mem_recent.mpr ⟨lasts.stored active,
    Nat.sub_lt_left_of_lt_add lasts.past active⟩

theorem tick (lasts : Lasts bucket key span since world) (elapsed : Tick) :
    Lasts bucket key span since (world.tick elapsed) where
  past := Nat.le_trans lasts.past (Nat.le_add_right _ _)
  stored active := lasts.stored
    (Nat.lt_of_le_of_lt (Nat.le_add_right _ _) active)

theorem of_recent {after : World} (lasts : Lasts bucket key span since world)
    (sameInstant : after.instant = world.instant)
    (kept : SlidingWindow.recent span world.instant
        (after.rate.hits (RateMap.key bucket key)) =
      SlidingWindow.recent span world.instant
        (world.rate.hits (RateMap.key bucket key))) :
    Lasts bucket key span since after where
  past := by
    rw [sameInstant]
    exact lasts.past
  stored active := by
    rw [sameInstant] at active
    have stored := lasts.recent active
    rw [← kept] at stored
    exact (mem_recent.mp stored).1

theorem exec (lasts : Lasts bucket key span since world)
    (cooldown : Cooldown cfg bucket span) (env : Env) {op : Op}
    (limited : op.limited cfg) (keyed : world.rate.Keyed)
    (timed : ∀ now, op.timed = some now → now ≤ world.instant)
    (kept : ¬ op.drops bucket key span world) :
    Lasts bucket key span since (op.exec env world).2 := by
  have sameInstant := op.exec_instant env world
  cases op with
  | allow limit ip max window now =>
      exact lasts.of_recent sameInstant (RateMap.allow_recent_other keyed
        (cooldown.key_ne_allow limited) kept (timed now rfl))
  | cooldownActive other key' window now =>
      have narrower : RateMap.key bucket key = RateMap.key other key' →
          span ≤ window :=
        fun same => Nat.le_of_eq (cooldown.window_eq limited same)
      exact lasts.of_recent sameInstant
        (RateMap.cooldownActive_recent narrower (timed now rfl))
  | recordOp other key' =>
      refine ⟨lasts.past, fun active => ?_⟩
      have added := world.rate.recordOp_hits other key'
        (RateMap.key bucket key) world.instant
      exact added ▸ List.mem_append_left _ (lasts.stored active)
  | _ => exact ⟨lasts.past, lasts.stored⟩

theorem recorded (bucket key : String) (span : Duration) (env : Env)
    (world : World) : Lasts bucket key span world.instant
      ((Op.recordOp bucket key).exec env world).2 where
  past := Nat.le_refl _
  stored _ := by
    have added := world.rate.recordOp_hits bucket key
      (RateMap.key bucket key) world.instant
    rw [if_pos rfl] at added
    exact added ▸ List.mem_append_right _ List.mem_cons_self

/-- A cooldown that is looked up and found inactive is over. -/
theorem elapsed (lasts : Lasts bucket key span since world) {now : Instant}
    (onward : now ≤ world.instant)
    (inactive : (world.rate.cooldownActive bucket key span now).1 = false) :
    since + span ≤ world.instant := by
  rw [RateMap.cooldownActive_fst, decide_eq_false_iff_not,
    Classical.not_not, recent_eq_nil] at inactive
  apply Nat.le_of_not_lt
  intro active
  apply inactive since (lasts.stored active)
  exact Nat.lt_of_le_of_lt (Nat.sub_le_sub_right onward since)
    (Nat.sub_lt_left_of_lt_add lasts.past active)

theorem step {label : Label World Request Op Op.Ans}
    (lasts : Lasts bucket key span since pool.state)
    (cooldown : Cooldown cfg bucket span)
    (reachable : (server ext cfg).Reachable permitted pool)
    (step : (server ext cfg).Step pool label later)
    (kept : ∀ index taken, label = .act index taken →
      ¬ taken.op.drops bucket key span pool.state) :
    Lasts bucket key span since later.state := by
  cases step with
  | arrive => exact lasts
  | tick elapsed => exact lasts.tick elapsed
  | act env found pending =>
      have member := List.mem_of_getElem? found
      exact lasts.exec cooldown env
        (Reachable.within reachable member pending).limited
        (Reachable.keyed reachable)
        (fun now timed => Reachable.timed reachable member pending timed)
        (kept _ _ rfl)

end Lasts

end Floonet
