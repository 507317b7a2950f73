import Floonet.Config
import Floonet.MachineInt

/-!
# In-memory rate limiting, cooldowns and replay tracking

The two maps behind `ratelimit.rs`.  Instants of the monotonic clock are
nanoseconds; `duration_since` saturates at zero, as `Nat` subtraction does.
-/

namespace Floonet

open MachineInt

/-- Nanoseconds of the monotonic clock. -/
abbrev Instant := Nat

/-- The hits of each bucket and key. -/
abbrev RateMap := List (String × List Instant)

/-- The ids of the auth events that were used. -/
abbrev SeenAuth := List (String × Instant)

namespace RateMap

def set (map : RateMap) (key : String) (hits : List Instant) : RateMap :=
  if (map.lookup key).isSome then
    map.map fun entry => if entry.1 = key then (key, hits) else entry
  else map ++ [(key, hits)]

/-- `hits.retain(|t| now.duration_since(*t) < window)`. -/
def retainRecent (hits : List Instant) (window : Duration) (now : Instant) :
    List Instant :=
  hits.filter fun t => decide (now - t < window)

/-- Count a call unless the window is full.  A large map is cleaned up. -/
def allow (map : RateMap) (bucket ip : String) (max : Nat) (window : Duration)
    (now : Instant) : Bool × RateMap :=
  let key := s!"{bucket}:{ip}"
  let hits := retainRecent ((map.lookup key).getD []) window now
  if max ≤ hits.length then (false, map.set key hits)
  else
    let pushed := map.set key (hits ++ [now])
    (true,
      if 50000 < pushed.length then
        pushed.filter fun entry =>
          entry.2.any fun t => decide (now - t < window)
      else pushed)

/-- Whether there is an operation within the window. -/
def cooldownActive (map : RateMap) (bucket key : String) (window : Duration)
    (now : Instant) : Bool × RateMap :=
  let k := s!"{bucket}:{key}"
  match map.lookup k with
  | none => (false, map)
  | some hits =>
      let recent := retainRecent hits window now
      (!recent.isEmpty, map.set k recent)

/-- An operation starts its cooldown. -/
def recordOp (map : RateMap) (bucket key : String) (now : Instant) : RateMap :=
  let k := s!"{bucket}:{key}"
  map.set k ((map.lookup k).getD [] ++ [now])

end RateMap

/-- The replay window, as `auth_event_fresh` computes it. -/
def Config.authWindow (cfg : Config) : Duration :=
  .fromSecs (wrapU64 (asU64 cfg.authMaxAgeSecs + 5))

/-- Ids are forgotten after the window; a new id is recorded. -/
def SeenAuth.authEventFresh (seen : SeenAuth) (eventId : String)
    (window : Duration) (now : Instant) : Bool × SeenAuth :=
  let recent := seen.filter fun entry => decide (now - entry.2 < window)
  if (recent.lookup eventId).isSome then (false, recent)
  else (true, recent ++ [(eventId, now)])

end Floonet
