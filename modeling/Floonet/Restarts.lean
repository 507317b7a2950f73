import Floonet.Runs

/-!
# Crashes and restarts

Only the tables survive the process.  A restart empties the in-memory maps and
may find any time on the clocks, as often and wherever in a run it happens.  A
request that was under way is a thread that does not move again; no result
below relies on its standing still.
-/

namespace Floonet

open Concurrent System

/-- What happens to the world of a server by itself. -/
inductive Incident where
  | tick (elapsed : Tick)
  | restart (unixTime : UnixTime) (instant : Instant)

def World.meets : Incident → World → World
  | .tick elapsed, world => world.tick elapsed
  | .restart unixTime instant, world =>
      { world with rate := [], seenAuth := [], unixTime, instant }

@[simp] theorem World.meets_db (incident : Incident) (world : World) :
    (world.meets incident).db = world.db := by
  cases incident <;> rfl

variable (ext : Extern) (cfg : Config)

/-- The server over any number of lives of its process. -/
def durable : System World Env Incident Request Op Op.Ans Response where
  handler := routes ext cfg
  exec := Op.exec
  tick := World.meets
  initial := World.Initial

variable {ext cfg} {permitted : Permission World Request Op Op.Ans Response}
  {pool later : FloonetPool} {thread : FloonetThread}
  {label : Label World Request Op Op.Ans}

theorem Step.durable (step : (server ext cfg).Step pool label later) :
    (durable ext cfg).Step pool label later := by
  cases step with
  | arrive request => exact .arrive pool request
  | act env found pending => exact .act env found pending
  | tick elapsed => exact Step.tick pool (Incident.tick elapsed)

/-- Runs of one process are runs without a restart. -/
theorem Reachable.durable (reachable : (server ext cfg).Reachable anyMove pool) :
    (durable ext cfg).Reachable anyMove pool := by
  refine Reachable.induct
    (motive := (Floonet.durable ext cfg).Reachable anyMove) ?start ?step
    reachable
  case start => exact fun world initial => .start initial
  case step =>
    intro pool label later before induction move allowed
    exact induction.step (Step.durable move) trivial

namespace Durable

theorem evolution : (durable ext cfg).Evolution
    fun earlier later => earlier.db.Evolves later.db where
  refl world := .refl world.db
  trans _ _ _ := .trans
  exec env op world := (op.exec_effect env world).evolves
  tick incident world := by
    rw [show (Floonet.durable ext cfg).tick incident world =
      world.meets incident from rfl, World.meets_db]
    exact .refl world.db

theorem leads (reachable : (durable ext cfg).Reachable permitted pool)
    (member : thread ∈ pool.threads) {op : Op}
    {next : op.Ans → Handler Response}
    (pending : thread.program = .step op next) :
    Leads ext cfg thread.request thread.events op := by
  have every := reachable.every (routes_leads ext cfg) member
  rw [pending] at every
  exact every.1

theorem saw (reachable : (durable ext cfg).Reachable permitted pool)
    (member : thread ∈ pool.threads) {op : Op} {answer : op.Ans}
    (saw : History.Saw thread.events op answer) :
    ∃ env world, (durable ext cfg).taken env op world ∈ thread.past ∧
      answer = (op.exec env world).1 ∧
      (op.exec env world).2.db.Evolves pool.state.db := by
  obtain ⟨taken, takenMember, isEvent⟩ := Thread.mem_events.mp saw
  obtain ⟨env, executed⟩ := reachable.executed thread member taken takenMember
  have evolved := reachable.pastEvolved evolution thread member taken
    takenMember
  rw [executed] at isEvent takenMember evolved
  cases isEvent
  exact ⟨env, taken.before, takenMember, rfl, evolved⟩

theorem sawOffer (reachable : (durable ext cfg).Reachable permitted pool)
    (member : thread ∈ pool.threads) {offerId : String} {offer : OfferRow}
    (seen : History.SawOffer thread.events offerId offer) :
    ∃ current ∈ pool.state.db.offers.rows, offer.Evolves current := by
  have stored : ∀ id, History.Saw thread.events (.db (.getOffer id))
      (some offer) → ∃ current ∈ pool.state.db.offers.rows,
        offer.Evolves current := by
    intro id once
    obtain ⟨env, world, -, answer, evolved⟩ := saw reachable member once
    exact evolved.offers offer (Db.getOffer_eq_some.mp answer.symm).1
  rcases seen with once | ⟨first, -, again⟩
  · exact stored offerId once
  · exact stored first.offerId again

end Durable

end Floonet
