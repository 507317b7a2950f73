import Floonet.Runs

/-!
# The record of a death

An offer that dies keeps the time at which the server settled its death.  When
requests are served one at a time, every revoked or expired offer has such a
time, and it is never in the future.
-/

namespace Floonet

open Concurrent System

variable {ext : Extern} {cfg : Config}

structure OfferRow.DeathRecorded (row : OfferRow) (clock : Int) : Prop where
  known : row.status = .revoked ∨ row.status = .expired →
    row.stateChangedAt.isSome = true
  past : ∀ changed ∈ row.stateChangedAt, 0 ≤ changed ∧ changed ≤ clock

theorem OfferRow.DeathRecorded.later {row : OfferRow} {clock now : Int}
    (recorded : row.DeathRecorded clock) (passed : clock ≤ now) :
    row.DeathRecorded now where
  known := recorded.known
  past changed known := by
    obtain ⟨nonneg, past⟩ := recorded.past changed known
    exact ⟨nonneg, Int.le_trans past passed⟩

theorem OfferRow.DeathRecorded.of_alive {row : OfferRow} {clock : Int}
    (alive : row.status = .live ∨ row.status = .consumed)
    (past : ∀ changed ∈ row.stateChangedAt, 0 ≤ changed ∧ changed ≤ clock) :
    row.DeathRecorded clock where
  known dead := by
    rcases alive with status | status <;> simp [status] at dead
  past := past

def Db.DeathsRecorded (db : Db) (clock : Int) : Prop :=
  ∀ row ∈ db.offers.rows, row.DeathRecorded clock

theorem Db.DeathsRecorded.of_same {before after : Db} {clock : Int}
    (recorded : before.DeathsRecorded clock)
    (same : after.offers = before.offers) : after.DeathsRecorded clock := by
  unfold Db.DeathsRecorded
  rw [same]
  exact recorded

theorem Db.DeathsRecorded.revised {before after : Db} {clock : Int}
    {offerId : String} {change : OfferRow → OfferRow}
    (recorded : before.DeathsRecorded clock)
    (offers : before.Revised after offerId change)
    (changed : ∀ row ∈ before.offers.rows, row.offerId = offerId →
      (change row).DeathRecorded clock) : after.DeathsRecorded clock := by
  intro row member
  obtain ⟨old, oldMember, rfl⟩ := (offers row).mp member
  split
  · rename_i isOffer
    exact changed old oldMember isOffer
  · exact recorded old oldMember

theorem Leads.diesNow {request : Request} {past : History}
    {offerId : String} {status : OfferStatus} {endHeight : Option Int}
    {at_ : Int}
    (leads : Leads ext cfg request past
      (.db (.markOfferDead offerId status endHeight at_))) :
    past.Saw .unixNow at_ := by
  cases leads with
  | silent silent => cases silent
  | expire _ clock => exact clock
  | revoke _ _ clock => exact clock

theorem Effect.deathsRecorded {request : Request} {past : History}
    {clock : Int} {before after : Db} {op : Op} {answer : op.Ans}
    (effect : Effect clock before after op answer)
    (leads : Leads ext cfg request past op)
    (clockSeen : ∀ now, past.Saw .unixNow now → 0 ≤ now ∧ now ≤ clock)
    (current : ∀ offerId offer, past.Silent →
      past.Saw (.db (.getOffer offerId)) (some offer) →
        offer ∈ before.offers.rows)
    (recorded : before.DeathsRecorded clock) : after.DeathsRecorded clock := by
  cases effect with
  | kept _ same => exact recorded.of_same same.offers
  | registered _ _ _ offers => exact recorded.of_same offers
  | released _ _ offers => exact recorded.of_same offers
  | lodged _ _ offers =>
      cases leads with
      | silent silent => cases silent
      | lodge =>
          intro row member
          rw [offers, List.mem_append, List.mem_singleton] at member
          rcases member with old | rfl
          · exact recorded row old
          · exact .of_alive (.inl rfl) nofun
  | died _ _ _ _ offers =>
      refine recorded.revised offers fun row _ _ => ⟨fun _ => rfl, ?_⟩
      rintro changed ⟨⟩
      exact clockSeen _ leads.diesNow
  | revised _ offers =>
      cases leads with
      | silent silent => cases silent
      | revise _ seen expired unwritten =>
          have stored := current _ _ unwritten seen
          refine recorded.revised offers fun row member isOffer => ?_
          rw [before.offers.eq_of_key member stored isOffer]
          have known := recorded _ stored
          exact ⟨fun _ => known.known (.inr expired), known.past⟩
  | claimed claimed =>
      refine recorded.revised claimed.offers fun row member _ => ?_
      exact .of_alive (.inr rfl) (recorded row member).past

theorem Reachable.deathsRecorded {pool : FloonetPool}
    (reachable : (server ext cfg).Reachable oneAtATime pool) :
    pool.state.db.DeathsRecorded pool.state.unixTime.seconds := by
  apply Reachable.invariant
    (fun world => world.db.DeathsRecorded world.unixTime.seconds)
    ?start ?act ?tick reachable
  case start =>
    intro world initial row member
    rw [initial.db] at member
    cases member
  case act =>
    intro pool index thread op next env before induction found pending _
    have member := List.mem_of_getElem? found
    have sameTime : ((server ext cfg).exec env op pool.state).2.unixTime =
        pool.state.unixTime := (op.exec_clock env pool.state).1
    rw [sameTime]
    refine (op.exec_effect env pool.state).deathsRecorded
      (Reachable.leads before member pending)
      (fun _ saw => Reachable.sawClock before member saw) ?_ induction
    intro offerId offer unwritten seen
    obtain ⟨_, world, read, answer, -⟩ := Reachable.saw before member seen
    have same := Reachable.unwritten before member
      (Thread.not_finished_of_pending pending) unwritten _ read
    have unchanged : pool.state.db.offers = world.db.offers := same.offers
    rw [unchanged]
    exact (Db.getOffer_eq_some.mp answer.symm).1
  case tick =>
    intro elapsed world induction row member
    exact (induction row member).later (World.Evolves.tick elapsed world).clock

/-! ## Under any interleaving -/

/-- The recorded times are past readings of the clock. -/
def Db.ChangesPast (db : Db) (clock : Int) : Prop :=
  ∀ row ∈ db.offers.rows, ∀ changed ∈ row.stateChangedAt,
    0 ≤ changed ∧ changed ≤ clock

theorem Db.ChangesPast.of_same {before after : Db} {clock : Int}
    (past : before.ChangesPast clock) (same : after.offers = before.offers) :
    after.ChangesPast clock := by
  unfold Db.ChangesPast
  rw [same]
  exact past

theorem Db.ChangesPast.revised {before after : Db} {clock : Int}
    {offerId : String} {change : OfferRow → OfferRow}
    (past : before.ChangesPast clock)
    (offers : before.Revised after offerId change)
    (timed : ∀ row ∈ before.offers.rows,
      ∀ changed ∈ (change row).stateChangedAt,
        0 ≤ changed ∧ changed ≤ clock) :
    after.ChangesPast clock := by
  intro row member
  obtain ⟨old, oldMember, rfl⟩ := (offers row).mp member
  split
  · exact timed old oldMember
  · exact past old oldMember

theorem Effect.changesPast {request : Request} {history : History}
    {clock : Int} {before after : Db} {op : Op} {answer : op.Ans}
    (effect : Effect clock before after op answer)
    (leads : Leads ext cfg request history op)
    (clockSeen : ∀ now, history.Saw .unixNow now → 0 ≤ now ∧ now ≤ clock)
    (past : before.ChangesPast clock) : after.ChangesPast clock := by
  cases effect with
  | kept _ same => exact past.of_same same.offers
  | registered _ _ _ offers => exact past.of_same offers
  | released _ _ offers => exact past.of_same offers
  | lodged _ _ offers =>
      cases leads with
      | silent silent => cases silent
      | lodge =>
          intro row member
          rw [offers, List.mem_append, List.mem_singleton] at member
          rcases member with old | rfl
          · exact past row old
          · exact nofun
  | died _ _ _ _ offers =>
      refine past.revised offers fun row _ => ?_
      rintro changed ⟨⟩
      exact clockSeen _ leads.diesNow
  | revised _ offers => exact past.revised offers past
  | claimed claimed => exact past.revised claimed.offers past

theorem Reachable.changesPast
    {permitted : Permission World Request Op Op.Ans Response}
    {pool : FloonetPool}
    (reachable : (server ext cfg).Reachable permitted pool) :
    pool.state.db.ChangesPast pool.state.unixTime.seconds := by
  apply Reachable.invariant
    (fun world => world.db.ChangesPast world.unixTime.seconds)
    ?start ?act ?tick reachable
  case start =>
    intro world initial row member
    rw [initial.db] at member
    cases member
  case act =>
    intro pool index thread op next env before induction found pending _
    have member := List.mem_of_getElem? found
    have sameTime : ((server ext cfg).exec env op pool.state).2.unixTime =
        pool.state.unixTime := (op.exec_clock env pool.state).1
    rw [sameTime]
    exact (op.exec_effect env pool.state).changesPast
      (Reachable.leads before member pending)
      (fun _ saw => Reachable.sawClock before member saw) induction
  case tick =>
    intro elapsed world induction row member changed known
    obtain ⟨nonneg, past⟩ := induction row member changed known
    exact ⟨nonneg, Int.le_trans past (World.Evolves.tick elapsed world).clock⟩

end Floonet
