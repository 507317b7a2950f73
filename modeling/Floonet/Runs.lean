import Floonet.History

/-!
# Runs of the server

The general results about pools, instantiated: what a thread has seen is true
of an earlier world, and worlds only evolve.
-/

namespace Floonet

open Concurrent System

variable {ext : Extern} {cfg : Config}
  {permitted : Permission World Request Op Op.Ans Response}
  {pool later : FloonetPool} {thread : FloonetThread}

theorem server_evolution : (server ext cfg).Evolution World.Evolves where
  refl := .refl
  trans _ _ _ := .trans
  exec := .exec
  tick := .tick

/-- What the next step of a thread relies on. -/
theorem Reachable.leads
    (reachable : (server ext cfg).Reachable permitted pool)
    (member : thread ∈ pool.threads) {op : Op}
    {next : op.Ans → Handler Response}
    (pending : thread.program = .step op next) :
    Leads ext cfg thread.request thread.events op := by
  have every := reachable.every (routes_leads ext cfg) member
  rw [pending] at every
  exact every.1

theorem Reachable.answered
    (reachable : (server ext cfg).Reachable permitted pool)
    (member : thread ∈ pool.threads) {response : Response}
    (finished : thread.program = .done response) :
    Answered ext cfg thread.request thread.events response := by
  have every := reachable.every (routes_leads ext cfg) member
  rw [finished] at every
  exact every

theorem Reachable.saw
    (reachable : (server ext cfg).Reachable permitted pool)
    (member : thread ∈ pool.threads) {op : Op} {answer : op.Ans}
    (saw : History.Saw thread.events op answer) :
    ∃ env world, (server ext cfg).taken env op world ∈ thread.past ∧
      answer = (op.exec env world).1 ∧
      World.Evolves (op.exec env world).2 pool.state := by
  obtain ⟨taken, takenMember, isEvent⟩ := Thread.mem_events.mp saw
  obtain ⟨env, executed⟩ := reachable.executed thread member taken takenMember
  have evolved :=
    reachable.pastEvolved server_evolution thread member taken takenMember
  rw [executed] at isEvent takenMember evolved
  cases isEvent
  exact ⟨env, taken.before, takenMember, rfl, evolved⟩

theorem Reachable.sawOffer
    (reachable : (server ext cfg).Reachable permitted pool)
    (member : thread ∈ pool.threads) {offerId : String} {offer : OfferRow}
    (saw : History.Saw thread.events (.db (.getOffer offerId)) (some offer)) :
    offer.offerId = offerId ∧
      ∃ current ∈ pool.state.db.offers.rows, offer.Evolves current := by
  obtain ⟨env, world, -, answer, evolved⟩ :=
    Reachable.saw reachable member saw
  obtain ⟨stored, sameId⟩ := Db.getOffer_eq_some.mp answer.symm
  exact ⟨sameId, evolved.db.offers offer stored⟩

theorem Reachable.sawOfferId
    (reachable : (server ext cfg).Reachable permitted pool)
    (member : thread ∈ pool.threads) {offerId : String} {offer : OfferRow}
    (saw : History.SawOffer thread.events offerId offer) :
    offer.offerId = offerId ∧
      ∃ current ∈ pool.state.db.offers.rows, offer.Evolves current := by
  rcases saw with once | ⟨first, sawFirst, again⟩
  · exact Reachable.sawOffer reachable member once
  · obtain ⟨firstId, -⟩ := Reachable.sawOffer reachable member sawFirst
    obtain ⟨sameId, stored⟩ := Reachable.sawOffer reachable member again
    exact ⟨sameId.trans firstId, stored⟩

theorem Reachable.sawClock
    (reachable : (server ext cfg).Reachable permitted pool)
    (member : thread ∈ pool.threads) {now : Int}
    (saw : History.Saw thread.events .unixNow now) :
    0 ≤ now ∧ now ≤ pool.state.unixTime.seconds := by
  obtain ⟨env, world, -, answer, evolved⟩ :=
    Reachable.saw reachable member saw
  rw [answer]
  exact ⟨world.unixTime.nonneg, evolved.clock⟩

theorem Reachable.takenEffect
    (reachable : (server ext cfg).Reachable permitted pool)
    (member : thread ∈ pool.threads) {taken : Taken World Op Op.Ans}
    (takenMember : taken ∈ thread.past) :
    Effect taken.before.unixTime.seconds taken.before.db taken.after.db
      taken.op taken.answer := by
  obtain ⟨env, executed⟩ := reachable.executed thread member taken takenMember
  rw [executed]
  exact taken.op.exec_effect env taken.before

theorem Effect.silent {now : Int} {before after : Db} {op : Op}
    {answer : op.Ans} (effect : Effect now before after op answer)
    (silent : op.silent = true) : before.SameMarket after := by
  cases effect with
  | kept _ same => exact same
  | _ => cases silent

theorem Db.SameMarket.trans {first middle last : Db}
    (earlier : first.SameMarket middle) (later : middle.SameMarket last) :
    first.SameMarket last :=
  ⟨later.names.trans earlier.names, later.offers.trans earlier.offers,
    later.transfers.trans earlier.transfers⟩

theorem Reachable.unwritten
    (reachable : (server ext cfg).Reachable oneAtATime pool)
    (member : thread ∈ pool.threads) (running : ¬ thread.Finished)
    (silent : History.Silent thread.events) :
    ∀ taken ∈ thread.past, taken.after.db.SameMarket pool.state.db := by
  refine Reachable.ownPast (R := fun earlier later =>
    earlier.db.SameMarket later.db) (fun _ => .refl _)
    (fun _ _ _ earlier later => earlier.trans later) reachable member running
    fun taken takenMember => ?_
  exact (Reachable.takenEffect reachable member takenMember).silent
    (silent _ (Thread.mem_events.mpr ⟨taken, takenMember, rfl⟩))

/-- The row that a committed claim adds to the transfers. -/
def claimedTransfer (offer : OfferRow) (excessHex : String)
    (kernelHeight : Option Int) (now : Int) : TransferRow :=
  ⟨offer.offerId, offer.name, offer.sellerPubkey, offer.buyerPubkey,
    offer.priceNanogrin, excessHex, kernelHeight, now⟩

theorem Step.claims {label : Label World Request Op Op.Ans}
    (reachable : (server ext cfg).Reachable permitted pool)
    (step : (server ext cfg).Step pool label later) {transfer : TransferRow}
    (new : transfer ∉ pool.state.db.transfers.rows)
    (member : transfer ∈ later.state.db.transfers.rows) :
    ∃ index env, ∃ thread ∈ pool.threads,
      ∃ offer excessHex kernelHeight now,
      label = .act index ((server ext cfg).taken env
        (.db (.runClaimTxn offer excessHex kernelHeight now)) pool.state) ∧
      Leads ext cfg thread.request thread.events
        (.db (.runClaimTxn offer excessHex kernelHeight now)) ∧
      pool.state.db.Claimed later.state.db offer excessHex kernelHeight now ∧
      transfer = claimedTransfer offer excessHex kernelHeight now ∧
      ∃ current ∈ pool.state.db.offers.rows, offer.Evolves current := by
  cases step with
  | arrive request => exact absurd member new
  | tick elapsed => exact absurd member new
  | @act index thread op next env found pending =>
      have threadMember := List.mem_of_getElem? found
      have leads := Reachable.leads reachable threadMember pending
      rcases (op.exec_effect env pool.state).transfers with
        same | ⟨offer, excessHex, kernelHeight, now, rfl, claimed⟩
      · have unchanged : ((server ext cfg).exec env op
            pool.state).2.db.transfers = pool.state.db.transfers := same
        rw [unchanged] at member
        exact absurd member new
      · have rows : _ = pool.state.db.transfers.rows ++ [_] := claimed.transfers
        have inserted : transfer ∈ pool.state.db.transfers.rows ++ [_] :=
          rows ▸ member
        have isNew : transfer =
            claimedTransfer offer excessHex kernelHeight now := by
          rcases List.mem_append.mp inserted with old | last
          · exact absurd old new
          · exact List.mem_singleton.mp last
        have stored : ∃ current ∈ pool.state.db.offers.rows,
            offer.Evolves current := by
          generalize thread.request = request at leads
          cases leads with
          | silent silent => cases silent
          | claim _ _ seen =>
              exact (Reachable.sawOfferId reachable threadMember seen).2
        exact ⟨index, env, thread, threadMember, offer, excessHex, kernelHeight,
          now, rfl, leads, claimed, isNew, stored⟩

end Floonet
