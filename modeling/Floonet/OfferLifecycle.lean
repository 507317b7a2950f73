import Floonet.Client
import Floonet.Runs

/-!
# The life of an offer

An offer is live, dies by expiration or revocation, and is consumed by a
claim.  The statements that change its status are guarded by the current
status, except the one that turns an expired offer into a revoked one; the
claim transaction trusts the snapshot that the claim has read.
-/

namespace Floonet

open Concurrent System Validation

variable {ext : Extern} {cfg : Config}
  {permitted : Permission World Request Op Op.Ans Response}

/-! ## Consumed offers -/

/-- Every consumed offer has a transfer. -/
def Db.Transferred (db : Db) : Prop :=
  ∀ row ∈ db.offers.rows, row.status = .consumed →
    ∃ transfer ∈ db.transfers.rows, transfer.offerId = row.offerId

/-- Every transfer has a consumed offer. -/
def Db.Delivered (db : Db) : Prop :=
  ∀ transfer ∈ db.transfers.rows, ∃ row ∈ db.offers.rows,
    row.offerId = transfer.offerId ∧ row.status = .consumed

/-- The consumed offers are those with a transfer. -/
structure Db.Settled (db : Db) : Prop where
  transferred : db.Transferred
  delivered : db.Delivered

theorem Db.Settled.consumed {db : Db} (settled : db.Settled) :
    ∀ row ∈ db.offers.rows, row.status = .consumed ↔
      ∃ transfer ∈ db.transfers.rows, transfer.offerId = row.offerId := by
  intro row member
  refine ⟨settled.transferred row member, ?_⟩
  rintro ⟨transfer, transferMember, sameId⟩
  obtain ⟨sold, soldMember, isSold, consumed⟩ :=
    settled.delivered transfer transferMember
  rwa [db.offers.eq_of_key member soldMember (isSold.trans sameId).symm]

namespace Db.Transferred

variable {before after : Db} (transferred : before.Transferred)

include transferred

theorem of_same (offers : after.offers = before.offers)
    (transfers : after.transfers = before.transfers) : after.Transferred := by
  unfold Db.Transferred
  rw [offers, transfers]
  exact transferred

theorem lodged {row : OfferRow} (live : row.status = .live)
    (offers : after.offers.rows = before.offers.rows ++ [row])
    (transfers : after.transfers = before.transfers) : after.Transferred := by
  intro current member consumed
  rw [offers, List.mem_append, List.mem_singleton] at member
  rw [transfers]
  rcases member with old | rfl
  · exact transferred current old consumed
  · rw [live] at consumed
    cases consumed

theorem revised {offerId : String} {change : OfferRow → OfferRow}
    (offers : before.Revised after offerId change)
    (transfers : after.transfers = before.transfers)
    (unsold : ∀ row, (change row).status ≠ .consumed) : after.Transferred := by
  intro row member consumed
  obtain ⟨old, oldMember, rfl⟩ := (offers row).mp member
  rw [transfers]
  split at consumed
  · exact absurd consumed (unsold old)
  · rename_i other
    rw [if_neg other]
    exact transferred old oldMember consumed

theorem claimed {offer : OfferRow} {excessHex : String}
    {kernelHeight : Option Int} {now : Int}
    (claimed : before.Claimed after offer excessHex kernelHeight now) :
    after.Transferred := by
  intro row member consumed
  obtain ⟨old, oldMember, rfl⟩ := (claimed.offers row).mp member
  rw [claimed.transfers]
  split at consumed
  · rename_i isOffer
    rw [if_pos isOffer]
    exact ⟨_, List.mem_append_right _ List.mem_cons_self, isOffer.symm⟩
  · rename_i other
    rw [if_neg other]
    obtain ⟨transfer, transferMember, sameId⟩ :=
      transferred old oldMember consumed
    exact ⟨transfer, List.mem_append_left _ transferMember, sameId⟩

end Db.Transferred

namespace Db.Delivered

variable {before after : Db} (delivered : before.Delivered)

include delivered

theorem of_same (offers : after.offers = before.offers)
    (transfers : after.transfers = before.transfers) : after.Delivered := by
  unfold Db.Delivered
  rw [offers, transfers]
  exact delivered

theorem lodged {row : OfferRow}
    (offers : after.offers.rows = before.offers.rows ++ [row])
    (transfers : after.transfers = before.transfers) : after.Delivered := by
  intro transfer member
  rw [transfers] at member
  obtain ⟨sold, soldMember, isSold⟩ := delivered transfer member
  refine ⟨sold, ?_, isSold⟩
  rw [offers]
  exact List.mem_append_left _ soldMember

theorem revised {offerId : String} {change : OfferRow → OfferRow}
    (offers : before.Revised after offerId change)
    (transfers : after.transfers = before.transfers)
    (unsold : ∀ row ∈ before.offers.rows, row.offerId = offerId →
      row.status ≠ .consumed) : after.Delivered := by
  intro transfer member
  rw [transfers] at member
  obtain ⟨sold, soldMember, sameId, consumed⟩ := delivered transfer member
  have other : sold.offerId ≠ offerId := fun isOffer =>
    unsold sold soldMember isOffer consumed
  refine ⟨sold, (offers sold).mpr ⟨sold, soldMember, ?_⟩, sameId, consumed⟩
  rw [if_neg other]

theorem claimed {offer : OfferRow} {excessHex : String}
    {kernelHeight : Option Int} {now : Int}
    (claimed : before.Claimed after offer excessHex kernelHeight now)
    (stored : ∃ row ∈ before.offers.rows, row.offerId = offer.offerId) :
    after.Delivered := by
  intro transfer member
  rw [claimed.transfers] at member
  rcases List.mem_append.mp member with older | new
  · obtain ⟨sold, soldMember, sameId, consumed⟩ := delivered transfer older
    refine ⟨_, (claimed.offers _).mpr ⟨sold, soldMember, rfl⟩, ?_⟩
    split
    · exact ⟨sameId, rfl⟩
    · exact ⟨sameId, consumed⟩
  · obtain ⟨row, rowMember, isOffer⟩ := stored
    refine ⟨_, (claimed.offers _).mpr ⟨row, rowMember, rfl⟩, ?_⟩
    rw [List.mem_singleton.mp new, if_pos isOffer]
    exact ⟨isOffer, rfl⟩

end Db.Delivered

/-- A revocation that has read its offer as expired only writes while the
offer is not consumed. -/
def revisionsCurrent : Permission World Request Op Op.Ans Response :=
  fun pool label _ => ∀ index taken offerId, label = .act index taken →
    taken.op = .db (.reviseRevoked offerId) →
    ∀ row ∈ pool.state.db.offers.rows, row.offerId = offerId →
      row.status ≠ .consumed

theorem Leads.diesUnsold {request : Request} {past : History}
    {offerId : String} {status : OfferStatus} {endHeight : Option Int}
    {at_ : Int}
    (leads : Leads ext cfg request past
      (.db (.markOfferDead offerId status endHeight at_))) :
    status ≠ .consumed := by
  cases leads with
  | silent silent => cases silent
  | expire => exact nofun
  | revoke => exact nofun

theorem Effect.transferred {request : Request} {past : History} {now : Int}
    {before after : Db} {op : Op} {answer : op.Ans}
    (effect : Effect now before after op answer)
    (leads : Leads ext cfg request past op)
    (transferred : before.Transferred) : after.Transferred := by
  cases effect with
  | kept _ same => exact transferred.of_same same.offers same.transfers
  | registered _ _ _ offers transfers =>
      exact transferred.of_same offers transfers
  | released _ _ offers transfers => exact transferred.of_same offers transfers
  | lodged _ _ offers transfers =>
      cases leads with
      | silent silent => cases silent
      | lodge => exact transferred.lodged rfl offers transfers
  | died _ _ _ _ offers transfers =>
      exact transferred.revised offers transfers fun _ => leads.diesUnsold
  | revised _ offers transfers =>
      exact transferred.revised offers transfers fun _ => nofun
  | claimed claimed => exact transferred.claimed claimed

theorem Effect.delivered {request : Request} {past : History} {now : Int}
    {before after : Db} {op : Op} {answer : op.Ans}
    (effect : Effect now before after op answer)
    (leads : Leads ext cfg request past op)
    (seen : ∀ offerId offer, past.SawOffer offerId offer →
      ∃ current ∈ before.offers.rows, offer.Evolves current)
    (unsold : ∀ offerId, op = .db (.reviseRevoked offerId) →
      ∀ row ∈ before.offers.rows, row.offerId = offerId →
        row.status ≠ .consumed)
    (delivered : before.Delivered) : after.Delivered := by
  cases effect with
  | kept _ same => exact delivered.of_same same.offers same.transfers
  | registered _ _ _ offers transfers =>
      exact delivered.of_same offers transfers
  | released _ _ offers transfers => exact delivered.of_same offers transfers
  | lodged _ _ offers transfers => exact delivered.lodged offers transfers
  | died member isOffer live _ offers transfers =>
      refine delivered.revised offers transfers fun row rowMember sameId => ?_
      rw [before.offers.eq_of_key rowMember member
        (sameId.trans isOffer.symm), live]
      exact nofun
  | revised _ offers transfers =>
      exact delivered.revised offers transfers (unsold _ rfl)
  | claimed claimed =>
      cases leads with
      | silent silent => cases silent
      | claim _ _ saw =>
          obtain ⟨current, member, evolves⟩ := seen _ _ saw
          exact delivered.claimed claimed ⟨current, member, evolves.offerId⟩

theorem Reachable.transferred {pool : FloonetPool}
    (reachable : (server ext cfg).Reachable permitted pool) :
    pool.state.db.Transferred := by
  apply Reachable.invariant (fun world => world.db.Transferred) ?start ?act
    ?tick reachable
  case start =>
    intro world initial row member
    rw [initial.db] at member
    cases member
  case act =>
    intro pool index thread op next env before induction found pending _
    exact (op.exec_effect env pool.state).transferred
      (Reachable.leads before (List.mem_of_getElem? found) pending) induction
  case tick => exact fun _ _ induction => induction

theorem Reachable.delivered {pool : FloonetPool}
    (reachable : (server ext cfg).Reachable revisionsCurrent pool) :
    pool.state.db.Delivered := by
  apply Reachable.invariant (fun world => world.db.Delivered) ?start ?act
    ?tick reachable
  case start =>
    intro world initial transfer member
    rw [initial.db] at member
    cases member
  case act =>
    intro pool index thread op next env before induction found pending current
    have member := List.mem_of_getElem? found
    exact (op.exec_effect env pool.state).delivered
      (Reachable.leads before member pending)
      (fun _ _ saw => (Reachable.sawOfferId before member saw).2)
      (fun offerId isRevision =>
        current index _ offerId rfl isRevision) induction
  case tick => exact fun _ _ induction => induction

theorem Reachable.settled {pool : FloonetPool}
    (reachable : (server ext cfg).Reachable revisionsCurrent pool) :
    pool.state.db.Settled :=
  ⟨Reachable.transferred reachable, Reachable.delivered reachable⟩

/-- In a run whose late revocations never meet a consumed offer, the consumed
offers are those with a transfer, and they stay consumed. -/
theorem consumed_iff_transferred {pool : FloonetPool}
    (reachable : (server ext cfg).Reachable revisionsCurrent pool) :
    (∀ row ∈ pool.state.db.offers.rows, row.status = .consumed ↔
      ∃ transfer ∈ pool.state.db.transfers.rows,
        transfer.offerId = row.offerId) ∧
    ∀ later, (server ext cfg).Steps revisionsCurrent pool later →
      ∀ row ∈ pool.state.db.offers.rows, row.status = .consumed →
        ∃ current ∈ later.state.db.offers.rows,
          current.offerId = row.offerId ∧ current.status = .consumed := by
  have settled := Reachable.settled reachable
  refine ⟨settled.consumed, ?_⟩
  intro later steps row member consumed
  have laterSettled := Reachable.settled (reachable.steps steps)
  have evolves := server_evolution.steps steps
  obtain ⟨current, currentMember, rowEvolves⟩ := evolves.db.offers row member
  refine ⟨current, currentMember, rowEvolves.offerId, ?_⟩
  obtain ⟨transfer, transferMember, sameId⟩ :=
    (settled.consumed row member).mp consumed
  exact (laterSettled.consumed current currentMember).mpr
    ⟨transfer, evolves.db.transfers transfer transferMember,
      sameId.trans rowEvolves.offerId.symm⟩

/-- Revocations are not overtaken when requests are served one at a time. -/
theorem revisionsCurrent_of_serial {pool : FloonetPool}
    (reachable : (server ext cfg).Reachable oneAtATime pool) :
    (server ext cfg).Reachable revisionsCurrent pool := by
  apply reachable.mono
  intro pool label later before step _ index taken offerId isAct isRevision row
    member sameId
  cases step with
  | arrive => cases isAct
  | tick => cases isAct
  | @act acting thread op next env found pending =>
      cases isAct
      have threadMember := List.mem_of_getElem? found
      have isReviseOp : op = .db (.reviseRevoked offerId) := isRevision
      subst isReviseOp
      have leads := Reachable.leads before threadMember pending
      generalize thread.request = request at leads
      cases leads with
      | silent silent => cases silent
      | revise _ seen expired unwritten =>
          obtain ⟨env', world, read, answer, -⟩ :=
            Reachable.saw before threadMember seen
          have same := Reachable.unwritten before threadMember
            (Thread.not_finished_of_pending pending) unwritten _ read
          have stored := Db.getOffer_eq_some.mp answer.symm
          have unchanged : pool.state.db.offers = world.db.offers := same.offers
          rw [unchanged] at member
          rw [world.db.offers.eq_of_key member stored.1 sameId, expired]
          exact nofun

section Schedules

open Sample

/-- No revocation of an expired offer is written. -/
def noRevision : Label World Request Op Op.Ans → Bool
  | .act _ taken => match taken.op with
    | .db (.reviseRevoked _) => false
    | _ => true
  | _ => true

theorem revisionsCurrent_of_noRevision {pool later : FloonetPool}
    {label : Label World Request Op Op.Ans} (none : noRevision label = true) :
    revisionsCurrent pool label later := by
  rintro index taken offerId rfl isRevision
  simp only [noRevision, isRevision] at none
  cases none

theorem consumed_iff_transferred_sale : ∃ pool,
    Market.Reachable revisionsCurrent pool ∧
      ∃ row ∈ pool.state.db.offers.rows, row.status = .consumed ∧
        ∃ transfer ∈ pool.state.db.transfers.rows,
          transfer.offerId = row.offerId := by
  have reached : ∃ pool, Market.Reachable revisionsCurrent pool ∧
      (pool.state.db.offers.rows.any fun row =>
        decide (row.status = .consumed)) = true :=
    play_reaches (fun _ label _ => noRevision label)
      (fun _ _ _ => revisionsCurrent_of_noRevision) world_initial sale
      (by decide +kernel)
  obtain ⟨pool, reachable, consumed⟩ := reached
  obtain ⟨row, member, consumed⟩ := List.any_eq_true.mp consumed
  rw [decide_eq_true_iff] at consumed
  exact ⟨pool, reachable, row, member, consumed,
    ((consumed_iff_transferred reachable).1 row member).mp consumed⟩

/-- A revocation reads the expired offer and a claim within the grace window
consumes it before the revocation writes. -/
def lateRevocation : List Market.Move :=
  lodging ++ [.tick ⟨3700, 0, 0⟩] ++
    Market.alone Sample.read 2 (node 100 100) 7 ++
    Market.alone revokeLate 3 (node 100 100) 7 ++
    Market.alone claimLate 4 (node 100 100) 13

/-- The offer ends as revoked although it was claimed. -/
theorem consumed_revoked : ∃ pool, Market.Reachable anyMove pool ∧
    ∃ row ∈ pool.state.db.offers.rows, row.status = .revoked ∧
      ∃ transfer ∈ pool.state.db.transfers.rows,
        transfer.offerId = row.offerId := by
  have reached : ∃ pool, Market.Reachable anyMove pool ∧
      (pool.state.db.offers.rows.any fun row =>
        decide (row.status = .revoked) &&
          pool.state.db.transfers.rows.any fun transfer =>
            decide (transfer.offerId = row.offerId)) = true :=
    play_reaches (fun _ _ _ => true) (fun _ _ _ _ => trivial) world_initial
      (lateRevocation ++ [.act 3 (node 100 100)]) (by decide +kernel)
  obtain ⟨pool, reachable, revoked⟩ := reached
  obtain ⟨row, member, revoked⟩ := List.any_eq_true.mp revoked
  rw [Bool.and_eq_true, decide_eq_true_iff] at revoked
  obtain ⟨transfer, transferMember, sameId⟩ := List.any_eq_true.mp revoked.2
  exact ⟨pool, reachable, row, member, revoked.1, transfer, transferMember,
    of_decide_eq_true sameId⟩

end Schedules

/-! ## Dead offers -/

/-- A step sells an offer that was dead at an earlier moment only for a
payment that settled at or below the height recorded at its death. -/
def DeathRespected (earlier before after : Db) : Prop :=
  ∀ transfer ∈ after.transfers.rows, transfer ∉ before.transfers.rows →
    ∀ row ∈ earlier.offers.rows, row.offerId = transfer.offerId →
      row.status = .revoked ∨ row.status = .expired →
        ∃ endHeight kernelHeight, row.endHeight = some endHeight ∧
          transfer.kernelHeight = some kernelHeight ∧
          kernelHeight ≤ endHeight

/-- A claim whose offer is dead when its transaction runs has read it as
dead. -/
def snapshotsCurrent : Permission World Request Op Op.Ans Response :=
  fun pool label _ => ∀ index taken offer excessHex kernelHeight now,
    label = .act index taken →
    taken.op = .db (.runClaimTxn offer excessHex kernelHeight now) →
    ∀ row ∈ pool.state.db.offers.rows, row.offerId = offer.offerId →
      row.status = .revoked ∨ row.status = .expired → offer.status ≠ .live

theorem deathGate_dead {offer : OfferRow} {now : Int}
    {deadEndHeight : Option Int}
    (dead : offer.status = .revoked ∨ offer.status = .expired)
    (inWindow : deathGate cfg offer now = .ok deadEndHeight) :
    ∃ endHeight, offer.endHeight = some endHeight ∧
      deadEndHeight = some endHeight := by
  simp only [deathGate, if_pos dead, bind_eq_ok, require_eq_ok, demand_eq_ok,
    pure_eq_ok] at inWindow
  obtain ⟨-, -, endHeight, recorded, same⟩ := inWindow
  exact ⟨endHeight, recorded, same.symm⟩

theorem kernelGate_settled {offer : OfferRow}
    {deadEndHeight kernelHeight : Option Int}
    {kernel : Except String KernelResult}
    (settled : kernelGate cfg offer deadEndHeight kernel = .ok kernelHeight) :
    settledInTime deadEndHeight kernelHeight = true := by
  simp only [kernelGate, bind_eq_ok, require_eq_ok, demand_eq_ok,
    pure_eq_ok] at settled
  obtain ⟨_, _, _, _, _, inTime, rfl⟩ := settled
  exact inTime

theorem Reachable.claimed_unsold {pool : FloonetPool} {after : Db}
    {offer row : OfferRow} {excessHex : String} {kernelHeight : Option Int}
    {now : Int} (reachable : (server ext cfg).Reachable permitted pool)
    (claimed : pool.state.db.Claimed after offer excessHex kernelHeight now)
    (member : row ∈ pool.state.db.offers.rows)
    (sameId : row.offerId = offer.offerId) : row.status ≠ .consumed := by
  intro consumed
  obtain ⟨transfer, transferMember, isTransfer⟩ :=
    Reachable.transferred reachable row member consumed
  exact (claimed.unused transfer transferMember).1 (isTransfer.trans sameId)

/-- Claims that read a dead offer as dead respect its death, at whatever
moment the offer was dead. -/
theorem death_respected {earlier pool later : FloonetPool}
    {label : Label World Request Op Op.Ans}
    (reachable : (server ext cfg).Reachable snapshotsCurrent earlier)
    (steps : (server ext cfg).Steps snapshotsCurrent earlier pool)
    (step : (server ext cfg).Step pool label later)
    (current : snapshotsCurrent pool label later) :
    DeathRespected earlier.state.db pool.state.db later.state.db := by
  intro transfer member new old oldMember sameId dead
  have reached := reachable.steps steps
  obtain ⟨index, env, thread, threadMember, offer, excessHex, kernelHeight, now,
    rfl, leads, claimed, rfl, -⟩ := Step.claims reached step new member
  obtain ⟨row, rowMember, persists⟩ :=
    (server_evolution.steps steps).db.offers old oldMember
  have isOffer : row.offerId = offer.offerId := persists.offerId.trans sameId
  -- The offer has stayed dead, and it is not sold yet.
  have notLive : old.status ≠ .live := by
    rcases dead with revoked | expired
    · rw [revoked]
      exact nofun
    · rw [expired]
      exact nofun
  have unsold := Reachable.claimed_unsold reached claimed rowMember isOffer
  have stillDead : row.status = .revoked ∨ row.status = .expired := by
    have rowDead := (persists.dead notLive).1
    cases status : row.status <;> simp_all
  have readDead := current index _ offer _ _ _ rfl rfl row rowMember isOffer
    stillDead
  generalize thread.request = request at leads
  cases leads with
  | silent silent => cases silent
  | claim _ _ seen _ open_ inWindow _ _ settled =>
      obtain ⟨-, stored, storedMember, evolves⟩ :=
        Reachable.sawOfferId reached threadMember seen
      have isRow : stored = row := pool.state.db.offers.eq_of_key
        storedMember rowMember (evolves.offerId.trans isOffer.symm)
      subst isRow
      have died : offer.status = .revoked ∨ offer.status = .expired := by
        cases status : offer.status <;> simp_all
      obtain ⟨endHeight, recorded, rfl⟩ := deathGate_dead died inWindow
      have inTime := kernelGate_settled settled
      cases kernelHeight with
      | none => cases inTime
      | some height =>
          refine ⟨endHeight, height, ?_, rfl, of_decide_eq_true inTime⟩
          rw [← (persists.dead notLive).2.1, (evolves.dead readDead).2.1,
            recorded]

section Schedules

open Sample

/-- Claims are executed for dead snapshots only. -/
def deadSnapshot : Label World Request Op Op.Ans → Bool
  | .act _ taken => match taken.op with
    | .db (.runClaimTxn offer _ _ _) => decide (offer.status ≠ .live)
    | _ => true
  | _ => true

theorem snapshotsCurrent_of_deadSnapshot {pool later : FloonetPool}
    {label : Label World Request Op Op.Ans} (dead : deadSnapshot label = true) :
    snapshotsCurrent pool label later := by
  rintro index taken offer excessHex kernelHeight now rfl isClaim _ _ _ _
  simp only [deadSnapshot, isClaim] at dead
  exact of_decide_eq_true dead

/-- A payment that settled before the revocation buys the revoked offer. -/
theorem death_respected_grace : ∃ earlier pool label later,
    Market.Reachable snapshotsCurrent earlier ∧
      Market.Steps snapshotsCurrent earlier pool ∧
      Market.Step pool label later ∧
      (∃ row ∈ earlier.state.db.offers.rows, row.status = .revoked) ∧
      later.state.db.transfers.rows.length = 1 ∧
      DeathRespected earlier.state.db pool.state.db later.state.db := by
  have reached : ∃ earlier pool, Market.Reachable snapshotsCurrent earlier ∧
      Market.Steps snapshotsCurrent earlier pool ∧
      (earlier.state.db.offers.rows.any fun row =>
        decide (row.status = .revoked)) = true ∧
      ((Market.move pool (.act 3 (node 100 100))).any fun moved =>
        deadSnapshot moved.1 &&
          decide (moved.2.state.db.transfers.rows.length = 1)) = true :=
    play_continues (fun _ label _ => deadSnapshot label)
      (fun _ _ _ => snapshotsCurrent_of_deadSnapshot) world_initial
      (lodging ++ Market.alone revokeNow 2 (node 100 100) 9)
      (Market.alone claimNow 3 (node 100 100) 11) (by decide +kernel)
  obtain ⟨earlier, pool, reachable, steps, died, moves⟩ := reached
  obtain ⟨row, rowMember, revoked⟩ := List.any_eq_true.mp died
  obtain ⟨⟨label, later⟩, moved, holds⟩ := (Option.any_eq_true _ _).mp moves
  rw [Bool.and_eq_true, decide_eq_true_iff] at holds
  have step := move_step moved
  exact ⟨earlier, pool, label, later, reachable, steps, step,
    ⟨row, rowMember, of_decide_eq_true revoked⟩, holds.2,
    death_respected reachable steps step
      (snapshotsCurrent_of_deadSnapshot holds.1)⟩

/-- The answers of a node that knows the chain up to `tip`. -/
def honestAnswer (tip : Nat) : (op : Op) → op.Ans → Bool
  | .tipHeight, answer => match answer with
    | .ok height => decide (height.toNat = tip)
    | .error _ => true
  | .kernel _, answer => match answer with
    | .ok kernel => kernel.height.all fun height => decide (height.toNat ≤ tip)
    | .error _ => true
  | _, _ => true

def honestMove (pool : FloonetPool) : Label World Request Op Op.Ans → Bool
  | .act _ taken => decide (pool.state.chainTip < 2 ^ 63) &&
      honestAnswer pool.state.chainTip taken.op taken.answer
  | _ => true

/-- The node reports the tip of the chain and kernels up to it, all below
`2 ^ 63`.  The chain itself only grows. -/
def honestNode : Permission World Request Op Op.Ans Response :=
  fun pool label _ => honestMove pool label = true

/-- The seller revokes at height 100 while a claim waits for the node, which
then reports a kernel of the next block. -/
theorem death_ignored : ∃ pool label later, Market.Reachable honestNode pool ∧
    Market.Step pool label later ∧ honestNode pool label later ∧
      ¬ DeathRespected pool.state.db pool.state.db later.state.db := by
  have reached : ∃ pool label later, Market.Reachable honestNode pool ∧
      Market.Step pool label later ∧ honestNode pool label later ∧
        (pool.state.db.transfers.rows.isEmpty &&
          later.state.db.transfers.rows.any fun transfer =>
            pool.state.db.offers.rows.any fun row =>
              decide (row.status = .revoked ∧ row.endHeight = some 100 ∧
                row.offerId = transfer.offerId ∧
                transfer.kernelHeight = some 101)) = true :=
    play_steps_once (fun pool label _ => honestMove pool label)
      (fun _ _ _ honest => honest) world_initial
      (lodging ++ Market.alone claimNow 2 (node 100 100) 8 ++
        Market.alone revokeNow 3 (node 100 100) 9 ++ [.tick ⟨0, 0, 1⟩] ++
        List.replicate 3 (.act 2 (node 101 101)))
      (.act 2 (node 101 101)) (by decide +kernel)
  obtain ⟨pool, label, later, reachable, step, honest, sold⟩ := reached
  refine ⟨pool, label, later, reachable, step, honest, fun respected => ?_⟩
  rw [Bool.and_eq_true, List.isEmpty_iff] at sold
  obtain ⟨transfer, transferMember, sold'⟩ := List.any_eq_true.mp sold.2
  obtain ⟨row, rowMember, sold'⟩ := List.any_eq_true.mp sold'
  obtain ⟨revoked, died, sameId, settled⟩ := of_decide_eq_true sold'
  obtain ⟨endHeight, kernelHeight, recorded, known, inTime⟩ :=
    respected transfer transferMember (sold.1 ▸ List.not_mem_nil) row rowMember
      sameId (.inl revoked)
  rw [died] at recorded
  rw [settled] at known
  cases recorded
  cases known
  omega

end Schedules

end Floonet
