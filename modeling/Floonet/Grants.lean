import Floonet.World

/-!
# The grants of the paid layer

`Db.grant` as a function of the key and the resource, and what the statements
on grants make of it.
-/

namespace Floonet

open Relational

/-- The row after its invoice `invoiceId` was confirmed. -/
def Grant.confirm (invoiceId : String) (now : Int) (grant : Grant) : Grant :=
  if grant.invoiceId = invoiceId ∧ grant.status ≠ .paid then
    { grant with status := .paid, paidAt := some now }
  else grant

@[simp] theorem Grant.confirm_pubkey (invoiceId : String) (now : Int)
    (grant : Grant) : (grant.confirm invoiceId now).pubkey = grant.pubkey := by
  unfold confirm
  split <;> rfl

@[simp] theorem Grant.confirm_resource (invoiceId : String) (now : Int)
    (grant : Grant) :
    (grant.confirm invoiceId now).resource = grant.resource := by
  unfold confirm
  split <;> rfl

@[simp] theorem Grant.confirm_invoiceId (invoiceId : String) (now : Int)
    (grant : Grant) :
    (grant.confirm invoiceId now).invoiceId = grant.invoiceId := by
  unfold confirm
  split <;> rfl

theorem Grant.confirm_status {invoiceId : String} {now : Int} {grant : Grant}
    (paid : (grant.confirm invoiceId now).status = .paid) :
    grant.status = .paid ∨ grant.invoiceId = invoiceId := by
  unfold confirm at paid
  split at paid
  · rename_i confirmed
    exact .inr confirmed.1
  · exact .inl paid

theorem Grant.confirm_of_paid {invoiceId : String} {now : Int} {grant : Grant}
    (paid : grant.status = .paid) : grant.confirm invoiceId now = grant :=
  if_neg fun confirmed => confirmed.2 paid

namespace Db

variable {db : Db} {pubkey resource : String}

theorem grant_eq_some {row : Grant} :
    db.grant pubkey resource = some row ↔
      row ∈ db.paidGrants.rows ∧ row.pubkey = pubkey ∧
        row.resource = resource := by
  have isKey : (fun row : Grant => decide (row.pubkey = pubkey) &&
      decide (row.resource = resource)) =
      fun row => decide ((row.pubkey, row.resource) = (pubkey, resource)) := by
    funext row
    simp
  rw [grant, isKey, Table.select_key, Prod.mk.injEq]

/-- Statements are known by the rows they leave behind. -/
theorem grant_congr {after : Db} {found : String → String → Option Grant}
    (rows : ∀ pubkey resource row,
      row ∈ after.paidGrants.rows ∧ row.pubkey = pubkey ∧
          row.resource = resource ↔
        found pubkey resource = some row) : after.grant = found := by
  funext pubkey resource
  apply Option.ext
  intro row
  rw [grant_eq_some, rows]

/-- A grant whose invoice has just been created. -/
def pendingGrant (pubkey resource invoiceId payUrl : String)
    (amount now : Int) : Grant :=
  ⟨pubkey, resource, invoiceId, payUrl, amount, .pending, now, none⟩

theorem putPendingGrant_grant (db : Db)
    (pubkey resource invoiceId payUrl : String) (amount now : Int) :
    (db.putPendingGrant pubkey resource invoiceId payUrl amount now).grant =
      fun pubkey' resource' =>
        if pubkey' = pubkey ∧ resource' = resource then
          some (pendingGrant pubkey resource invoiceId payUrl amount now)
        else db.grant pubkey' resource' := by
  obtain ⟨paidGrants, count, done, rows⟩ := db.paidGrants.upsert_replaces
    (pendingGrant pubkey resource invoiceId payUrl amount now)
    (fun row => { row with
      invoiceId
      payUrl
      amountNanogrin := amount
      status := .pending
      createdAt := now
      paidAt := none }) (fun _ => rfl)
    (fun old _ same => by
      obtain ⟨samePubkey, sameResource⟩ := Prod.mk.inj same
      cases old
      cases samePubkey
      cases sameResource
      rfl)
    (fun _ => rfl)
  have written : db.putPendingGrant pubkey resource invoiceId payUrl amount
      now = { db with paidGrants } := by
    simp only [pendingGrant] at done
    simp only [putPendingGrant, done]
  rw [written]
  apply grant_congr
  intro pubkey' resource' row
  rw [rows]
  split
  · rename_i same
    obtain ⟨rfl, rfl⟩ := same
    constructor
    · rintro ⟨rfl | ⟨-, different⟩, samePubkey, sameResource⟩
      · rfl
      · exact absurd (Prod.ext samePubkey sameResource) different
    · rintro ⟨⟩
      exact ⟨.inl rfl, rfl, rfl⟩
  · rename_i different
    rw [grant_eq_some]
    constructor
    · rintro ⟨rfl | ⟨member, -⟩, isKey⟩
      · exact absurd ⟨isKey.1.symm, isKey.2.symm⟩ different
      · exact ⟨member, isKey⟩
    · rintro ⟨member, rfl, rfl⟩
      refine ⟨.inr ⟨member, fun same => different ?_⟩, rfl, rfl⟩
      exact Prod.mk.inj same

theorem markGrantPaid_grant (db : Db) (invoiceId : String) (now : Int) :
    (db.markGrantPaid invoiceId now).2.grant = fun pubkey resource =>
      (db.grant pubkey resource).map (Grant.confirm invoiceId now) := by
  obtain ⟨⟨paidGrants, count⟩, done⟩ := Option.isSome_iff_exists.mp
    (db.paidGrants.update_isSome
      (fun row => decide (row.invoiceId = invoiceId) &&
        decide (row.status ≠ .paid))
      (fun row => { row with status := .paid, paidAt := some now })
      (fun _ => rfl) fun row entry indexed => by simp [noIndex] at indexed)
  have written : (db.markGrantPaid invoiceId now).2 =
      { db with paidGrants } := by
    simp only [markGrantPaid, done]
  have rows : ∀ row, row ∈ paidGrants.rows ↔
      ∃ old ∈ db.paidGrants.rows, row = old.confirm invoiceId now := by
    intro row
    rw [Table.mem_update done]
    simp [Grant.confirm]
  rw [written]
  apply grant_congr
  intro pubkey resource row
  rw [rows, Option.map_eq_some_iff]
  constructor
  · rintro ⟨⟨old, member, rfl⟩, samePubkey, sameResource⟩
    refine ⟨old, grant_eq_some.mpr ⟨member, ?_, ?_⟩, rfl⟩
    · rw [← samePubkey, Grant.confirm_pubkey]
    · rw [← sameResource, Grant.confirm_resource]
  · rintro ⟨old, found, rfl⟩
    obtain ⟨member, rfl, rfl⟩ := grant_eq_some.mp found
    exact ⟨⟨old, member, rfl⟩, old.confirm_pubkey .., old.confirm_resource ..⟩

theorem consumeGrant_grant (db : Db) (pubkey resource : String) :
    (db.consumeGrant pubkey resource).grant = fun pubkey' resource' =>
      if pubkey' = pubkey ∧ resource' = resource then none
      else db.grant pubkey' resource' := by
  apply grant_congr
  intro pubkey' resource' row
  simp only [consumeGrant, Table.delete, List.mem_filter, Bool.not_eq_true',
    Bool.and_eq_false_iff, decide_eq_false_iff_not]
  split
  · rename_i same
    obtain ⟨rfl, rfl⟩ := same
    constructor
    · rintro ⟨⟨-, apart⟩, samePubkey, sameResource⟩
      rcases apart with otherPubkey | otherResource
      · exact absurd samePubkey otherPubkey
      · exact absurd sameResource otherResource
    · intro found
      cases found
  · rename_i different
    rw [grant_eq_some]
    constructor
    · rintro ⟨⟨member, -⟩, isKey⟩
      exact ⟨member, isKey⟩
    · rintro ⟨member, rfl, rfl⟩
      exact ⟨⟨member, Decidable.not_and_iff_not_or_not.mp different⟩, rfl, rfl⟩

end Db

/-! ## Steps that leave the grants alone -/

def Op.keepsGrants : Op → Bool
  | .db (.putPendingGrant _ _ _ _) => false
  | .db (.markGrantPaid _) => false
  | .db (.consumeGrant _ _) => false
  | _ => true

theorem Db.setOfferStatus_paidGrants (db : Db) (offerId : String)
    (status : OfferStatus) :
    (db.setOfferStatus offerId status).2.paidGrants = db.paidGrants := by
  unfold setOfferStatus
  split <;> rfl

theorem Db.runClaimTxn_paidGrants (db : Db) (offer : OfferRow)
    (excessHex : String) (kernelHeight : Option Int) (now : Int) :
    (db.runClaimTxn offer excessHex kernelHeight now).2.paidGrants =
      db.paidGrants := by
  unfold runClaimTxn
  split
  · rfl
  rename_i names updated _
  split
  · rfl
  split
  · rfl
  rename_i transfers _
  have kept := setOfferStatus_paidGrants { db with names, transfers }
    offer.offerId .consumed
  split
  · rfl
  · rename_i committed done
    rw [done] at kept
    exact kept

theorem Op.exec_keepsGrants (env : Env) {op : Op} (world : World)
    (keeps : op.keepsGrants = true) :
    (op.exec env world).2.db.grant = world.db.grant := by
  have same : (op.exec env world).2.db.paidGrants = world.db.paidGrants := by
    cases op with
    | db op =>
        cases op with
        | putPendingGrant => cases keeps
        | markGrantPaid => cases keeps
        | consumeGrant => cases keeps
        | insertName name pubkey =>
            simp only [exec, DbOp.exec, Db.insertName]
            split <;> rfl
        | releaseName name =>
            simp only [exec, DbOp.exec, Db.releaseName]
            split <;> rfl
        | insertOffer row =>
            simp only [exec, DbOp.exec, Db.insertOffer]
            split <;> rfl
        | markOfferDead offerId status endHeight stateChangedAt =>
            simp only [exec, DbOp.exec, Db.markOfferDead]
            split <;> rfl
        | reviseRevoked offerId =>
            exact world.db.setOfferStatus_paidGrants offerId .revoked
        | runClaimTxn offer excessHex kernelHeight now =>
            exact world.db.runClaimTxn_paidGrants offer excessHex kernelHeight
              now
        | _ => rfl
    | _ => rfl
  funext pubkey resource
  simp only [Db.grant, same]

/-- What one step makes of the grants. -/
inductive GrantEffect (now : Int)
    (before after : String → String → Option Grant) : Op → Prop where
  | kept {op : Op} (keeps : op.keepsGrants = true) (same : after = before) :
      GrantEffect now before after op
  | recorded {pubkey resource : String} {invoice : Invoice} {amount : Nat}
      (put : after = fun pubkey' resource' =>
        if pubkey' = pubkey ∧ resource' = resource then
          some (Db.pendingGrant pubkey resource invoice.id invoice.payUrl
            (MachineInt.asI64 amount) now)
        else before pubkey' resource') :
      GrantEffect now before after
        (.db (.putPendingGrant pubkey resource invoice amount))
  | confirmed {invoiceId : String}
      (marked : after = fun pubkey resource =>
        (before pubkey resource).map (Grant.confirm invoiceId now)) :
      GrantEffect now before after (.db (.markGrantPaid invoiceId))
  | consumed {pubkey resource : String}
      (deleted : after = fun pubkey' resource' =>
        if pubkey' = pubkey ∧ resource' = resource then none
        else before pubkey' resource') :
      GrantEffect now before after (.db (.consumeGrant pubkey resource))

theorem Op.exec_grants (env : Env) (op : Op) (world : World) :
    GrantEffect world.unixTime.seconds world.db.grant
      (op.exec env world).2.db.grant op := by
  by_cases keeps : op.keepsGrants = true
  · exact .kept keeps (exec_keepsGrants env world keeps)
  · cases op with
    | db op =>
        cases op with
        | putPendingGrant pubkey resource invoice amount =>
            exact .recorded (world.db.putPendingGrant_grant ..)
        | markGrantPaid invoiceId =>
            exact .confirmed (world.db.markGrantPaid_grant ..)
        | consumeGrant pubkey resource =>
            exact .consumed (world.db.consumeGrant_grant ..)
        | _ => exact absurd rfl keeps
    | _ => exact absurd rfl keeps

theorem Op.exec_grant_origin (env : Env) {op : Op} {world : World}
    {pubkey resource : String} {grant : Grant}
    (stored : (op.exec env world).2.db.grant pubkey resource = some grant) :
    (∃ old, world.db.grant pubkey resource = some old ∧
      old.invoiceId = grant.invoiceId) ∨
    ∃ invoice amount,
      op = .db (.putPendingGrant pubkey resource invoice amount) ∧
        grant.invoiceId = invoice.id := by
  cases op.exec_grants env world with
  | kept _ same =>
      rw [same] at stored
      exact .inl ⟨grant, stored, rfl⟩
  | recorded put =>
      rw [put] at stored
      dsimp only at stored
      split at stored
      · rename_i isKey
        obtain ⟨rfl, rfl⟩ := isKey
        cases stored
        exact .inr ⟨_, _, rfl, rfl⟩
      · exact .inl ⟨grant, stored, rfl⟩
  | confirmed marked =>
      rw [marked] at stored
      obtain ⟨old, found, rfl⟩ := Option.map_eq_some_iff.mp stored
      exact .inl ⟨old, found, (old.confirm_invoiceId ..).symm⟩
  | consumed deleted =>
      rw [deleted] at stored
      dsimp only at stored
      split at stored
      · cases stored
      · exact .inl ⟨grant, stored, rfl⟩

end Floonet
