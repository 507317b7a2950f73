import Floonet.Relational.Table
import Floonet.Wire

/-!
# The SQLite layer

The four tables with their constraints, and one function for each statement
the server executes.  A statement either succeeds with the number of rows it
touched or is refused by a constraint; I/O failures are not modelled.
-/

namespace Floonet

open Relational

/-! ## Tables -/

/-- A row of `names`.  A released name keeps its row. -/
structure NameRow where
  name : String
  pubkey : String
  createdAt : Int
  releasedAt : Option Int
deriving DecidableEq

/-- The name belongs to `pubkey` at present. -/
def NameRow.active (row : NameRow) : Bool := row.releasedAt.isNone

/-- The partial index `idx_active_pubkey`. -/
def NameRow.activePubkey (row : NameRow) : Option String :=
  if row.active then some row.pubkey else none

inductive OfferStatus where
  | live
  | consumed
  | revoked
  | expired
deriving DecidableEq

/-- The status as the column stores it. -/
def OfferStatus.text : OfferStatus → String
  | .live => "live"
  | .consumed => "consumed"
  | .revoked => "revoked"
  | .expired => "expired"

/-- A row of `offers`. -/
structure OfferRow where
  offerId : String
  eventJson : String
  name : String
  sellerPubkey : String
  buyerPubkey : String
  priceNanogrin : Int
  proofAddress : String
  expiration : Int
  status : OfferStatus
  endHeight : Option Int
  stateChangedAt : Option Int
  createdAt : Int
deriving DecidableEq

/-- The row is `live` and not past its expiration. -/
def OfferRow.onSale (row : OfferRow) (now : Int) : Bool :=
  decide (row.status = .live) && decide (now ≤ row.expiration)

/-- A row of `transfers`, the record of a sale. -/
structure TransferRow where
  offerId : String
  name : String
  sellerPubkey : String
  buyerPubkey : String
  priceNanogrin : Int
  kernelExcess : String
  kernelHeight : Option Int
  claimedAt : Int
deriving DecidableEq

inductive GrantStatus where
  | pending
  | paid
deriving DecidableEq

/-- A row of `paid_grants`. -/
structure Grant where
  pubkey : String
  resource : String
  invoiceId : String
  payUrl : String
  amountNanogrin : Int
  status : GrantStatus
  createdAt : Int
  paidAt : Option Int
deriving DecidableEq

/-- The index of a table without a unique index. -/
def noIndex (Row : Type) (_ : Row) : Option Empty := none

/-- The primary key is the name; the partial index allows a key one active
name. -/
abbrev NamesTable := Table NameRow.name NameRow.activePubkey

/-- The primary key is the event id. -/
abbrev OffersTable := Table OfferRow.offerId (noIndex OfferRow)

/-- The primary key is the offer; the kernel excess is unique. -/
abbrev TransfersTable :=
  Table TransferRow.offerId fun row : TransferRow => some row.kernelExcess

/-- A key has one grant for each resource. -/
abbrev GrantsTable :=
  Table (fun row : Grant => (row.pubkey, row.resource))
    (noIndex Grant)

/-- The tables of the authority. -/
structure Db where
  names : NamesTable
  offers : OffersTable
  transfers : TransfersTable
  paidGrants : GrantsTable

def Db.empty : Db := ⟨.empty, .empty, .empty, .empty⟩

/-- How a statement is refused. -/
inductive SqlError where
  | constraintViolation
  | other
deriving DecidableEq

namespace Db

/-! ## Names -/

/-- The owner of an active name. -/
def lookup (db : Db) (name : String) : Option String :=
  (db.names.select fun row => decide (row.name = name) && row.active).map
    NameRow.pubkey

/-- The active name of a key. -/
def nameOf (db : Db) (pubkey : String) : Option String :=
  (db.names.select fun row =>
    decide (row.pubkey = pubkey) && row.active).map NameRow.name

/-- The upsert of `register`: it only revives a released name. -/
def insertName (db : Db) (name pubkey : String) (now : Int) :
    Except SqlError Nat × Db :=
  match db.names.upsert ⟨name, pubkey, now, none⟩ (fun row => !row.active)
      fun row => { row with pubkey, createdAt := now, releasedAt := none } with
  | none => (.error .constraintViolation, db)
  | some (names, count) => (.ok count, { db with names })

/-- The release of `unregister`. -/
def releaseName (db : Db) (name : String) (now : Int) :
    Except SqlError Nat × Db :=
  match db.names.update (fun row => decide (row.name = name) && row.active)
      fun row => { row with releasedAt := some now } with
  | none => (.error .constraintViolation, db)
  | some (names, count) => (.ok count, { db with names })

/-! ## Offers -/

def getOffer (db : Db) (offerId : String) : Option OfferRow :=
  db.offers.select fun row => decide (row.offerId = offerId)

/-- Some offer of this name is on sale. -/
def liveOfferForName (db : Db) (name : String) (now : Int) : Bool :=
  db.offers.exists? fun row => decide (row.name = name) && row.onSale now

/-- Some offer on sale is to be paid to this address. -/
def liveOfferBinding (db : Db) (proofAddress : String) (now : Int) : Bool :=
  db.offers.exists? fun row =>
    decide (row.proofAddress = proofAddress) && row.onSale now

def insertOffer (db : Db) (row : OfferRow) : Except SqlError Nat × Db :=
  match db.offers.insert row with
  | none => (.error .constraintViolation, db)
  | some offers => (.ok 1, { db with offers })

/-- `UPDATE offers ... WHERE offer_id = ... AND status = 'live'`. -/
def markOfferDead (db : Db) (offerId : String) (status : OfferStatus)
    (endHeight : Option Int) (stateChangedAt : Int) :
    Except SqlError Nat × Db :=
  match db.offers.update
      (fun row => decide (row.offerId = offerId) && decide (row.status = .live))
      fun row =>
        { row with status, endHeight, stateChangedAt := some stateChangedAt }
      with
  | none => (.error .constraintViolation, db)
  | some (offers, count) => (.ok count, { db with offers })

/-- `UPDATE offers SET status = ... WHERE offer_id = ...`, whatever the
present status is. -/
def setOfferStatus (db : Db) (offerId : String) (status : OfferStatus) :
    Except SqlError Nat × Db :=
  match db.offers.update (fun row => decide (row.offerId = offerId))
      fun row => { row with status } with
  | none => (.error .constraintViolation, db)
  | some (offers, count) => (.ok count, { db with offers })

/-! ## Transfers -/

/-- The excess, the name and the buyer of a sale. -/
def transferForOffer (db : Db) (offerId : String) :
    Option (String × String × String) :=
  (db.transfers.select fun row => decide (row.offerId = offerId)).map
    fun row => (row.kernelExcess, row.name, row.buyerPubkey)

/-- The payment has bought something already. -/
def excessUsed (db : Db) (excessHex : String) : Bool :=
  db.transfers.exists? fun row => decide (row.kernelExcess = excessHex)

end Db

/-- How the claim transaction fails. -/
inductive TxErr where
  | ownerChanged
  | buyerHasName
  | reused
  | db
deriving DecidableEq

namespace Db

/-- The claim transaction.  An error rolls everything back. -/
def runClaimTxn (db : Db) (offer : OfferRow) (excessHex : String)
    (kernelHeight : Option Int) (now : Int) : Except TxErr Unit × Db :=
  match db.names.update
      (fun row => decide (row.name = offer.name) &&
        decide (row.pubkey = offer.sellerPubkey) && row.active)
      fun row =>
        { row with pubkey := offer.buyerPubkey, createdAt := now } with
  | none => (.error .buyerHasName, db)
  | some (names, updated) =>
  if updated ≠ 1 then (.error .ownerChanged, db)
  else
  match db.transfers.insert
      { offerId := offer.offerId
        name := offer.name
        sellerPubkey := offer.sellerPubkey
        buyerPubkey := offer.buyerPubkey
        priceNanogrin := offer.priceNanogrin
        kernelExcess := excessHex
        kernelHeight
        claimedAt := now } with
  | none => (.error .reused, db)
  | some transfers =>
  match ({ db with names, transfers } : Db).setOfferStatus offer.offerId
      .consumed with
  | (.error _, _) => (.error .db, db)
  | (.ok _, committed) => (.ok (), committed)

/-! ## Paid grants -/

/-- The grant of a key for a resource. -/
def grant (db : Db) (pubkey resource : String) : Option Grant :=
  db.paidGrants.select fun row =>
    decide (row.pubkey = pubkey) && decide (row.resource = resource)

/-- `INSERT ... ON CONFLICT DO UPDATE`: the new invoice replaces the old one. -/
def putPendingGrant (db : Db) (pubkey resource invoiceId payUrl : String)
    (amount now : Int) : Db :=
  let pending : Grant :=
    ⟨pubkey, resource, invoiceId, payUrl, amount, .pending, now, none⟩
  match db.paidGrants.upsert pending (fun _ => true) fun row =>
      { row with
        invoiceId
        payUrl
        amountNanogrin := amount
        status := .pending
        createdAt := now
        paidAt := none } with
  | none => db
  | some (paidGrants, _) => { db with paidGrants }

/-- Confirm the grant of an invoice; whether one was waiting for it. -/
def markGrantPaid (db : Db) (invoiceId : String) (now : Int) : Bool × Db :=
  match db.paidGrants.update
      (fun row => decide (row.invoiceId = invoiceId) &&
        decide (row.status ≠ .paid))
      fun row => { row with status := .paid, paidAt := some now } with
  | none => (false, db)
  | some (paidGrants, count) => (decide (0 < count), { db with paidGrants })

def grantByInvoice (db : Db) (invoiceId : String) : Option Grant :=
  db.paidGrants.select fun row => decide (row.invoiceId = invoiceId)

/-- A registration uses its grant up. -/
def consumeGrant (db : Db) (pubkey resource : String) : Db :=
  { db with
    paidGrants := db.paidGrants.delete fun row =>
      decide (row.pubkey = pubkey) && decide (row.resource = resource) }

end Db

end Floonet
