import Floonet.Auth
import Floonet.Proof

/-!
# Name transfers

The offer and claim marketplace: a seller lodges a signed offer, and the buyer
claims the name with a Grin payment proof.
-/

namespace Floonet

open Concurrent MachineInt Text Validation

/-- The kind of offer events. -/
def offerKind : UInt16 := 3402

/-- The tags that an offer must have. -/
structure OfferTags where
  name : String
  domain : String
  buyer : String
  price : String
  proofAddress : String
  expiration : String

/-- The value of the last tag with a given key. -/
def tagValue (tags : List (List String)) (key : String) : Option String :=
  tags.foldl (fun found tag => if tag.head? = some key then tag[1]? else found)
    none

def extractOfferTags (event : Event) : Option OfferTags := do
  return {
    name := ← tagValue event.tags "name"
    domain := ← tagValue event.tags "domain"
    buyer := ← tagValue event.tags "p"
    price := ← tagValue event.tags "price"
    proofAddress := ← tagValue event.tags "proof_address"
    expiration := ← tagValue event.tags "expiration" }

/-- The name in the hands of the buyer. -/
def claimSuccess (name domain buyer : String) : Json :=
  .object [("name", .string name), ("nip05", .string s!"{name}@{domain}"),
    ("pubkey", .string buyer)]

variable (ext : Extern) (cfg : Config)

/-- The chain tip to record for an offer that dies now.  The node is present
exactly when transfers are enabled. -/
def deathHeight : Handler (Option Int) := do
  if !cfg.allowTransfers then return none
  match ← App.tipHeight with
  | .ok height => return some (asI64 height.toNat)
  | .error _ => return none

/-- Expire a row that is still `live` past its expiration. -/
def settleExpiry (offer : OfferRow) (now : Int) : Handler OfferRow := do
  if offer.status ≠ .live ∨ now ≤ offer.expiration then return offer
  let endHeight ← deathHeight cfg
  let _ ← App.markOfferDead offer.offerId .expired endHeight now
  return (← App.getOffer offer.offerId).getD offer

/-! ## Lodging -/

/-- A well-formed offer. -/
structure Lodgement where
  offerId : String
  eventJson : String
  name : String
  seller : String
  buyer : String
  price : Nat
  proofAddress : String
  expiration : Int

/-- The row that lodging inserts. -/
def Lodgement.row (lodgement : Lodgement) (now : Int) : OfferRow where
  offerId := lodgement.offerId
  eventJson := lodgement.eventJson
  name := lodgement.name
  sellerPubkey := lodgement.seller
  buyerPubkey := lodgement.buyer
  priceNanogrin := asI64 lodgement.price
  proofAddress := lodgement.proofAddress
  expiration := lodgement.expiration
  status := .live
  endHeight := none
  stateChangedAt := none
  createdAt := now

/-- The checks of `lodge_offer` that only look at the body. -/
def lodgeRequest (authPubkey : String) (body : Bytes) :
    Except Response Lodgement := do
  let invalid := err .badRequest "invalid offer"
  let req ← demand (ext.jsonFromSlice body) invalid
  let offerVal ← demand (req.get "offer") invalid
  let event ← demand (ext.eventFromJson offerVal) invalid
  require (ext.eventVerify event) invalid
  require (event.kind == offerKind) invalid
  require (event.pubkey.toHex == authPubkey)
    (err .unauthorized "auth pubkey does not match offer pubkey")
  let tags ← demand (extractOfferTags event) invalid
  require (validName tags.name cfg.nameMin cfg.nameMax) invalid
  require (tags.domain == cfg.domain) invalid
  let buyer := ext.cases.toLowercase tags.buyer
  require (validPubkeyHex buyer) invalid
  let price ← demand (parseU64 (trim tags.price)) invalid
  let proofAddress := normalizeGrinAddress ext tags.proofAddress
  require (decodeGrinAddress ext proofAddress).isSome invalid
  let expiration ← demand (parseI64 (trim tags.expiration)) invalid
  return {
    offerId := event.id.toHex
    eventJson := ext.eventAsJson event
    name := tags.name
    seller := event.pubkey.toHex
    buyer
    price
    proofAddress
    expiration }

/-- The checks against the clock and the tables, and the insertion. -/
def lodge (lodgement : Lodgement) : Handler Response := do
  let now ← App.unixNow
  if lodgement.expiration ≤ now ∨
      wrapI64 (now + cfg.transferMaxOfferTtl) < lodgement.expiration then
    return err .badRequest "invalid offer"
  if (← App.lookup lodgement.name) ≠ some lodgement.seller then
    return err .forbidden "not the owner"
  if ← App.liveOfferForName lodgement.name now then
    return err .conflict "offer_exists"
  if ← App.liveOfferBinding lodgement.proofAddress now then
    return err .conflict "offer_ambiguous"
  match ← App.insertOffer (lodgement.row now) with
  | .ok _ =>
      return ⟨.created, .object
        [("offer_id", .string lodgement.offerId),
          ("name", .string lodgement.name),
          ("expires_at", .ofInt lodgement.expiration)]⟩
  | .error .constraintViolation => return err .conflict "offer_exists"
  | .error .other => return err .internalServerError "db error"

/-- `POST /api/v1/transfer/offer`. -/
def lodgeOffer (headers : Headers) (body : Bytes) : Handler Response := do
  match ← authorize ext cfg "transfer" headers .post
    "/api/v1/transfer/offer" body with
  | .error refusal => return refusal
  | .ok authPubkey =>
      match lodgeRequest ext cfg authPubkey body with
      | .error refusal => return refusal
      | .ok lodgement => lodge cfg lodgement

/-! ## Reading and revoking -/

/-- `GET /api/v1/transfer/offer/{offer_id}`. -/
def readOffer (offerId : String) (headers : Headers) : Handler Response := do
  if !(← App.allowRead cfg (clientIp headers)) then
    return err .tooManyRequests "rate_limited"
  match ← App.getOffer offerId with
  | none => return err .notFound "not found"
  | some offer =>
      let now ← App.unixNow
      let settled ← settleExpiry cfg offer now
      return ⟨.ok, .object
        [("offer", (ext.jsonFromStr settled.eventJson).getD .null),
          ("status", .string settled.status.text)]⟩

/-- The acknowledgement of a revocation. -/
def revoked (offerId : String) : Response :=
  ⟨.ok, .object [("offer_id", .string offerId), ("status", .string "revoked")]⟩

/-- The writes of `revoke_offer`.  A live row dies now; an expired one keeps
the death record it earned at expiry. -/
def revoke (offer : OfferRow) : Handler Unit := do
  let now ← App.unixNow
  if offer.status = .live then
    let endHeight ← deathHeight cfg
    let _ ← App.markOfferDead offer.offerId .revoked endHeight now
  else
    let _ ← App.reviseRevoked offer.offerId

/-- The revocation of an offer by an authenticated key. -/
def revokeById (authPubkey offerId : String) : Handler Response := do
  match ← App.getOffer offerId with
  | none => return err .notFound "not found"
  | some offer =>
      if authPubkey ≠ offer.sellerPubkey then
        return err .forbidden "not the owner"
      if offer.status = .consumed then
        return err .conflict "offer_consumed"
      if offer.status = .revoked then return revoked offerId
      revoke cfg offer
      return revoked offerId

/-- `DELETE /api/v1/transfer/offer/{offer_id}`. -/
def revokeOffer (offerId : String) (headers : Headers) :
    Handler Response := do
  match ← authorize ext cfg "transfer" headers .delete
    s!"/api/v1/transfer/offer/{offerId}" [] with
  | .error refusal => return refusal
  | .ok authPubkey => revokeById cfg authPubkey offerId

/-! ## Claiming -/

/-- An event id in hexadecimal. -/
def isOfferId (text : String) : Bool :=
  text.toList.length == 64 && text.toList.all isHexDigit

/-- The offer id and the payment proof of a claim. -/
def claimRequest (body : Bytes) :
    Except Response (String × ParsedPaymentProof) := do
  let invalid := err .badRequest "invalid body"
  let req ← demand (ext.jsonFromSlice body) invalid
  let offerId ← demand ((req.get "offer_id").bind Json.asStr) invalid
  require (isOfferId offerId) invalid
  let proofVal ← demand (req.get "proof") invalid
  let proof ← demand (parsePaymentProof ext proofVal)
    (err .badRequest "invalid proof")
  return (ext.cases.toLowercase offerId, proof)

/-- What the checks of a claim use of its proof. -/
structure Payment where
  excessHex : String
  amount : UInt64
  recipient : String
  verified : Bool

/-- The excess, the amount and the recipient, and whether the signatures
hold. -/
def ParsedPaymentProof.payment (proof : ParsedPaymentProof) : Payment where
  excessHex := proof.excessHex
  amount := proof.amount
  recipient := normalizeGrinAddress ext proof.recipientAddress
  verified := verifySignatures ext proof

/-- The refusal of an offer that has ended. -/
def deadErr (offer : OfferRow) : Response :=
  err .gone
    (if offer.status = .revoked then "offer_revoked" else "offer_expired")

/-- A dead offer is honored within the grace window and only if its death
height is known; the result is that height. -/
def deathGate (offer : OfferRow) (now : Int) :
    Except Response (Option Int) :=
  if offer.status = .revoked ∨ offer.status = .expired then do
    let changed := offer.stateChangedAt.getD now
    require (decide (wrapI64 (now - changed) ≤ cfg.transferClaimGrace))
      (deadErr offer)
    let height ← demand offer.endHeight (deadErr offer)
    return some height
  else return none

/-- The proof pays this offer: signatures, recipient address and amount. -/
def proofGate (offer : OfferRow) (payment : Payment) :
    Except Response Unit := do
  require payment.verified (err .badRequest "invalid proof")
  require (payment.recipient == offer.proofAddress)
    (err .conflict "proof_address_mismatch")
  require (decide (0 ≤ offer.priceNanogrin) &&
      payment.amount.toNat == asU64 offer.priceNanogrin)
    (err .conflict "proof_amount_mismatch")

/-- Whether a kernel settled at or below the height at which its offer died. -/
def settledInTime : Option Int → Option Int → Bool
  | none, _ => true
  | some endHeight, some kernelHeight => decide (kernelHeight ≤ endHeight)
  | some _, none => false

/-- The kernel is confirmed and settled no higher than the offer's death; the
result is its height. -/
def kernelGate (offer : OfferRow) (deadEndHeight : Option Int)
    (kernel : Except String KernelResult) : Except Response (Option Int) := do
  let unconfirmed := err .conflict "payment_unconfirmed"
  let kernel ← demand kernel.toOption unconfirmed
  require (kernel.found &&
    decide (cfg.transferMinConf ≤ kernel.confirmations.toNat)) unconfirmed
  let kernelHeight := kernel.height.map fun height => asI64 height.toNat
  require (settledInTime deadEndHeight kernelHeight) (deadErr offer)
  return kernelHeight

/-- The answer of the node about a kernel. -/
def nodeKernel (excessHex : String) :
    Handler (Except String KernelResult) := do
  if !cfg.allowTransfers then
    return .error "transfers enabled but no node configured"
  App.kernel excessHex

/-- The answer about an offer that is consumed already: a retry of the claim
that consumed it succeeds. -/
def claimRetry (offerId excessHex : String) : Handler Response := do
  match ← App.transferForOffer offerId with
  | some (excess, name, buyer) =>
      if excess = excessHex then
        return ⟨.ok, claimSuccess name cfg.domain buyer⟩
      return err .conflict "offer_consumed"
  | none => return err .conflict "offer_consumed"

/-- The transaction and its mapping to a response. -/
def executeClaim (offer : OfferRow) (excessHex : String)
    (kernelHeight : Option Int) (now : Int) : Handler Response := do
  match ← App.runClaimTxn offer excessHex kernelHeight now with
  | .ok _ =>
      App.recordOp "namechange" offer.sellerPubkey
      return ⟨.created,
        claimSuccess offer.name cfg.domain offer.buyerPubkey⟩
  | .error .ownerChanged => return err .conflict "owner_changed"
  | .error .buyerHasName => return err .conflict "pubkey already has a name"
  | .error .reused => return err .conflict "proof_reused"
  | .error .db => return err .internalServerError "db error"

/-- The checks of the payment, and the execution of the claim. -/
def claimPaid (offer : OfferRow) (excessHex : String)
    (deadEndHeight : Option Int) (now : Int) : Handler Response := do
  match kernelGate cfg offer deadEndHeight (← nodeKernel cfg excessHex) with
  | .error refusal => return refusal
  | .ok kernelHeight =>
      if ← App.excessUsed excessHex then
        return err .conflict "proof_reused"
      match ← App.nameOf offer.buyerPubkey with
      | some existing =>
          return ⟨.conflict, .object
            [("error", .string "pubkey already has a name"),
              ("name", .string existing)]⟩
      | none => executeClaim cfg offer excessHex kernelHeight now

/-- The checks of the claim against a settled snapshot of its offer. -/
def claimOffer (authPubkey offerId : String) (payment : Payment)
    (offer : OfferRow) (now : Int) : Handler Response := do
  if offer.status = .consumed then
    return ← claimRetry cfg offerId payment.excessHex
  match deathGate cfg offer now with
  | .error refusal => return refusal
  | .ok deadEndHeight =>
      if authPubkey ≠ offer.buyerPubkey then
        return err .unauthorized "not the buyer"
      if (← App.lookup offer.name) ≠ some offer.sellerPubkey then
        return err .conflict "owner_changed"
      match proofGate offer payment with
      | .error refusal => return refusal
      | .ok _ => claimPaid cfg offer payment.excessHex deadEndHeight now

/-- The claim of an offer by an authenticated key. -/
def claimById (authPubkey offerId : String) (payment : Payment) :
    Handler Response := do
  match ← App.getOffer offerId with
  | none => return err .notFound "not found"
  | some offer =>
      let now ← App.unixNow
      let settled ← settleExpiry cfg offer now
      claimOffer cfg authPubkey offerId payment settled now

/-- `POST /api/v1/transfer/claim`. -/
def claim (headers : Headers) (body : Bytes) : Handler Response := do
  match ← authorize ext cfg "transfer" headers .post
    "/api/v1/transfer/claim" body with
  | .error refusal => return refusal
  | .ok authPubkey =>
      match claimRequest ext body with
      | .error refusal => return refusal
      | .ok (offerId, proof) =>
          claimById cfg authPubkey offerId (proof.payment ext)

end Floonet
