import Floonet.World

/-!
# The paid-resource layer

Grants are pending until the payment backend confirms their invoice; only the
backend's own answer promotes a grant.
-/

namespace Floonet

open Concurrent MachineInt

/-- The prices of a paid mode. -/
structure Paywall where
  namePriceNanogrin : Nat
  writePriceNanogrin : Nat

/-- A paid mode has a paywall. -/
def Paywall.fromConfig (cfg : Config) : Option Paywall :=
  if cfg.payMode = .off then none
  else some ⟨cfg.namePriceNanogrin, cfg.writePriceNanogrin⟩

def Paywall.priceNanogrin (paywall : Paywall) (resource : String) : Nat :=
  if resource = "name" then paywall.namePriceNanogrin
  else if resource = "write" then paywall.writePriceNanogrin
  else 0

/-- What `ensure_paid` comes to. -/
inductive PaidOutcome where
  | paid
  | due (invoiceId payUrl : String) (priceNanogrin : Nat)
  | unavailable (reason : String)

variable (cfg : Config)

/-- Order an invoice and record it as a pending grant. -/
def newGrant (pubkey resource : String) (price : Nat) :
    Handler PaidOutcome := do
  let orderRef := s!"floonet-{resource}:{pubkey}"
  let memo := s!"Floonet {resource} ({cfg.domain})"
  match ← App.createInvoice orderRef price memo with
  | .ok invoice =>
      App.putPendingGrant pubkey resource invoice price
      return .due invoice.id invoice.payUrl price
  | .error reason => return .unavailable reason

/-- What a pending grant amounts to, after at most one throttled poll. -/
def pollGrant (grant : Grant) (pubkey resource : String) (price : Nat) :
    Handler PaidOutcome := do
  let due := PaidOutcome.due grant.invoiceId grant.payUrl
    (asU64 grant.amountNanogrin)
  let pollKey := s!"{pubkey}:{resource}"
  if ← App.cooldownActive "paidpoll" pollKey cfg.paidPollInterval then
    return due
  App.recordOp "paidpoll" pollKey
  match ← App.invoiceStatus grant.invoiceId with
  | .ok status =>
      if status = "paid" then
        let _ ← App.markGrantPaid grant.invoiceId
        return .paid
      if status = "expired" then newGrant cfg pubkey resource price
      else return due
  | .error _ => return due

/-- Make sure that `pubkey` has paid for `resource`. -/
def ensurePaid (pubkey resource : String) : Handler PaidOutcome :=
  match Paywall.fromConfig cfg with
  | none => return .paid
  | some paywall => do
      let price := paywall.priceNanogrin resource
      match ← App.grant pubkey resource with
      | none => newGrant cfg pubkey resource price
      | some grant =>
          if grant.status = .paid then return .paid
          pollGrant cfg grant pubkey resource price

/-- The body of the 402 response. -/
def paymentRequiredJson (resource invoiceId payUrl : String)
    (priceNanogrin : Nat) : Json :=
  .object [
    ("error", .string "payment_required"),
    ("resource", .string resource),
    ("invoice_id", .string invoiceId),
    ("pay_url", .string payUrl),
    ("price_grin", .string (nanogrinToGrin priceNanogrin)),
    ("price_nanogrin", .number (.posInt (.ofNat priceNanogrin))),
    ("currency", .string "GRIN")]

def paymentRequired (resource invoiceId payUrl : String)
    (priceNanogrin : Nat) : Response :=
  ⟨.paymentRequired,
    paymentRequiredJson resource invoiceId payUrl priceNanogrin⟩

def paymentUnavailable : Response :=
  err .serviceUnavailable "payment backend unavailable, try again"

end Floonet
