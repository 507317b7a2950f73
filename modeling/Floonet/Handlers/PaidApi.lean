import Floonet.Auth
import Floonet.Paid

/-!
# The paid-resource endpoints

The write-grant status, quotes, and the webhook, which is only a nudge to ask
the payment backend.
-/

namespace Floonet

open Concurrent MachineInt Text

variable (ext : Extern) (cfg : Config)

/-- Whether a key may write, as the policy plugin reads it. -/
def paidBody (pubkey : String) (paid : Bool) : Response :=
  ⟨.ok, .object [("pubkey", .string pubkey), ("paid", .bool paid)]⟩

/-- `GET /api/v1/paid/{pubkey}`. -/
def paidStatus (pubkey : String) (headers : Headers) : Handler Response := do
  if !(← App.allowRead cfg (clientIp headers)) then
    return err .tooManyRequests "rate_limited"
  let pubkey := ext.cases.toLowercase pubkey
  if !validPubkeyHex pubkey then return err .notFound "not found"
  if cfg.payMode ≠ .write then return paidBody pubkey true
  match ← App.grant pubkey "write" with
  | none => return paidBody pubkey false
  | some grant =>
      if grant.status = .paid then return paidBody pubkey true
      match ← ensurePaid cfg pubkey "write" with
      | .paid => return paidBody pubkey true
      | _ => return paidBody pubkey false

/-- The mode sells this resource. -/
def sellable (resource : String) : Bool :=
  match cfg.payMode with
  | .off => false
  | .name => resource == "name"
  | .write => resource == "write"

/-- `POST /api/v1/quote`. -/
def quote (headers : Headers) (body : Bytes) : Handler Response := do
  match ← authorize ext cfg "quote" headers .post "/api/v1/quote" body with
  | .error refusal => return refusal
  | .ok authPubkey =>
      let some resource := ext.quoteBody body
        | return err .badRequest "invalid body"
      if !sellable cfg resource then
        return err .badRequest "resource not for sale on this authority"
      match ← ensurePaid cfg authPubkey resource with
      | .paid => return ⟨.ok, .object
          [("resource", .string resource), ("pubkey", .string authPubkey),
            ("paid", .bool true)]⟩
      | .due invoiceId payUrl price =>
          return paymentRequired resource invoiceId payUrl price
      | .unavailable _ => return paymentUnavailable

/-- The bytes of a signature header that authenticates `body`. -/
def webhookSignature (secret : String) (body : Bytes) : String :=
  "sha256=" ++ hexEncode (ext.hmacSha256 secret.toUTF8.toList body)

/-- An authenticated webhook is acknowledged, whatever it is about. -/
def webhookAck : Response := ⟨.ok, .object [("ok", .bool true)]⟩

/-- Ask the backend about an invoice, if there is a paywall at all. -/
def confirmInvoice (invoiceId : String) : Handler Bool := do
  if (Paywall.fromConfig cfg).isNone then return false
  match ← App.invoiceStatus invoiceId with
  | .ok status => return decide (status = "paid")
  | .error _ => return false

/-- `POST /api/v1/goblinpay/webhook`. -/
def goblinpayWebhook (signature : Option String) (body : Bytes) :
    Handler Response := do
  let some secret := cfg.goblinpayWebhookSecret
    | return err .notFound "not found"
  if trim (signature.getD "") ≠ webhookSignature ext secret body then
    return err .unauthorized "bad signature"
  let some payload := ext.jsonFromSlice body
    | return err .badRequest "invalid body"
  let some invoiceId := (payload.get "invoice_id").bind Json.asStr
    | return webhookAck
  match ← App.grantByInvoice invoiceId with
  | none => return webhookAck
  | some grant =>
      if grant.status ≠ .paid then
        if ← confirmInvoice cfg invoiceId then
          let _ ← App.markGrantPaid invoiceId
      return webhookAck

end Floonet
