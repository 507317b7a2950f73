import Floonet.Auth
import Floonet.Paid

/-!
# The name registry

Availability, registration and release of names.
-/

namespace Floonet

open Concurrent Validation

variable (ext : Extern) (cfg : Config)

/-- `GET /api/v1/name/{name}`. -/
def availability (name : String) (headers : Headers) : Handler Response := do
  if !(← App.allowRead cfg (clientIp headers)) then
    return err .tooManyRequests "rate_limited"
  let name := ext.cases.toLowercase name
  let unavailable := fun reason : String => (⟨.ok, .object
    [("name", .string name), ("available", .bool false),
      ("reason", .string reason)]⟩ : Response)
  if !validName name cfg.nameMin cfg.nameMax then return unavailable "invalid"
  if isReserved name cfg.extraReserved then return unavailable "reserved"
  if (← App.lookup name).isSome then return unavailable "taken"
  return ⟨.ok, .object [("name", .string name), ("available", .bool true)]⟩

/-- The name and the key of a registration that passes all checks of its
body. -/
def registerRequest (authPubkey : String) (body : Bytes) :
    Except Response (String × String) := do
  let req ← demand (ext.registerBody body) (err .badRequest "invalid body")
  let name := ext.cases.toLowercase req.name
  let pubkey := ext.cases.toLowercase req.pubkey
  require (validPubkeyHex pubkey) (err .badRequest "invalid pubkey")
  require (pubkey == authPubkey)
    (err .unauthorized "auth pubkey does not match body pubkey")
  require (validName name cfg.nameMin cfg.nameMax)
    (err .badRequest "invalid name")
  require (!isReserved name cfg.extraReserved)
    (err .forbidden "name reserved")
  return (name, pubkey)

/-- A registered name with its NIP-05 identifier. -/
def nameBody (name : String) : Json :=
  .object [("name", .string name),
    ("nip05", .string s!"{name}@{cfg.domain}")]

/-- The refusal of a second name. -/
def pubkeyHasName (existing : String) : Response :=
  ⟨.conflict, .object [("error", .string "pubkey already has a name"),
    ("name", .string existing)]⟩

/-- The payment gate of `register`; `none` lets the request through. -/
def registerPayment (authPubkey : String) : Handler (Option Response) := do
  if cfg.payMode ≠ .name then return none
  match ← ensurePaid cfg authPubkey "name" with
  | .paid => return none
  | .due invoiceId payUrl price =>
      return some (paymentRequired "name" invoiceId payUrl price)
  | .unavailable _ => return some paymentUnavailable

/-- The write of `register`, guarded by the constraints of the table. -/
def acquireName (authPubkey name pubkey : String) : Handler Response := do
  match ← App.insertName name pubkey with
  | .ok 0 => return err .conflict "name taken"
  | .ok (_ + 1) =>
      if cfg.payMode = .name then App.consumeGrant authPubkey "name"
      return ⟨.created, nameBody cfg name⟩
  | .error .constraintViolation =>
      return err .conflict "pubkey already has a name"
  | .error .other => return err .internalServerError "db error"

/-- The registration of a name that may be registered. -/
def registerName (authPubkey name pubkey : String) : Handler Response := do
  match ← App.lookup name with
  | some owner =>
      if owner = pubkey then return ⟨.ok, nameBody cfg name⟩
      return err .conflict "name taken"
  | none =>
      match ← App.nameOf pubkey with
      | some existing => return pubkeyHasName existing
      | none =>
          match ← registerPayment cfg authPubkey with
          | some refusal => return refusal
          | none => acquireName cfg authPubkey name pubkey

/-- `POST /api/v1/register`. -/
def register (headers : Headers) (body : Bytes) : Handler Response := do
  match ← authorize ext cfg "reg" headers .post "/api/v1/register" body with
  | .error refusal => return refusal
  | .ok authPubkey =>
      if ← App.cooldownActive "namechange" authPubkey cfg.nameChangeCooldown
      then return err .tooManyRequests "name_change_cooldown"
      match registerRequest ext cfg authPubkey body with
      | .error refusal => return refusal
      | .ok (name, pubkey) => registerName cfg authPubkey name pubkey

/-- The release of a name by an authenticated key. -/
def unregisterName (authPubkey name : String) : Handler Response := do
  match ← App.lookup name with
  | none => return err .notFound "name not found"
  | some owner =>
      if owner ≠ authPubkey then
        return err .forbidden "not the owner"
      match ← App.releaseName name with
      | .ok _ =>
          App.recordOp "namechange" authPubkey
          return ⟨.ok, .object
            [("name", .string name), ("released", .bool true)]⟩
      | .error _ => return err .internalServerError "db error"

/-- `DELETE /api/v1/register/{name}`. -/
def unregister (name : String) (headers : Headers) : Handler Response := do
  let name := ext.cases.toLowercase name
  match ← authorize ext cfg "unreg" headers .delete
    s!"/api/v1/register/{name}" [] with
  | .error refusal => return refusal
  | .ok authPubkey => unregisterName authPubkey name

end Floonet
