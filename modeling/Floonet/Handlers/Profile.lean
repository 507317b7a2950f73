import Floonet.World

/-!
# Public lookups

The profile of a name, the name of a key, and NIP-05 resolution.
-/

namespace Floonet

open Concurrent

variable (ext : Extern) (cfg : Config)

/-- A name and its key. -/
def profileBody (name pubkey : String) : Response :=
  ⟨.ok, .object [("name", .string name), ("pubkey", .string pubkey)]⟩

/-- `GET /api/v1/profile/{name}`. -/
def profile (name : String) (headers : Headers) : Handler Response := do
  if !(← App.allowRead cfg (clientIp headers)) then
    return err .tooManyRequests "rate_limited"
  let name := ext.cases.toLowercase name
  if !validName name cfg.nameMin cfg.nameMax then
    return err .notFound "not found"
  match ← App.lookup name with
  | some pubkey => return profileBody name pubkey
  | none => return err .notFound "not found"

/-- `GET /api/v1/by-pubkey/{pubkey}`. -/
def byPubkey (pubkey : String) (headers : Headers) : Handler Response := do
  if !(← App.allowRead cfg (clientIp headers)) then
    return err .tooManyRequests "rate_limited"
  let pubkey := ext.cases.toLowercase pubkey
  if !validPubkeyHex pubkey then return err .notFound "not found"
  match ← App.nameOf pubkey with
  | some name => return profileBody name pubkey
  | none => return err .notFound "not found"

/-- The NIP-05 document: the queried name, if it is active. -/
def wellKnownBody (found : Option (String × String)) : Response :=
  match found with
  | none => ⟨.ok, .object [("names", .object []), ("relays", .object [])]⟩
  | some (name, pubkey) => ⟨.ok, .object
      [("names", .object [(name, .string pubkey)]),
        ("relays", .object
          [(pubkey, .array (cfg.relays.map Json.string))])]⟩

/-- `GET /.well-known/nostr.json`. -/
def wellKnown (name : Option String) (headers : Headers) :
    Handler Response := do
  if !(← App.allowRead cfg (clientIp headers)) then
    return err .tooManyRequests "rate_limited"
  let some name := name.map ext.cases.toLowercase
    | return wellKnownBody cfg none
  if !validName name cfg.nameMin cfg.nameMax then
    return wellKnownBody cfg none
  match ← App.lookup name with
  | some pubkey => return wellKnownBody cfg (some (name, pubkey))
  | none => return wellKnownBody cfg none

end Floonet
