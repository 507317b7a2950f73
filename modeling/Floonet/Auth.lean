import Floonet.Validation
import Floonet.World

/-!
# NIP-98 authorization

Verification of the signed event in the `Authorization` header, and the
opening that every authenticated endpoint shares: rate limit, signature,
one-time use of the event.
-/

namespace Floonet

open Concurrent MachineInt Text Validation

/-- A refusal with status 401. -/
def unauthorized (msg : String) : StatusCode × String :=
  (.unauthorized, msg)

/-- The kind of NIP-98 events. -/
def httpAuthKind : UInt16 := 27235

/-- The characters before the trailing slashes. -/
def trimEndSlashes (url : String) : List Char :=
  (url.toList.reverse.dropWhile (· == '/')).reverse

/-- `str::eq_ignore_ascii_case`. -/
def eqIgnoreAsciiCase (left right : String) : Bool :=
  left.toList.map Char.toLower == right.toList.map Char.toLower

/-- What the tags of an auth event say about the request; later tags of a kind
override earlier ones. -/
structure AuthTags where
  uOk : Bool
  methodOk : Bool
  payloadHash : Option String

/-- Take one tag of the event into account. -/
def AuthTags.read (expectedUrl : String) (method : Method) (tags : AuthTags) :
    List String → AuthTags
  | "u" :: u :: _ =>
      { tags with uOk := trimEndSlashes u == trimEndSlashes expectedUrl }
  | "method" :: m :: _ =>
      { tags with methodOk := eqIgnoreAsciiCase m method.asStr }
  | "payload" :: parts => { tags with payloadHash := parts.head? }
  | _ => tags

/-- The checks of an auth event that do not depend on the clock. -/
def checkAuthTags (ext : Extern) (event : Event) (method : Method)
    (urlPath : String) (body : Bytes) (baseUrl : String) :
    Except (StatusCode × String) Unit := do
  let tags := event.tags.foldl (AuthTags.read (baseUrl ++ urlPath) method)
    ⟨false, false, none⟩
  require tags.uOk (unauthorized "auth event url mismatch")
  require tags.methodOk (unauthorized "auth event method mismatch")
  match tags.payloadHash with
  | some expected =>
      require (eqIgnoreAsciiCase expected (hexEncode (ext.sha256 body)))
        (unauthorized "auth event payload hash mismatch")
  | none =>
      require body.isEmpty (unauthorized "auth event missing payload hash")

variable (ext : Extern) (cfg : Config)

/-- On success, the authenticated key and the id of the auth event. -/
def verifyNip98 (headers : Headers) (method : Method) (urlPath : String)
    (body : Bytes) : Handler (Except (StatusCode × String) (String × String)) :=
  match headers.authorization with
  | .missing =>
      return .error (unauthorized "missing Authorization header")
  | .otherScheme =>
      return .error (unauthorized "Authorization scheme must be Nostr")
  | .invalidBase64 =>
      return .error (unauthorized "invalid base64 auth event")
  | .invalidJson => return .error (unauthorized "invalid auth event json")
  | .badSignature _ => return .error (unauthorized "bad event signature")
  | .signed event => do
      if event.kind ≠ httpAuthKind then
        return .error (unauthorized "auth event kind must be 27235")
      let now ← App.unixNow
      let age := wrapI64 (now - asI64 event.createdAt.toNat)
      if cfg.authMaxAgeSecs < age ∨ age < -5 then
        return .error (unauthorized "auth event expired or post-dated")
      match checkAuthTags ext event method urlPath body cfg.baseUrl with
      | .error refusal => return .error refusal
      | .ok _ => return .ok (event.pubkey.toHex, event.id.toHex)

/-- The opening of the authenticated endpoints. -/
def authorize (bucket : String) (headers : Headers) (method : Method)
    (urlPath : String) (body : Bytes) : Handler (Except Response String) := do
  if !(← App.allowWrite cfg bucket (clientIp headers)) then
    return .error (err .tooManyRequests "rate_limited")
  match ← verifyNip98 ext cfg headers method urlPath body with
  | .error (code, msg) => return .error (err code msg)
  | .ok (authPubkey, authId) =>
      if !(← App.authEventFresh cfg authId) then
        return .error (err .unauthorized "auth event replayed")
      return .ok authPubkey

end Floonet
