import Floonet.Bech32
import Floonet.Text

/-!
# Requests, responses and third-party code

The values that cross the boundary of the server, and the third-party code it
calls.  The latter is a parameter, `Extern`, of every definition that uses it.
-/

namespace Floonet

open Text

abbrev Bytes := List UInt8

/-! ## JSON -/

/-- `serde_json::Number`, floats without their value. -/
inductive JsonNumber where
  | posInt (value : UInt64)
  | negInt (value : Int64)
  | float
deriving DecidableEq

/-- `serde_json::Value`; the keys of an object are distinct. -/
inductive Json where
  | null
  | bool (value : Bool)
  | number (value : JsonNumber)
  | string (value : String)
  | array (items : List Json)
  | object (fields : List (String × Json))

namespace Json

def asStr : Json → Option String
  | .string value => some value
  | _ => none

def asU64 : Json → Option UInt64
  | .number (.posInt value) => some value
  | _ => none

def asObject : Json → Option (List (String × Json))
  | .object fields => some fields
  | _ => none

def isNull : Json → Bool
  | .null => true
  | _ => false

/-- The number an `i64` is written as. -/
def ofInt (value : Int) : Json :=
  .number (if 0 ≤ value then .posInt (.ofNat value.toNat)
    else .negInt (.ofInt value))

/-- `Value::get` with a string index. -/
def get (value : Json) (key : String) : Option Json :=
  value.asObject.bind fun fields => fields.lookup key

/-- `Value::get` with a number as index. -/
def getIndex : Json → Nat → Option Json
  | .array items, index => items[index]?
  | _, _ => none

end Json

/-! ## Nostr events -/

/-- A 32-byte identifier or key. -/
abbrev Bytes32 := { bytes : Bytes // bytes.length = 32 }

/-- Sixty-four lower-case digits. -/
def Bytes32.toHex (value : Bytes32) : String :=
  hexEncode value.val

/-- A Nostr event, less its content and signature. -/
structure Event where
  id : Bytes32
  pubkey : Bytes32
  createdAt : UInt64
  kind : UInt16
  tags : List (List String)
deriving DecidableEq

/-! ## HTTP -/

/-- The status codes the server answers with. -/
inductive StatusCode where
  | ok
  | created
  | badRequest
  | unauthorized
  | paymentRequired
  | forbidden
  | notFound
  | conflict
  | gone
  | tooManyRequests
  | internalServerError
  | serviceUnavailable
deriving DecidableEq

/-- A response; every body is JSON. -/
structure Response where
  status : StatusCode
  body : Json

/-- A refusal with its reason. -/
def err (code : StatusCode) (msg : String) : Response :=
  ⟨code, .object [("error", .string msg)]⟩

inductive Method where
  | get
  | post
  | delete
  | other (token : String)
deriving DecidableEq

def Method.asStr : Method → String
  | .get => "GET"
  | .post => "POST"
  | .delete => "DELETE"
  | .other token => token

/-- What base64 and the nostr crate make of an `Authorization` header. -/
inductive Authorization where
  | missing
  | otherScheme
  | invalidBase64
  | invalidJson
  | badSignature (event : Event)
  | signed (event : Event)
deriving DecidableEq

/-- The headers that authentication and the rate limits look at. -/
structure Headers where
  authorization : Authorization
  realIp : Option String

/-- The address the proxy passes on. -/
def clientIp (headers : Headers) : String :=
  headers.realIp.getD "unknown"

/-- The key that signed the request, if its signature verifies. -/
def Headers.signer (headers : Headers) : Option String :=
  match headers.authorization with
  | .signed event => some event.pubkey.toHex
  | _ => none

/-! ## Third-party code -/

/-- The body of a registration. -/
structure RegisterBody where
  name : String
  pubkey : String

structure Extern where
  cases : CaseTables
  jsonFromSlice : Bytes → Option Json
  jsonFromStr : String → Option Json
  registerBody : Bytes → Option RegisterBody
  quoteBody : Bytes → Option String
  eventFromJson : Json → Option Event
  eventVerify : Event → Bool
  eventAsJson : Event → String
  sha256 : Bytes → Bytes
  hmacSha256 : Bytes → Bytes → Bytes
  bech32Decode : String → Option (String × List (Fin 32) × Bech32.Variant)
  fromBase32 : List (Fin 32) → Option Bytes
  verifyingKeyVerify : Bytes → Bytes → Bytes → Bool

end Floonet
