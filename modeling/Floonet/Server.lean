import Floonet.Concurrent.Serial
import Floonet.Handlers.PaidApi
import Floonet.Handlers.Profile
import Floonet.Handlers.Registry
import Floonet.Handlers.Transfer

/-!
# The server

The routes and the system they form: any number of requests, interleaved at
their atomic steps, over a world that starts with empty tables.
-/

namespace Floonet

open Concurrent

/-- A request to an endpoint, with what its handler extracts. -/
inductive Request where
  | wellKnown (name : Option String) (headers : Headers)
  | availability (name : String) (headers : Headers)
  | register (headers : Headers) (body : Bytes)
  | unregister (name : String) (headers : Headers)
  | profile (name : String) (headers : Headers)
  | byPubkey (pubkey : String) (headers : Headers)
  | paidStatus (pubkey : String) (headers : Headers)
  | quote (headers : Headers) (body : Bytes)
  | goblinpayWebhook (signature : Option String) (body : Bytes)
  | lodgeOffer (headers : Headers) (body : Bytes)
  | readOffer (offerId : String) (headers : Headers)
  | revokeOffer (offerId : String) (headers : Headers)
  | claim (headers : Headers) (body : Bytes)

/-- The key whose signature the request carries. -/
def Request.signer : Request → Option String
  | register headers _ | unregister _ headers | quote headers _
  | lodgeOffer headers _ | revokeOffer _ headers | claim headers _ =>
      headers.signer
  | _ => none

/-- The request asks for a name. -/
def Request.registers : Request → Bool
  | .register _ _ => true
  | _ => false

theorem Request.registers_iff {request : Request} :
    request.registers = true ↔
      ∃ headers body, request = .register headers body := by
  cases request <;> simp [registers]

variable (ext : Extern) (cfg : Config)

/-- The transfer routes exist only when transfers are enabled. -/
def transferRoute (handler : Handler Response) : Handler Response :=
  if cfg.allowTransfers then handler else return ⟨.notFound, .null⟩

/-- The handler of an endpoint. -/
def routes : Request → Handler Response
  | .wellKnown name headers => wellKnown ext cfg name headers
  | .availability name headers => availability ext cfg name headers
  | .register headers body => register ext cfg headers body
  | .unregister name headers => unregister ext cfg name headers
  | .profile name headers => profile ext cfg name headers
  | .byPubkey pubkey headers => byPubkey ext cfg pubkey headers
  | .paidStatus pubkey headers => paidStatus ext cfg pubkey headers
  | .quote headers body => quote ext cfg headers body
  | .goblinpayWebhook signature body => goblinpayWebhook ext cfg signature body
  | .lodgeOffer headers body =>
      transferRoute cfg (lodgeOffer ext cfg headers body)
  | .readOffer offerId headers =>
      transferRoute cfg (readOffer ext cfg offerId headers)
  | .revokeOffer offerId headers =>
      transferRoute cfg (revokeOffer ext cfg offerId headers)
  | .claim headers body => transferRoute cfg (claim ext cfg headers body)

/-- Empty tables and maps, at any time. -/
structure World.Initial (world : World) : Prop where
  db : world.db = .empty
  rate : world.rate = []
  seenAuth : world.seenAuth = []

abbrev FloonetSystem :=
  System World Env Tick Request Op Op.Ans Response

/-- The authority as a system of concurrent requests. -/
def server : FloonetSystem where
  handler := routes ext cfg
  exec := Op.exec
  tick := World.tick
  initial := World.Initial

abbrev FloonetPool := Pool World Request Op Op.Ans Response

abbrev FloonetThread := Thread World Request Op Op.Ans Response

abbrev FloonetExchange := Exchange World Env Request Response

end Floonet
