import Floonet.Names
import Floonet.Validation

/-!
# Runtime configuration

The resolved configuration and its start-up checks.  Durations are in
nanoseconds.
-/

namespace Floonet

open Text Validation

/-- Nanoseconds. -/
abbrev Duration := Nat

def Duration.fromSecs (seconds : Nat) : Duration := seconds * 1000000000

/-- A nanogrin amount in grin, without trailing zeros. -/
def nanogrinToGrin (nano : Nat) : String :=
  let whole := nano / 1000000000
  let frac := nano % 1000000000
  if frac = 0 then toString whole
  else
    let digits := (toString frac).toList
    let padded := List.replicate (9 - digits.length) '0' ++ digits
    let trimmed := (padded.reverse.dropWhile (· == '0')).reverse
    toString whole ++ "." ++ String.ofList trimmed

/-- How the authority charges for its resources. -/
inductive PayMode where
  | off
  | name
  | write
deriving DecidableEq

/-- The settings of the authority. -/
structure Config where
  domain : String
  baseUrl : String
  relays : List String
  nameChangeCooldown : Duration
  authMaxAgeSecs : Int
  nameMin : Nat
  nameMax : Nat
  readRateMax : Nat
  readRateWindow : Duration
  writeRateMax : Nat
  writeRateWindow : Duration
  extraReserved : List String
  payMode : PayMode
  namePriceNanogrin : Nat
  writePriceNanogrin : Nat
  goblinpayUrl : String
  goblinpayToken : String
  goblinpayWebhookSecret : Option String
  paidPollInterval : Duration
  allowTransfers : Bool
  grinNodeUrl : Option String
  transferMinConf : Nat
  transferMaxOfferTtl : Int
  transferClaimGrace : Int

namespace Config

/-- The text before the first occurrence of a separator. -/
def firstSegment (separator : Char) (chars : List Char) : List Char :=
  chars.takeWhile (· != separator)

/-- Fail-fast consistency checks. -/
def validate (cfg : Config) : Except String Unit := do
  require (!cfg.domain.isEmpty) "FLOONET_DOMAIN must not be empty"
  let scheme := "https://".toList
  require (scheme.isPrefixOf cfg.baseUrl.toList)
    s!"FLOONET_BASE_URL must start with https:// (got `{cfg.baseUrl}`)"
  let host := cfg.baseUrl.toList.drop scheme.length
  require (!host.isEmpty) "FLOONET_BASE_URL has no host"
  let hostBare := String.ofList (firstSegment ':' (firstSegment '/' host))
  require (hostBare == cfg.domain)
    (s!"FLOONET_BASE_URL host `{hostBare}` does not match " ++
      s!"FLOONET_DOMAIN `{cfg.domain}`")
  require (decide (cfg.nameMin ≠ 0 ∧ cfg.nameMin ≤ cfg.nameMax))
    s!"invalid name length bounds: min={cfg.nameMin} max={cfg.nameMax}"
  require (cfg.payMode == .off || !cfg.goblinpayUrl.isEmpty)
    "FLOONET_PAY_MODE is on but GOBLINPAY_URL is not set"
  require (cfg.payMode == .off || !cfg.goblinpayToken.isEmpty)
    ("FLOONET_PAY_MODE is on but no GoblinPay token is set " ++
      "(GOBLINPAY_TOKEN or GOBLINPAY_TOKEN_FILE)")
  require (!(cfg.payMode == .name && cfg.namePriceNanogrin == 0))
    "FLOONET_PAY_MODE=name needs FLOONET_NAME_PRICE_GRIN > 0"
  require (!(cfg.payMode == .write && cfg.writePriceNanogrin == 0))
    "FLOONET_PAY_MODE=write needs FLOONET_WRITE_PRICE_GRIN > 0"
  require (!(cfg.allowTransfers && cfg.grinNodeUrl.isNone))
    ("FLOONET_TRANSFERS is set but FLOONET_GRIN_NODE_URL is empty " ++
      "(a Grin node foreign API is required to confirm payment kernels)")

/-- The configuration the source's own tests start from. -/
def forTest : Config where
  domain := "floonet.example"
  baseUrl := "https://floonet.example"
  relays := ["wss://floonet.example"]
  nameChangeCooldown := .fromSecs 600
  authMaxAgeSecs := 60
  nameMin := 3
  nameMax := 20
  readRateMax := 100000
  readRateWindow := .fromSecs 60
  writeRateMax := 100000
  writeRateWindow := .fromSecs 3600
  extraReserved := ["floonet"]
  payMode := .off
  namePriceNanogrin := 0
  writePriceNanogrin := 0
  goblinpayUrl := ""
  goblinpayToken := ""
  goblinpayWebhookSecret := none
  paidPollInterval := 0
  allowTransfers := false
  grinNodeUrl := none
  transferMinConf := 10
  transferMaxOfferTtl := 2592000
  transferClaimGrace := 86400

/-- The configuration of the source's transfer tests. -/
def transferTest : Config :=
  { forTest with
    allowTransfers := true
    grinNodeUrl := some "http://test-node/v2/foreign" }

end Config

end Floonet
