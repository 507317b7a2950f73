import Floonet.Addresses
import Floonet.Auth
import Floonet.Amounts
import Floonet.Lines

/-!
# The configuration of the environment

The start-up reads the configuration from environment variables and from the
files they name, and checks it.
-/

namespace Floonet

open MachineInt Text Validation

/-- What FLOONET_PAY_MODE says. -/
def PayMode.parse (s : String) : Except String PayMode :=
  if s = "off" then .ok .off
  else if s = "name" then .ok .name
  else if s = "write" then .ok .write
  else .error s!"FLOONET_PAY_MODE must be off, name or write (got `{s}`)"

/-- The configuration with the fields that only `main` reads. -/
structure LoadedConfig extends Config where
  bindAddr : String
  dbPath : String

/-- What the start-up reads, with the reason a file is unreadable as it is
displayed. -/
structure Startup where
  build : Build
  tables : CaseTables
  var : String → Option String
  readToString : String → Except String String

namespace Startup

variable (startup : Startup)

/-- A variable that is not set has its default. -/
def envString (key default : String) : String :=
  (startup.var key).getD default

/-- A switch is on by `1`, `true`, `yes` or `on`. -/
def envBool (key : String) (default : Bool) : Bool :=
  match startup.var key with
  | some v =>
      ["1", "true", "yes", "on"].contains (startup.tables.toLowercase (trim v))
  | none => default

/-- A value that cannot be read counts as not set. -/
def envParse {Value : Type} (parse : String → Option Value) (key : String)
    (default : Value) : Value :=
  match startup.var key with
  | some v => (parse v).getD default
  | none => default

/-- The text of the file that a variable names, if it names one. -/
def envFile (key : String) : Except String (Option String) :=
  match startup.var key with
  | none => .ok none
  | some path =>
      if path.isEmpty then .ok none
      else match startup.readToString path with
        | .ok text => .ok (some text)
        | .error e => .error s!"{key} `{path}` unreadable: {e}"

/-- The names of `load_reserved_file`. -/
def reservedLines (text : String) : List String :=
  let kept := ((lines text.toList).map fun l => trim (.ofList l)).filter
    fun l => !l.isEmpty && l.toList.head? != some '#'
  kept.map startup.tables.toLowercase

/-- The configuration, given what can be refused. -/
def config (reservedFile : Option String) (payMode : PayMode)
    (namePrice writePrice : UInt64) (tokenFile secretFile : Option String) :
    LoadedConfig :=
  let domain := startup.envString "FLOONET_DOMAIN" "floonet.example"
  let relays := startup.envString "FLOONET_RELAYS" "wss://floonet.example"
  let relays := (relays.toList.splitOn ',').map fun s => trim (.ofList s)
  { domain := domain
    baseUrl := startup.envString "FLOONET_BASE_URL" "https://floonet.example"
    relays := relays.filter fun s => !s.isEmpty
    bindAddr := startup.envString "FLOONET_NAMES_BIND" "127.0.0.1:8191"
    dbPath := startup.envString "FLOONET_NAMES_DB"
      "/var/lib/floonet-authority/names.db"
    nameChangeCooldown := .fromSecs
      (startup.envParse parseU64 "FLOONET_NAME_CHANGE_COOLDOWN_SECS" 600)
    authMaxAgeSecs := startup.envParse parseI64 "FLOONET_AUTH_MAX_AGE_SECS" 60
    nameMin := startup.envParse parseU64 "FLOONET_NAME_MIN" 3
    nameMax := startup.envParse parseU64 "FLOONET_NAME_MAX" 20
    readRateMax := startup.envParse parseU64 "FLOONET_READ_RATE_MAX" 120
    readRateWindow := .fromSecs
      (startup.envParse parseU64 "FLOONET_READ_RATE_WINDOW_SECS" 60)
    writeRateMax := startup.envParse parseU64 "FLOONET_WRITE_RATE_MAX" 10
    writeRateWindow := .fromSecs
      (startup.envParse parseU64 "FLOONET_WRITE_RATE_WINDOW_SECS" 3600)
    -- The operator's own labels are reserved in front of the file's names.
    extraReserved := domainReserved startup.tables domain ++
      (reservedFile.map startup.reservedLines).getD []
    payMode := payMode
    namePriceNanogrin := namePrice.toNat
    writePriceNanogrin := writePrice.toNat
    goblinpayUrl := .ofList
      (trimEndSlashes (startup.envString "GOBLINPAY_URL" ""))
    goblinpayToken := (tokenFile.map trim).getD
      (startup.envString "GOBLINPAY_TOKEN" "")
    -- A blank file hides the secret in the variable.
    goblinpayWebhookSecret :=
      ((secretFile.map trim).or (startup.var "GOBLINPAY_WEBHOOK_SECRET")).filter
        fun s => !s.isEmpty
    paidPollInterval := .fromSecs
      (startup.envParse parseU64 "FLOONET_PAID_POLL_INTERVAL_SECS" 5)
    allowTransfers := startup.envBool "FLOONET_TRANSFERS" false
    grinNodeUrl := ((startup.var "FLOONET_GRIN_NODE_URL").map trim).filter
      fun s => !s.isEmpty
    transferMinConf := startup.envParse parseU64 "FLOONET_TRANSFER_MIN_CONF" 10
    transferMaxOfferTtl :=
      startup.envParse parseI64 "FLOONET_TRANSFER_MAX_OFFER_TTL" 2592000
    transferClaimGrace :=
      startup.envParse parseI64 "FLOONET_TRANSFER_CLAIM_GRACE" 86400 }

/-- `from_env`, whose refusal is the error of the first variable at fault. -/
def fromEnv : ExceptT String Option LoadedConfig := do
  let reservedFile ← liftExcept (startup.envFile "FLOONET_RESERVED_FILE")
  let payMode ← liftExcept
    (PayMode.parse (startup.envString "FLOONET_PAY_MODE" "off"))
  let namePrice ← ExceptT.mk (grinToNanogrin startup.build
    (startup.envString "FLOONET_NAME_PRICE_GRIN" "0"))
  let writePrice ← ExceptT.mk (grinToNanogrin startup.build
    (startup.envString "FLOONET_WRITE_PRICE_GRIN" "0"))
  let tokenFile ← liftExcept (startup.envFile "GOBLINPAY_TOKEN_FILE")
  let secretFile ← liftExcept (startup.envFile "GOBLINPAY_WEBHOOK_SECRET_FILE")
  let cfg := startup.config reservedFile payMode namePrice writePrice tokenFile
    secretFile
  liftExcept cfg.validate
  return cfg

/-! ## Free authorities -/

/-- The authority is free, and no variable names a file or a price. -/
structure Free : Prop where
  payMode : startup.var "FLOONET_PAY_MODE" = some "off"
  reservedFile : startup.var "FLOONET_RESERVED_FILE" = none
  tokenFile : startup.var "GOBLINPAY_TOKEN_FILE" = none
  secretFile : startup.var "GOBLINPAY_WEBHOOK_SECRET_FILE" = none
  namePrice : startup.var "FLOONET_NAME_PRICE_GRIN" = none
  writePrice : startup.var "FLOONET_WRITE_PRICE_GRIN" = none

variable {startup}

theorem envFile_absent {key : String} (absent : startup.var key = none) :
    startup.envFile key = .ok none := by
  rw [envFile, absent]

theorem envString_absent {key : String} (absent : startup.var key = none)
    (default : String) : startup.envString key default = default := by
  rw [envString, absent, Option.getD_none]

theorem envParse_absent {Value : Type} {key : String}
    (absent : startup.var key = none) (parse : String → Option Value)
    (default : Value) : startup.envParse parse key default = default := by
  rw [envParse, absent]

theorem envBool_absent {key : String} (absent : startup.var key = none)
    (default : Bool) : startup.envBool key default = default := by
  rw [envBool, absent]

theorem envBool_true {key : String} (given : startup.var key = some "true")
    (default : Bool) : startup.envBool key default = true := by
  have trimmed : trim "true" = "true" := trim_of_chars rfl (by decide)
  have lower := toLowercase_plain startup.tables
    (rfl : "true" = String.ofList _) (by decide)
  rw [envBool, given]
  dsimp only
  rw [trimmed, lower]
  decide

theorem grinToNanogrin_zero (build : Build) :
    grinToNanogrin build "0" = some (.ok 0) :=
  grinToNanogrin_nanogrinToGrin build 0

/-- Only the checks can refuse the configuration of a free authority. -/
theorem fromEnv_free (free : startup.Free) :
    startup.fromEnv.run =
      let cfg := startup.config none .off 0 0 none none
      some (cfg.validate.map fun _ => cfg) := by
  have mode : PayMode.parse (startup.envString "FLOONET_PAY_MODE" "off") =
      .ok .off := by
    rw [envString, free.payMode]
    rfl
  unfold fromEnv
  rw [envFile_absent free.reservedFile, envFile_absent free.tokenFile,
    envFile_absent free.secretFile, mode, envString_absent free.namePrice,
    envString_absent free.writePrice, grinToNanogrin_zero]
  change (do
    liftExcept (startup.config none .off 0 0 none none).validate
    return startup.config none .off 0 0 none none :
      ExceptT String Option LoadedConfig).run = _
  cases checked : (startup.config none .off 0 0 none none).validate with
  | error reason =>
      dsimp only
      rw [checked]
      rfl
  | ok done =>
      dsimp only
      rw [checked]
      rfl

end Startup

end Floonet
