import Floonet.Dialogue
import Floonet.EnvFile

/-!
# The setup wizard

The prompts of the first run and the env file that is made of the answers.
Every answer is a trimmed line, so the file consists of assignments.
-/

namespace Floonet

open Streams Text
open Streams.Dialogue hiding flush

/-- The answers the wizard collects. -/
structure Answers where
  domain : String
  bindAddr : String
  dataDir : String
  payMode : String
  priceGrin : String
  goblinpayUrl : String
  goblinpayToken : String
  goblinpayWebhookSecret : String
  tokenFile : String
  webhookSecretFile : String
  transfers : Bool
  grinNodeUrl : String
deriving DecidableEq

/-! ## The env file -/

/-- `Path::join` with a relative file name. -/
def dbPathIn (dir : String) : String :=
  if dir.isEmpty || dir.toList.getLast? == some '/' then dir ++ "names.db"
  else dir ++ "/names.db"

def generatedComment : String :=
  "# Generated by the floonet-name-authority first-run setup wizard."

def editComment : String :=
  "# Edit freely; every key maps to a FLOONET_* variable (see .env.example)."

/-- The env file of the answers. -/
def renderEnv (a : Answers) : String :=
  generatedComment ++ "\n" ++ editComment ++ "\n" ++ "\n" ++
  assignment "FLOONET_DOMAIN" a.domain ++
  assignment "FLOONET_BASE_URL" ("https://" ++ a.domain) ++
  assignment "FLOONET_RELAYS" ("wss://" ++ a.domain) ++
  assignment "FLOONET_NAMES_BIND" a.bindAddr ++
  assignment "FLOONET_NAMES_DB" (dbPathIn a.dataDir) ++
  assignment "FLOONET_PAY_MODE" a.payMode ++
  (if a.payMode = "name" then
    assignment "FLOONET_NAME_PRICE_GRIN" a.priceGrin
  else if a.payMode = "write" then
    assignment "FLOONET_WRITE_PRICE_GRIN" a.priceGrin
  else "") ++
  (if a.payMode ≠ "off" then
    assignment "GOBLINPAY_URL" a.goblinpayUrl ++
    assignment "GOBLINPAY_TOKEN_FILE" a.tokenFile ++
    (if a.webhookSecretFile.isEmpty then ""
    else assignment "GOBLINPAY_WEBHOOK_SECRET_FILE" a.webhookSecretFile)
  else "") ++
  (if a.transfers then
    assignment "FLOONET_TRANSFERS" "true" ++
    assignment "FLOONET_GRIN_NODE_URL" a.grinNodeUrl
  else "")

/-! ## The prompts -/

section Prompts

variable {Out : Type} (tables : CaseTables) (w : Writer Out)

/-- At the end of the file the line is empty. -/
def prompt (question default : String) : Dialogue Out String := do
  print w (if default.isEmpty then s!"{question}: "
    else s!"{question} [{default}]: ")
  Dialogue.flush w
  let line ← takeLine
  let trimmed := trim line
  return if trimmed.isEmpty then default else trimmed

/-- The remaining attempts of `prompt_choice`. -/
def promptChoice (question default : String) (choices : List String) :
    Nat → Dialogue Out String
  | 0 => return default
  | attempts + 1 => do
      let answer ← prompt w question default
      let lower := tables.toLowercase answer
      if choices.contains lower then return lower
      else
        let listed := ", ".intercalate choices
        print w s!"  Please answer one of: {listed}\n"
        promptChoice question default choices attempts

/-- A question to be answered by yes or no; anything else is the default. -/
def promptYesNo (question : String) (default : Bool) : Dialogue Out Bool := do
  let shown := if default then "Y/n" else "y/N"
  let answer ← prompt w question shown
  let lower := tables.toLowercase (trim answer)
  return if lower = "y" || lower = "yes" then true
    else if lower = "n" || lower = "no" then false
    else default

/-- A hidden line is not echoed, so its line feed is written. -/
def promptSecret (question : String) (hidden : Bool) : Dialogue Out String := do
  print w s!"{question}: "
  Dialogue.flush w
  let line ← takeLine
  if hidden then print w "\n"
  return trim line

/-- The price, the URL, the token and the webhook secret of a paid mode. -/
def collectPayment (payMode : String) (hidden : Bool) :
    Dialogue Out (String × String × String × String) := do
  if payMode = "off" then return ("", "", "", "")
  else
    let priceGrin ← prompt w
      (if payMode = "name" then "Price to claim a name, in GRIN"
        else "Price for write access, in GRIN") "1"
    let goblinpayUrl ← prompt w "GoblinPay server URL" "http://127.0.0.1:8192"
    let goblinpayToken ← promptSecret w "GoblinPay API token (input hidden)"
      hidden
    print w ("\nOptional: a GoblinPay webhook HMAC secret confirms payments " ++
      "instantly instead of on the next poll.\n")
    let goblinpayWebhookSecret ← promptSecret w
      "GoblinPay webhook secret (input hidden, Enter to skip)" hidden
    return (priceGrin, goblinpayUrl, goblinpayToken, goblinpayWebhookSecret)

/-- Whether names can be transferred, and the node that confirms payments. -/
def collectTransfers : Dialogue Out (Bool × String) := do
  print w "\nName transfers are the optional non-custodial name marketplace.\n"
  let transfers ← promptYesNo tables w "Enable name transfers?" false
  if transfers then
    let grinNodeUrl ← prompt w "Grin node foreign-API URL"
      "https://api.grin.money/v2/foreign"
    return (transfers, grinNodeUrl)
  else return (transfers, "")

/-- The dialogue of the wizard. -/
def collectAnswers (hidden : Bool) : Dialogue Out Answers := do
  print w "\nFloonet name authority: first-run setup\n"
  print w "No configuration found. A few questions and we are running.\n"
  print w "Press Enter to accept each [default].\n\n"
  let domain ← prompt w "Domain for names (the @domain in name@domain)"
    "floonet.example"
  let bindAddr ← prompt w "HTTP bind address" "127.0.0.1:8191"
  let dataDir ← prompt w "Data directory (SQLite database lives here)"
    "/var/lib/floonet-authority"
  print w
    "\nCharging GRIN is optional; leave as `off` for a free authority.\n"
  let payMode ← promptChoice tables w "Pay mode (off/name/write)" "off"
    ["off", "name", "write"] 5
  let (priceGrin, goblinpayUrl, goblinpayToken, goblinpayWebhookSecret) ←
    collectPayment w payMode hidden
  let (transfers, grinNodeUrl) ← collectTransfers tables w
  return {
    domain := domain
    bindAddr := bindAddr
    dataDir := dataDir
    payMode := payMode
    priceGrin := priceGrin
    goblinpayUrl := goblinpayUrl
    goblinpayToken := goblinpayToken
    goblinpayWebhookSecret := goblinpayWebhookSecret
    tokenFile := ""
    webhookSecretFile := ""
    transfers := transfers
    grinNodeUrl := grinNodeUrl }

end Prompts

/-! ## The answers -/

/-- What a prompt accepts: a trimmed line with something in it. -/
structure Answer (answer : String) : Prop extends OneLine answer where
  nonempty : answer ≠ ""

/-- The answers of a dialogue, which leaves the paths of the secrets open. -/
structure Answers.Collected (a : Answers) : Prop where
  domain : Answer a.domain
  bindAddr : Answer a.bindAddr
  dataDir : Answer a.dataDir
  payMode : a.payMode ∈ ["off", "name", "write"]
  priceGrin : OneLine a.priceGrin
  goblinpayUrl : OneLine a.goblinpayUrl
  tokenFile : a.tokenFile = ""
  webhookSecretFile : a.webhookSecretFile = ""
  grinNodeUrl : OneLine a.grinNodeUrl

theorem Answer.of_chars {answer : String} {chars : List Char}
    (isText : answer = String.ofList chars)
    (visible : (!chars.isEmpty && chars.all fun c => !isWhitespace c) = true) :
    Answer answer := by
  rw [Bool.and_eq_true, List.all_eq_true] at visible
  refine ⟨.of_visible fun c member => ?_, fun empty => ?_⟩
  · rw [toList_eq isText] at member
    exact Bool.not_eq_true' _ ▸ visible.2 c member
  · have none : chars = [] := by
      rw [← toList_eq isText, empty]
      rfl
    rw [none] at visible
    cases visible.1

section Answer

variable {Out : Type} (tables : CaseTables) (w : Writer Out)

theorem prompt_returns (question : String) {default : String}
    (offered : Answer default) :
    Returns (prompt w question default) Answer := by
  unfold prompt
  refine returns_then (returns_then
    (returns_bind returns_takeLine fun line one => returns_pure ?_))
  split
  · exact offered
  · rename_i something
    refine ⟨⟨trim_trimmed line, newline_notMem_trim one⟩, fun empty => ?_⟩
    rw [empty] at something
    exact something rfl

theorem promptChoice_returns (question : String) {default : String}
    {choices : List String} (offered : default ∈ choices) (attempts : Nat) :
    Returns (promptChoice tables w question default choices attempts)
      (· ∈ choices) := by
  induction attempts with
  | zero => exact returns_pure offered
  | succ attempts induction =>
      unfold promptChoice
      refine returns_bind (returns_any _) fun answer _ => ?_
      dsimp only
      split
      · rename_i known
        exact returns_pure (List.contains_iff_mem.mp known)
      · exact returns_then induction

theorem collectPayment_returns (payMode : String) (hidden : Bool) :
    Returns (collectPayment w payMode hidden)
      fun payment => OneLine payment.1 ∧ OneLine payment.2.1 := by
  unfold collectPayment
  split
  · exact returns_pure ⟨oneLine_empty, oneLine_empty⟩
  · have price : Answer "1" := .of_chars rfl (by decide)
    have url : Answer "http://127.0.0.1:8192" := .of_chars rfl (by decide)
    refine returns_bind (prompt_returns w _ price) fun _ isPrice => ?_
    refine returns_bind (prompt_returns w _ url) fun _ isUrl => ?_
    refine returns_bind (returns_any _) fun _ _ => returns_then ?_
    refine returns_bind (returns_any _) fun _ _ => returns_pure ?_
    exact ⟨isPrice.toOneLine, isUrl.toOneLine⟩

theorem collectTransfers_returns :
    Returns (collectTransfers tables w) fun answers => OneLine answers.2 := by
  have node : Answer "https://api.grin.money/v2/foreign" :=
    .of_chars rfl (by decide)
  unfold collectTransfers
  refine returns_then (returns_bind (returns_any _) fun transfers _ => ?_)
  split
  · exact returns_bind (prompt_returns w _ node) fun _ isUrl =>
      returns_pure isUrl.toOneLine
  · exact returns_pure oneLine_empty

theorem collectAnswers_returns (hidden : Bool) :
    Returns (collectAnswers tables w hidden) Answers.Collected := by
  have domain : Answer "floonet.example" := .of_chars rfl (by decide)
  have bindAddr : Answer "127.0.0.1:8191" := .of_chars rfl (by decide)
  have dataDir : Answer "/var/lib/floonet-authority" :=
    .of_chars rfl (by decide)
  unfold collectAnswers
  refine returns_then (returns_then (returns_then ?_))
  refine returns_bind (prompt_returns w _ domain) fun _ isDomain => ?_
  refine returns_bind (prompt_returns w _ bindAddr) fun _ isAddr => ?_
  refine returns_bind (prompt_returns w _ dataDir) fun _ isDir => ?_
  refine returns_then (returns_bind
    (promptChoice_returns tables w _ List.mem_cons_self _)
    fun payMode isMode => ?_)
  refine returns_bind (collectPayment_returns w payMode hidden)
    fun _ isPayment => ?_
  refine returns_bind (collectTransfers_returns tables w)
    fun _ isNode => returns_pure ?_
  exact {
    domain := isDomain
    bindAddr := isAddr
    dataDir := isDir
    payMode := isMode
    priceGrin := isPayment.1
    goblinpayUrl := isPayment.2
    tokenFile := rfl
    webhookSecretFile := rfl
    grinNodeUrl := isNode }

end Answer

/-! ## The file read back -/

/-- The variables that the answers set. -/
def Answers.entries (a : Answers) : List (String × String) :=
  [("FLOONET_DOMAIN", a.domain),
    ("FLOONET_BASE_URL", "https://" ++ a.domain),
    ("FLOONET_RELAYS", "wss://" ++ a.domain),
    ("FLOONET_NAMES_BIND", a.bindAddr),
    ("FLOONET_NAMES_DB", dbPathIn a.dataDir),
    ("FLOONET_PAY_MODE", a.payMode)] ++
  ((if a.payMode = "name" then [("FLOONET_NAME_PRICE_GRIN", a.priceGrin)]
    else if a.payMode = "write" then
      [("FLOONET_WRITE_PRICE_GRIN", a.priceGrin)]
    else []) ++
  ((if a.payMode ≠ "off" then
    [("GOBLINPAY_URL", a.goblinpayUrl),
      ("GOBLINPAY_TOKEN_FILE", a.tokenFile)] ++
    (if a.webhookSecretFile.isEmpty then []
    else [("GOBLINPAY_WEBHOOK_SECRET_FILE", a.webhookSecretFile)])
  else []) ++
  (if a.transfers then
    [("FLOONET_TRANSFERS", "true"), ("FLOONET_GRIN_NODE_URL", a.grinNodeUrl)]
  else [])))

theorem renderEnv_eq (a : Answers) :
    renderEnv a =
      generatedComment ++ "\n" ++
        (editComment ++ "\n" ++ ("" ++ "\n" ++ assignments a.entries)) := by
  simp only [renderEnv, Answers.entries, assignments_append, assignments,
    apply_ite assignments, String.append_assoc, String.append_empty,
    String.empty_append]

/-- Only the assignments of the file are parsed. -/
theorem parseEnvFile_heading (a : Answers) :
    parseEnvFile (renderEnv a) = parseEnvFile (assignments a.entries) := by
  have generated : Comment generatedComment := .of_chars rfl (by decide)
  have edit : Comment editComment := .of_chars rfl (by decide)
  rw [renderEnv_eq,
    parseEnvFile_skipped generated.toOneLine (.inr generated.hash),
    parseEnvFile_skipped edit.toOneLine (.inr edit.hash),
    parseEnvFile_skipped oneLine_empty (.inl rfl)]

theorem dbPathIn_oneLine {dir : String} (one : OneLine dir) :
    OneLine (dbPathIn dir) := by
  have name : Answer "names.db" := .of_chars rfl (by decide)
  have slashed : Answer "/names.db" := .of_chars rfl (by decide)
  unfold dbPathIn
  split
  · exact one.append name.toOneLine
  · exact one.append slashed.toOneLine

theorem payMode_oneLine {payMode : String}
    (known : payMode ∈ ["off", "name", "write"]) : OneLine payMode := by
  have off : Answer "off" := .of_chars rfl (by decide)
  have name : Answer "name" := .of_chars rfl (by decide)
  have write : Answer "write" := .of_chars rfl (by decide)
  simp only [List.mem_cons, List.not_mem_nil, or_false] at known
  rcases known with rfl | rfl | rfl
  · exact off.toOneLine
  · exact name.toOneLine
  · exact write.toOneLine

namespace Answers.Collected

variable {a : Answers} (collected : a.Collected)

include collected

theorem assigns : Assigns a.entries := by
  have https : Answer "https://" := .of_chars rfl (by decide)
  have wss : Answer "wss://" := .of_chars rfl (by decide)
  have yes : Answer "true" := .of_chars rfl (by decide)
  have domain := collected.domain.toOneLine
  have tokenFile : OneLine a.tokenFile := collected.tokenFile ▸ oneLine_empty
  unfold Answers.entries
  refine .append ?_ (.append ?_ (.append ?_ ?_))
  · apply assigns_cons rfl (by decide) domain
    apply assigns_cons rfl (by decide) (https.toOneLine.append domain)
    apply assigns_cons rfl (by decide) (wss.toOneLine.append domain)
    apply assigns_cons rfl (by decide) collected.bindAddr.toOneLine
    apply assigns_cons rfl (by decide)
      (dbPathIn_oneLine collected.dataDir.toOneLine)
    exact assigns_cons rfl (by decide) (payMode_oneLine collected.payMode)
      assigns_nil
  · split
    · exact assigns_cons rfl (by decide) collected.priceGrin assigns_nil
    · split
      · exact assigns_cons rfl (by decide) collected.priceGrin assigns_nil
      · exact assigns_nil
  · split
    · refine .append ?_ ?_
      · exact assigns_cons rfl (by decide) collected.goblinpayUrl
          (assigns_cons rfl (by decide) tokenFile assigns_nil)
      · rw [collected.webhookSecretFile]
        exact assigns_nil
    · exact assigns_nil
  · split
    · exact assigns_cons rfl (by decide) yes.toOneLine
        (assigns_cons rfl (by decide) collected.grinNodeUrl assigns_nil)
    · exact assigns_nil

/-- The file gives the answers back, less one layer of quotes. -/
theorem parseEnvFile_renderEnv :
    parseEnvFile (renderEnv a) =
      a.entries.map fun pair => (pair.1, unquote pair.2) := by
  rw [parseEnvFile_heading, parseEnvFile_assignments collected.assigns]

end Answers.Collected

end Floonet
