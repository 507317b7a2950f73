import Floonet.WizardConfig
import Floonet.WizardFiles

/-!
# The configuration of a paid authority

The wizard of a paid mode leaves an env file and the secret files that it
names.  The start-up that reads them accepts exactly the answers that survive
the quotes of the env file and the checks, and then it charges the answered
price through the answered server, with the secrets as they were typed.
-/

namespace Floonet

open Concurrent Concurrent.Program Decimal MachineInt Streams Text Validation

/-- `read_to_string`, with the reason of a failure as it is displayed. -/
def Disk.readToString (disk : Disk) (path : String) : Except String String :=
  match disk.file path with
  | none => .error "No such file or directory (os error 2)"
  | some file =>
      match decodeUtf8 file.contents with
      | some text => .ok text
      | none => .error "stream did not contain valid UTF-8"

/-- The start-up behind the wizard, with no variables but those of the env
file; no result is a panic. -/
def Disk.start (build : Build) (tables : CaseTables) (disk : Disk)
    (path : String) : Option (Except String LoadedConfig) :=
  match disk.readToString path with
  | .error e => some (.error s!"could not load the file just written ({path}): {e}")
  | .ok text => do
      let (_, vars) ← loadVars [] (parseEnvFile text)
      Startup.fromEnv {
        build := build
        tables := tables
        var := fun key => vars.lookup key
        readToString := disk.readToString }

theorem readToString_encode {disk : Disk} {path text : String}
    (there : (disk.file path).map File.contents = some (encode text)) :
    disk.readToString path = .ok text := by
  obtain ⟨file, isFile, contents⟩ := Option.map_eq_some_iff.mp there
  have decoded : decodeUtf8 file.contents = some text :=
    decodeUtf8_eq_some.mpr contents.symm
  unfold Disk.readToString
  rw [isFile]
  dsimp only
  rw [decoded]

/-! ## Paid authorities -/

namespace Startup

variable {startup : Startup}

theorem envFile_named {key path text : String}
    (named : startup.var key = some path) (given : path ≠ "")
    (read : startup.readToString path = .ok text) :
    startup.envFile key = .ok (some text) := by
  rw [envFile, named]
  dsimp only
  rw [isEmpty_eq_false.mpr given, read]
  rfl

/-- The variables and files that a paid mode is configured by. -/
structure Paid (startup : Startup) (mode : PayMode) (price tokenText : String)
    (secretText : Option String) : Prop where
  paid : mode ≠ .off
  payMode : PayMode.parse (startup.envString "FLOONET_PAY_MODE" "off") =
    .ok mode
  reservedFile : startup.var "FLOONET_RESERVED_FILE" = none
  namePrice : startup.envString "FLOONET_NAME_PRICE_GRIN" "0" =
    if mode = .name then price else "0"
  writePrice : startup.envString "FLOONET_WRITE_PRICE_GRIN" "0" =
    if mode = .write then price else "0"
  tokenFile : startup.envFile "GOBLINPAY_TOKEN_FILE" = .ok (some tokenText)
  secretFile : startup.envFile "GOBLINPAY_WEBHOOK_SECRET_FILE" = .ok secretText

/-- The configuration of a paid mode. -/
def paidConfig (startup : Startup) (mode : PayMode) (price : UInt64)
    (tokenText : String) (secretText : Option String) : LoadedConfig :=
  startup.config none mode (if mode = .name then price else 0)
    (if mode = .write then price else 0) (some tokenText) secretText

/-- The start-up of a paid mode accepts a proper price that passes the checks. -/
theorem fromEnv_paid {mode : PayMode} {price tokenText : String}
    {secretText : Option String}
    (paid : startup.Paid mode price tokenText secretText)
    (cfg : LoadedConfig) :
    startup.fromEnv.run = some (.ok cfg) ↔
      ∃ n, grinToNanogrin startup.build price = some (.ok n) ∧
        startup.paidConfig mode n tokenText secretText = cfg ∧
          cfg.validate = .ok () := by
  have ends : ∀ parsed : Option (Except String UInt64),
      (do
        let n ← ExceptT.mk parsed
        liftExcept (startup.paidConfig mode n tokenText secretText).validate
        return startup.paidConfig mode n tokenText secretText :
          ExceptT String Option LoadedConfig).run = some (.ok cfg) ↔
      ∃ n, parsed = some (.ok n) ∧
        startup.paidConfig mode n tokenText secretText = cfg ∧
          cfg.validate = .ok () := by
    rintro (_ | reason | n)
    · constructor
      · rintro ⟨⟩
      · rintro ⟨n, ⟨⟩, -⟩
    · constructor
      · rintro ⟨⟩
      · rintro ⟨n, ⟨⟩, -⟩
    · change (do
        liftExcept (startup.paidConfig mode n tokenText secretText).validate
        return startup.paidConfig mode n tokenText secretText :
          ExceptT String Option LoadedConfig).run = some (.ok cfg) ↔ _
      cases checked :
          (startup.paidConfig mode n tokenText secretText).validate with
      | error reason =>
          constructor
          · rintro ⟨⟩
          · rintro ⟨_, ⟨⟩, rfl, valid⟩
            cases checked.symm.trans valid
      | ok done =>
          constructor
          · rintro ⟨⟩
            exact ⟨n, rfl, rfl, checked⟩
          · rintro ⟨_, ⟨⟩, rfl, -⟩
            rfl
  unfold fromEnv
  rw [envFile_absent paid.reservedFile, paid.payMode, paid.namePrice,
    paid.writePrice, paid.tokenFile, paid.secretFile]
  cases mode with
  | off => exact absurd rfl paid.paid
  | name =>
      rw [if_pos rfl, if_neg (by decide), grinToNanogrin_zero]
      generalize grinToNanogrin startup.build price = parsed
      rw [← ends parsed]
      cases parsed with
      | none => rfl
      | some outcome => cases outcome <;> rfl
  | write =>
      rw [if_neg (by decide), if_pos rfl, grinToNanogrin_zero]
      generalize grinToNanogrin startup.build price = parsed
      rw [← ends parsed]
      rfl

end Startup

/-! ## The checks -/

theorem validate_paid {cfg : Config} (derived : cfg.Derived)
    (paid : cfg.payMode ≠ .off) (bounds : cfg.nameMin = 3 ∧ cfg.nameMax = 20) :
    cfg.validate = .ok () ↔
      (∀ c ∈ cfg.domain.toList, c ≠ '/' ∧ c ≠ ':') ∧
        cfg.goblinpayUrl ≠ "" ∧ cfg.goblinpayToken ≠ "" ∧
          (cfg.payMode = .name → cfg.namePriceNanogrin ≠ 0) ∧
            (cfg.payMode = .write → cfg.writePriceNanogrin ≠ 0) ∧
              (cfg.allowTransfers = true → cfg.grinNodeUrl.isSome = true) := by
  obtain ⟨given, starts, host, givenHost⟩ := derived.host
  have charges : (cfg.payMode == .off) = false := beq_false_of_ne paid
  have price : ∀ mode amount, (!(cfg.payMode == mode && amount == 0)) = true ↔
      (cfg.payMode = mode → amount ≠ 0) := by
    intro mode amount
    rw [Bool.not_eq_true', Bool.and_eq_false_iff, beq_eq_false_iff_ne,
      beq_eq_false_iff_ne, ← imp_iff_not_or]
  have transfers : (!(cfg.allowTransfers && cfg.grinNodeUrl.isNone)) = true ↔
      (cfg.allowTransfers = true → cfg.grinNodeUrl.isSome = true) := by
    cases cfg.allowTransfers <;> cases cfg.grinNodeUrl <;> simp
  rw [← firstSegments_eq_self]
  simp only [Config.validate, bind_eq_ok, require_eq_ok, starts, host, charges,
    bounds.1, bounds.2, transfers, price, Bool.false_or, Bool.not_eq_true',
    isEmpty_eq_false]
  constructor
  · rintro ⟨_, -, _, -, _, -, _, same, _, -, _, url, _, token, _, name, _, write,
      node⟩
    have isDomain := congrArg String.toList (beq_iff_eq.mp same)
    rw [String.toList_ofList] at isDomain
    exact ⟨isDomain, url, token, name, write, node⟩
  · rintro ⟨isDomain, url, token, name, write, node⟩
    rw [isDomain, String.ofList_toList]
    exact ⟨(), derived.named, (), trivial, (), by simpa using givenHost, (),
      BEq.rfl, (), by decide, (), url, (), token, (), name, (), write, node⟩

/-! ## The variables of a paid authority -/

def Answers.mode (a : Answers) : PayMode :=
  if a.payMode = "name" then .name
  else if a.payMode = "write" then .write
  else .off

section Variables

variable {a : Answers} (paid : a.payMode = "name" ∨ a.payMode = "write")

include paid

theorem readBack_paid :
    a.readBack.lookup "FLOONET_DOMAIN" = some (unquote a.domain) ∧
    a.readBack.lookup "FLOONET_BASE_URL" =
      some (unquote ("https://" ++ a.domain)) ∧
    a.readBack.lookup "FLOONET_NAMES_BIND" = some (unquote a.bindAddr) ∧
    a.readBack.lookup "FLOONET_NAMES_DB" =
      some (unquote (dbPathIn a.dataDir)) ∧
    a.readBack.lookup "FLOONET_PAY_MODE" = some (unquote a.payMode) ∧
    a.readBack.lookup "GOBLINPAY_URL" = some (unquote a.goblinpayUrl) ∧
    a.readBack.lookup "GOBLINPAY_TOKEN_FILE" = some (unquote a.tokenFile) := by
  rcases paid with mode | mode <;>
    simp [Answers.readBack, Answers.entries, mode, List.lookup_cons]

theorem readBack_paid_prices :
    a.readBack.lookup "FLOONET_NAME_PRICE_GRIN" =
      (if a.mode = .name then some (unquote a.priceGrin) else none) ∧
    a.readBack.lookup "FLOONET_WRITE_PRICE_GRIN" =
      if a.mode = .write then some (unquote a.priceGrin) else none := by
  rcases paid with mode | mode <;> cases enabled : a.transfers <;>
    by_cases secret : a.webhookSecretFile.isEmpty = true <;>
      simp [Answers.readBack, Answers.entries, Answers.mode, mode, enabled,
        secret, List.lookup_cons]

theorem readBack_paid_secretFile :
    a.readBack.lookup "GOBLINPAY_WEBHOOK_SECRET_FILE" =
      if a.webhookSecretFile.isEmpty then none
      else some (unquote a.webhookSecretFile) := by
  rcases paid with mode | mode <;> cases enabled : a.transfers <;>
    by_cases secret : a.webhookSecretFile.isEmpty = true <;>
      simp [Answers.readBack, Answers.entries, mode, enabled, secret,
        List.lookup_cons]

theorem readBack_paid_transfers :
    a.readBack.lookup "FLOONET_TRANSFERS" =
      (if a.transfers then some (unquote "true") else none) ∧
    a.readBack.lookup "FLOONET_GRIN_NODE_URL" =
      if a.transfers then some (unquote a.grinNodeUrl) else none := by
  rcases paid with mode | mode <;> cases enabled : a.transfers <;>
    by_cases secret : a.webhookSecretFile.isEmpty = true <;>
      simp [Answers.readBack, Answers.entries, mode, enabled, secret,
        List.lookup_cons]

theorem readBack_paid_absent : ∀ key ∈ ["FLOONET_RESERVED_FILE",
    "GOBLINPAY_WEBHOOK_SECRET", "FLOONET_NAME_MIN", "FLOONET_NAME_MAX"],
    a.readBack.lookup key = none := by
  rcases paid with mode | mode <;> cases enabled : a.transfers <;>
    by_cases secret : a.webhookSecretFile.isEmpty = true <;>
      simp [Answers.readBack, Answers.entries, mode, enabled, secret,
        List.lookup_cons]

end Variables

/-! ## The paths in the env file -/

/-- The path of the secrets directory fits a line of the env file. -/
structure Placed (target : String) : Prop where
  oneLine : OneLine (secretsDirFor target)
  noNul : noNul (secretsDirFor target) = true

theorem unquote_of_getLast? {v : String} {c : Char}
    (last : v.toList.getLast? = some c) (other : c ≠ '"' ∧ c ≠ '\'') :
    unquote v = v := by
  rw [unquote, if_neg]
  intro quoted
  obtain ⟨quote, inner, isQuote, chars⟩ := isQuoted_iff.mp quoted
  rw [chars, ← List.cons_append, List.getLast?_concat] at last
  cases last
  exact isQuote.elim other.1 other.2

/-- A path that the env file names is read back as it is. -/
structure Named (path : String) : Prop where
  oneLine : OneLine path
  noNul : noNul path = true
  bare : unquote path = path
  given : path ≠ ""

theorem join_eq (target name : String) :
    Path.join (secretsDirFor target) name =
      secretsDirFor target ++ "/" ++ name := by
  obtain ⟨c, last, plain⟩ := secretsDirFor_last target
  have slash : "/".toList = ['/'] := toList_eq rfl
  apply String.toList_inj.mp
  rw [Path.join_toList last plain, String.toList_append, String.toList_append,
    slash, List.append_assoc]
  rfl

theorem named_of_chars {target name : String} (placed : Placed target)
    {chars : List Char} (isText : name = String.ofList chars)
    (visible : (!chars.isEmpty && chars.all fun c => !isWhitespace c) = true)
    (plain : chars.contains '\x00' = false)
    {c : Char} (last : chars.getLast? = some c)
    (other : c ≠ '"' ∧ c ≠ '\'') :
    Named (Path.join (secretsDirFor target) name) := by
  have slash : Answer "/" := .of_chars rfl (by decide)
  have noSlash : noNul "/" = true := noNul_of_chars rfl (by decide)
  have answer : Answer name := .of_chars isText visible
  have isLast : (secretsDirFor target ++ "/" ++ name).toList.getLast? =
      some c := by
    rw [String.toList_append, toList_eq isText, List.getLast?_append, last]
    rfl
  rw [join_eq]
  refine ⟨(placed.oneLine.append slash.toOneLine).append answer.toOneLine,
    noNul_append.mpr ⟨noNul_append.mpr ⟨placed.noNul, noSlash⟩,
      noNul_of_chars isText plain⟩,
    unquote_of_getLast? isLast other, fun empty => ?_⟩
  rw [empty] at isLast
  cases isLast

theorem tokenPath_named {target : String} (placed : Placed target) :
    Named (tokenPath target) :=
  named_of_chars placed rfl (by decide) (by decide) (c := 'n') rfl (by decide)

theorem hookPath_named {target : String} (placed : Placed target) :
    Named (hookPath target) :=
  named_of_chars placed rfl (by decide) (by decide) (c := 't') rfl (by decide)

/-! ## The assignments of the env file -/

def Answers.priceKey (a : Answers) : String :=
  if a.mode = .name then "FLOONET_NAME_PRICE_GRIN"
  else "FLOONET_WRITE_PRICE_GRIN"

theorem forall_entries {a : Answers}
    (paid : a.payMode = "name" ∨ a.payMode = "write")
    {P : String × String → Prop} :
    (∀ pair ∈ a.entries, P pair) ↔
      P ("FLOONET_DOMAIN", a.domain) ∧
        P ("FLOONET_BASE_URL", "https://" ++ a.domain) ∧
        P ("FLOONET_RELAYS", "wss://" ++ a.domain) ∧
        P ("FLOONET_NAMES_BIND", a.bindAddr) ∧
        P ("FLOONET_NAMES_DB", dbPathIn a.dataDir) ∧
        P ("FLOONET_PAY_MODE", a.payMode) ∧ P (a.priceKey, a.priceGrin) ∧
        P ("GOBLINPAY_URL", a.goblinpayUrl) ∧
        P ("GOBLINPAY_TOKEN_FILE", a.tokenFile) ∧
        (a.webhookSecretFile.isEmpty = false →
          P ("GOBLINPAY_WEBHOOK_SECRET_FILE", a.webhookSecretFile)) ∧
        (a.transfers = true → P ("FLOONET_TRANSFERS", "true") ∧
          P ("FLOONET_GRIN_NODE_URL", a.grinNodeUrl)) := by
  rcases paid with mode | mode <;> cases enabled : a.transfers <;>
    cases secret : a.webhookSecretFile.isEmpty <;>
      simp [Answers.entries, Answers.priceKey, Answers.mode, mode, enabled,
        secret]

section Fields

variable (a : Answers) (target : String)

@[simp] theorem located_payMode : (a.located target).payMode = a.payMode := by
  unfold Answers.located
  split <;> rfl

@[simp] theorem located_mode : (a.located target).mode = a.mode := by
  unfold Answers.mode
  rw [located_payMode]

@[simp] theorem located_domain : (a.located target).domain = a.domain := by
  unfold Answers.located
  split <;> rfl

@[simp] theorem located_bindAddr :
    (a.located target).bindAddr = a.bindAddr := by
  unfold Answers.located
  split <;> rfl

@[simp] theorem located_dataDir : (a.located target).dataDir = a.dataDir := by
  unfold Answers.located
  split <;> rfl

@[simp] theorem located_priceGrin :
    (a.located target).priceGrin = a.priceGrin := by
  unfold Answers.located
  split <;> rfl

@[simp] theorem located_goblinpayUrl :
    (a.located target).goblinpayUrl = a.goblinpayUrl := by
  unfold Answers.located
  split <;> rfl

@[simp] theorem located_transfers :
    (a.located target).transfers = a.transfers := by
  unfold Answers.located
  split <;> rfl

@[simp] theorem located_grinNodeUrl :
    (a.located target).grinNodeUrl = a.grinNodeUrl := by
  unfold Answers.located
  split <;> rfl

end Fields

section Located

variable {a : Answers} {target : String} (collected : a.Collected)
  (paid : a.payMode ≠ "off")

include paid

theorem located_tokenFile : (a.located target).tokenFile = tokenPath target := by
  rw [Answers.located, if_neg paid]

include collected

theorem payMode_paid : a.payMode = "name" ∨ a.payMode = "write" := by
  have known := collected.payMode
  simp only [List.mem_cons, List.not_mem_nil, or_false] at known
  exact known.resolve_left paid

theorem located_paid (target : String) : (a.located target).payMode = "name" ∨
    (a.located target).payMode = "write" := by
  rw [located_payMode]
  exact payMode_paid collected paid

theorem mode_paid : a.mode ≠ .off := by
  unfold Answers.mode
  rcases payMode_paid collected paid with mode | mode
  · rw [mode]
    decide
  · rw [mode]
    decide

theorem located_secretFile :
    (a.located target).webhookSecretFile =
      if a.goblinpayWebhookSecret.isEmpty then "" else hookPath target := by
  rw [Answers.located, if_neg paid, ← collected.webhookSecretFile]

theorem located_secretFile_isEmpty (placed : Placed target) :
    (a.located target).webhookSecretFile.isEmpty =
      a.goblinpayWebhookSecret.isEmpty := by
  rw [located_secretFile collected paid]
  cases a.goblinpayWebhookSecret.isEmpty with
  | true => rfl
  | false =>
      rw [if_neg Bool.false_ne_true]
      exact isEmpty_eq_false.mpr (hookPath_named placed).given

theorem located_assigns (placed : Placed target) :
    Assigns (a.located target).entries := by
  have https : Answer "https://" := .of_chars rfl (by decide)
  have wss : Answer "wss://" := .of_chars rfl (by decide)
  have yes : Answer "true" := .of_chars rfl (by decide)
  have domain := collected.domain.toOneLine
  have payMode := payMode_oneLine collected.payMode
  have priceKey : isKey (a.located target).priceKey = true := by
    unfold Answers.priceKey
    split
    · exact isKey_of_chars rfl (by decide)
    · exact isKey_of_chars rfl (by decide)
  have secretFile : OneLine (a.located target).webhookSecretFile := by
    rw [located_secretFile collected paid]
    split
    · exact oneLine_empty
    · exact (hookPath_named placed).oneLine
  unfold Assigns
  rw [forall_entries (located_paid collected paid target),
    located_tokenFile paid]
  simp only [located_domain, located_bindAddr, located_dataDir,
    located_payMode, located_priceGrin, located_goblinpayUrl,
    located_grinNodeUrl]
  exact ⟨⟨isKey_of_chars rfl (by decide), domain⟩,
    ⟨isKey_of_chars rfl (by decide), https.toOneLine.append domain⟩,
    ⟨isKey_of_chars rfl (by decide), wss.toOneLine.append domain⟩,
    ⟨isKey_of_chars rfl (by decide), collected.bindAddr.toOneLine⟩,
    ⟨isKey_of_chars rfl (by decide),
      dbPathIn_oneLine collected.dataDir.toOneLine⟩,
    ⟨isKey_of_chars rfl (by decide), payMode⟩,
    ⟨priceKey, collected.priceGrin⟩,
    ⟨isKey_of_chars rfl (by decide), collected.goblinpayUrl⟩,
    ⟨isKey_of_chars rfl (by decide), (tokenPath_named placed).oneLine⟩,
    fun _ => ⟨isKey_of_chars rfl (by decide), secretFile⟩,
    fun _ => ⟨⟨isKey_of_chars rfl (by decide), yes.toOneLine⟩,
      ⟨isKey_of_chars rfl (by decide), collected.grinNodeUrl⟩⟩⟩

/-- The env file gives the located answers back, less one layer of quotes. -/
theorem parseEnvFile_located (placed : Placed target) :
    parseEnvFile (renderEnv (a.located target)) =
      (a.located target).readBack := by
  rw [parseEnvFile_heading,
    parseEnvFile_assignments (located_assigns collected paid placed)]
  rfl

theorem loadVars_located_iff (placed : Placed target) :
    (loadVars [] (a.located target).readBack).isSome = true ↔
      noNul a.domain = true ∧ noNul a.bindAddr = true ∧
        noNul a.dataDir = true ∧ noNul a.priceGrin = true ∧
          noNul a.goblinpayUrl = true ∧
            (a.transfers = true → noNul a.grinNodeUrl = true) := by
  have modes := located_paid collected paid target
  obtain ⟨domain, -, bindAddr, dbPath, -, url, -⟩ := readBack_paid modes
  obtain ⟨namePrice, writePrice⟩ := readBack_paid_prices modes
  have node := (readBack_paid_transfers modes).2
  constructor
  · intro isSome
    obtain ⟨⟨set, vars⟩, loaded⟩ := Option.isSome_iff_exists.mp isSome
    have plain : ∀ {key value : String},
        (a.located target).readBack.lookup key = some (unquote value) →
          noNul value = true := fun assigned =>
      noNul_unquote.mp (noNul_of_loadVars loaded assigned)
    have price : noNul (a.located target).priceGrin = true := by
      have isPaid := mode_paid collected paid
      rw [located_mode] at namePrice writePrice
      cases mode : a.mode with
      | off => exact absurd mode isPaid
      | name => exact plain (namePrice.trans (if_pos mode))
      | write => exact plain (writePrice.trans (if_pos mode))
    simp only [located_domain, located_bindAddr, located_dataDir,
      located_priceGrin, located_goblinpayUrl, located_transfers,
      located_grinNodeUrl] at domain bindAddr dbPath price url node
    exact ⟨plain domain, plain bindAddr, dbPathIn_noNul.mp (plain dbPath),
      price, plain url, fun enabled => plain (node.trans (if_pos enabled))⟩
  · rintro ⟨domain', bindAddr', dataDir, price, url', node'⟩
    have https : noNul "https://" = true := noNul_of_chars rfl (by decide)
    have wss : noNul "wss://" = true := noNul_of_chars rfl (by decide)
    have yes : noNul "true" = true := noNul_of_chars rfl (by decide)
    have mode : noNul a.payMode = true := by
      rcases payMode_paid collected paid with isMode | isMode
      · exact noNul_of_chars isMode (by decide)
      · exact noNul_of_chars isMode (by decide)
    have empty : noNul "" = true := rfl
    have secretFile : noNul (a.located target).webhookSecretFile = true := by
      rw [located_secretFile collected paid]
      split
      · exact empty
      · exact (hookPath_named placed).noNul
    have all : ∀ pair ∈ (a.located target).entries, noNul pair.2 = true := by
      rw [forall_entries modes, located_tokenFile paid]
      simp only [located_domain, located_bindAddr, located_dataDir,
        located_payMode, located_priceGrin, located_goblinpayUrl,
        located_transfers, located_grinNodeUrl]
      exact ⟨domain', noNul_append.mpr ⟨https, domain'⟩,
        noNul_append.mpr ⟨wss, domain'⟩, bindAddr', dbPathIn_noNul.mpr dataDir,
        mode, price, url', (tokenPath_named placed).noNul, fun _ => secretFile,
        fun enabled => ⟨yes, node' enabled⟩⟩
    refine loadVars_isSome (List.forall_mem_map.mpr fun pair member => ?_) []
    exact ⟨(located_assigns collected paid placed pair member).1,
      noNul_unquote.mpr (all pair member)⟩

end Located

/-! ## The start-up -/

section Start

variable (build : Build) (tables : CaseTables) {disk : Disk} {a : Answers}
  {target : String}

/-- The start-up that reads the located answers. -/
def Answers.locatedStartup (a : Answers) (target : String) (disk : Disk) :
    Startup :=
  (a.located target).startup build tables disk.readToString

/-- The text of the webhook secret's file, if there is one. -/
def Answers.secretText (a : Answers) : Option String :=
  if a.goblinpayWebhookSecret.isEmpty then none
  else some (trim a.goblinpayWebhookSecret ++ "\n")

/-- The files that the wizard leaves. -/
structure Answers.Written (a : Answers) (target : String) (disk : Disk) :
    Prop where
  secrets : ∀ pair ∈ a.secretFiles target, disk.file pair.1 =
    some ⟨encode (trim pair.2 ++ "\n"), 0o600⟩
  envFile : (disk.file target).map File.contents =
    some (encode (renderEnv (a.located target)))

theorem Answers.Written.token (written : a.Written target disk)
    (paid : a.payMode ≠ "off") : disk.readToString (tokenPath target) =
      .ok (trim a.goblinpayToken ++ "\n") := by
  have member : (tokenPath target, a.goblinpayToken) ∈
      a.secretFiles target := by
    unfold Answers.secretFiles
    rw [if_neg paid]
    split <;> exact List.mem_cons_self
  have stored := written.secrets _ member
  dsimp only at stored
  apply readToString_encode
  rw [stored, Option.map_some]

theorem Answers.Written.hook (written : a.Written target disk)
    (paid : a.payMode ≠ "off")
    (given : a.goblinpayWebhookSecret.isEmpty = false) :
    disk.readToString (hookPath target) =
      .ok (trim a.goblinpayWebhookSecret ++ "\n") := by
  have member : (hookPath target, a.goblinpayWebhookSecret) ∈
      a.secretFiles target := by
    unfold Answers.secretFiles
    rw [if_neg paid, given, if_neg Bool.false_ne_true]
    exact List.mem_cons_of_mem _ List.mem_cons_self
  have stored := written.secrets _ member
  dsimp only at stored
  apply readToString_encode
  rw [stored, Option.map_some]

variable (collected : a.Collected) (paid : a.payMode ≠ "off")
  (placed : Placed target)

include collected paid placed

theorem locatedStartup_paid (written : a.Written target disk) :
    (a.locatedStartup build tables target disk).Paid a.mode
      (unquote a.priceGrin) (trim a.goblinpayToken ++ "\n") a.secretText := by
  have modes := located_paid collected paid target
  obtain ⟨-, -, -, -, payMode, -, tokenFile⟩ := readBack_paid modes
  obtain ⟨namePrice, writePrice⟩ := readBack_paid_prices modes
  have secretFile := readBack_paid_secretFile modes
  have absent := readBack_paid_absent modes
  simp only [List.forall_mem_cons] at absent
  have token := tokenPath_named placed
  have hook := hookPath_named placed
  rw [located_payMode] at payMode
  rw [located_mode, located_priceGrin] at namePrice writePrice
  rw [located_tokenFile paid, token.bare] at tokenFile
  rw [located_secretFile_isEmpty collected paid placed,
    located_secretFile collected paid] at secretFile
  refine ⟨mode_paid collected paid, ?_, absent.1, ?_, ?_,
    Startup.envFile_named tokenFile token.given (written.token paid), ?_⟩
  · have isMode : unquote a.payMode = a.payMode := by
      rcases payMode_paid collected paid with mode | mode
      · rw [mode]
        exact unquote_of_head? (c := 'n') rfl (by decide)
      · rw [mode]
        exact unquote_of_head? (c := 'w') rfl (by decide)
    change PayMode.parse (((a.located target).readBack.lookup
      "FLOONET_PAY_MODE").getD "off") = _
    rw [payMode, Option.getD_some, isMode]
    unfold PayMode.parse Answers.mode
    rw [if_neg paid]
    rcases payMode_paid collected paid with mode | mode
    · rw [mode]
      rfl
    · rw [mode]
      rfl
  · change ((a.located target).readBack.lookup
      "FLOONET_NAME_PRICE_GRIN").getD "0" = _
    rw [namePrice]
    split <;> rfl
  · change ((a.located target).readBack.lookup
      "FLOONET_WRITE_PRICE_GRIN").getD "0" = _
    rw [writePrice]
    split <;> rfl
  · unfold Answers.secretText
    cases typed : a.goblinpayWebhookSecret.isEmpty with
    | true =>
        rw [typed, if_pos rfl] at secretFile
        exact Startup.envFile_absent secretFile
    | false =>
        rw [typed, if_neg Bool.false_ne_true, if_neg Bool.false_ne_true,
          hook.bare] at secretFile
        rw [if_neg Bool.false_ne_true]
        exact Startup.envFile_named secretFile hook.given
          (written.hook paid typed)

/-- The configuration that the located answers set, at a price. -/
def Answers.paidConfig (a : Answers) (target : String) (disk : Disk)
    (price : UInt64) : LoadedConfig :=
  (a.locatedStartup build tables target disk).paidConfig a.mode price
    (trim a.goblinpayToken ++ "\n") a.secretText

omit collected paid placed in
theorem paidConfig_prices (target : String) (disk : Disk) (price : UInt64) :
    let cfg := a.paidConfig build tables target disk price
    (a.mode = .name → cfg.namePriceNanogrin = price.toNat) ∧
      (a.mode = .write → cfg.writePriceNanogrin = price.toNat) := by
  constructor
  · intro mode
    change (if a.mode = .name then price else 0).toNat = _
    rw [if_pos mode]
  · intro mode
    change (if a.mode = .write then price else 0).toNat = _
    rw [if_pos mode]

omit placed in
theorem paidConfig_site (target : String) (disk : Disk) (price : UInt64) :
    let cfg := a.paidConfig build tables target disk price
    cfg.domain = unquote a.domain ∧ cfg.baseUrl = "https://" ++ a.domain ∧
      cfg.nameMin = 3 ∧ cfg.nameMax = 20 ∧
        cfg.goblinpayUrl =
          .ofList (trimEndSlashes (unquote a.goblinpayUrl)) := by
  have modes := located_paid collected paid target
  obtain ⟨domain, baseUrl, -, -, -, url, -⟩ := readBack_paid modes
  have absent := readBack_paid_absent modes
  simp only [List.forall_mem_cons] at absent
  obtain ⟨-, -, nameMin, nameMax, -⟩ := absent
  have letters : "https://".toList = 'h' :: "ttps://".toList := toList_eq rfl
  have first : ("https://" ++ a.domain).toList.head? = some 'h' := by
    rw [String.toList_append, letters]
    rfl
  rw [located_domain] at domain baseUrl
  rw [unquote_of_head? first (by decide)] at baseUrl
  rw [located_goblinpayUrl] at url
  refine ⟨congrArg (Option.getD · "floonet.example") domain,
    congrArg (Option.getD · "https://floonet.example") baseUrl,
    Startup.envParse_absent nameMin _ _, Startup.envParse_absent nameMax _ _,
    congrArg (fun url => String.ofList (trimEndSlashes url))
      (congrArg (Option.getD · "") url)⟩

omit placed in
theorem paidConfig_transfers (target : String) (disk : Disk)
    (price : UInt64) :
    let cfg := a.paidConfig build tables target disk price
    cfg.allowTransfers = a.transfers ∧
      (a.transfers = true → cfg.grinNodeUrl =
        (some (trim (unquote a.grinNodeUrl))).filter fun s => !s.isEmpty) := by
  have modes := located_paid collected paid target
  obtain ⟨given, node⟩ := readBack_paid_transfers modes
  rw [located_transfers] at given node
  rw [located_grinNodeUrl] at node
  cases enabled : a.transfers with
  | false =>
      rw [enabled] at given
      exact ⟨Startup.envBool_absent given false, nofun⟩
  | true =>
      have yes : unquote "true" = "true" :=
        unquote_of_head? (c := 't') rfl (by decide)
      rw [enabled, yes] at given
      rw [enabled] at node
      refine ⟨Startup.envBool_true given false, fun _ => ?_⟩
      exact congrArg (fun url : Option String =>
        (url.map trim).filter fun s => !s.isEmpty) node

end Start

/-! ## The secrets as they were typed -/

theorem promptSecret_returns {Out : Type} (w : Writer Out) (question : String)
    (hidden : Bool) :
    Dialogue.Returns (promptSecret w question hidden) OneLine := by
  unfold promptSecret
  refine Dialogue.returns_then (Dialogue.returns_then
    (Dialogue.returns_bind Dialogue.returns_takeLine fun line one => ?_))
  have trimmed : OneLine (trim line) :=
    ⟨trim_trimmed line, newline_notMem_trim one⟩
  cases hidden with
  | true => exact Dialogue.returns_then (Dialogue.returns_pure trimmed)
  | false => exact Dialogue.returns_pure trimmed

/-- Both secrets are trimmed lines. -/
def Answers.SecretLines (a : Answers) : Prop :=
  OneLine a.goblinpayToken ∧ OneLine a.goblinpayWebhookSecret

theorem collectPayment_secrets {Out : Type} (w : Writer Out)
    (payMode : String) (hidden : Bool) :
    Dialogue.Returns (collectPayment w payMode hidden) fun payment =>
      OneLine payment.2.2.1 ∧ OneLine payment.2.2.2 := by
  unfold collectPayment
  split
  · exact Dialogue.returns_pure ⟨oneLine_empty, oneLine_empty⟩
  · refine Dialogue.returns_bind (Dialogue.returns_any _) fun _ _ => ?_
    refine Dialogue.returns_bind (Dialogue.returns_any _) fun _ _ => ?_
    refine Dialogue.returns_bind (promptSecret_returns w _ hidden)
      fun _ isToken => Dialogue.returns_then ?_
    exact Dialogue.returns_bind (promptSecret_returns w _ hidden)
      fun _ isSecret => Dialogue.returns_pure ⟨isToken, isSecret⟩

theorem collectAnswers_secrets {Out : Type} (tables : CaseTables)
    (w : Writer Out) (hidden : Bool) :
    Dialogue.Returns (collectAnswers tables w hidden) Answers.SecretLines := by
  unfold collectAnswers
  refine Dialogue.returns_then (Dialogue.returns_then
    (Dialogue.returns_then ?_))
  refine Dialogue.returns_bind (Dialogue.returns_any _) fun _ _ => ?_
  refine Dialogue.returns_bind (Dialogue.returns_any _) fun _ _ => ?_
  refine Dialogue.returns_bind (Dialogue.returns_any _) fun _ _ => ?_
  refine Dialogue.returns_then (Dialogue.returns_bind
    (Dialogue.returns_any _) fun payMode _ => ?_)
  refine Dialogue.returns_bind (collectPayment_secrets w payMode hidden)
    fun _ secrets => ?_
  exact Dialogue.returns_bind (Dialogue.returns_any _) fun _ _ =>
    Dialogue.returns_pure secrets

theorem trim_secret {secret : String} (one : OneLine secret) :
    trim (trim secret ++ "\n") = secret := by
  rw [trim_of_trimmed one.trimmed]
  by_cases none : secret = ""
  · subst none
    decide
  · exact Sample.trim_line ⟨one, none⟩

/-! ## What is charged -/

/-- A price that the parser reads, and that is not zero. -/
def Priced (text : String) : Prop :=
  ∃ numeral : Numeral, numeral.Spells (trim text).toList ∧
    numeral.frac.length ≤ 9 ∧ 0 < numeral.value ∧
      numeral.value * 10 ^ 9 < 2 ^ 64

theorem priced_iff (build : Build) {text : String} :
    Priced text ↔
      ∃ n, grinToNanogrin build text = some (.ok n) ∧ n.toNat ≠ 0 := by
  simp only [grinToNanogrin_eq_ok]
  constructor
  · rintro ⟨numeral, spells, places, positive, small⟩
    have scaled := Numeral.scaled_eq places
    have fits : numeral.scaled 9 < UInt64.size := by
      rw [← scaled] at small
      exact_mod_cast small
    have toNat : (UInt64.ofNat (numeral.scaled 9)).toNat = numeral.scaled 9 :=
      UInt64.toNat_ofNat_of_lt' fits
    refine ⟨.ofNat (numeral.scaled 9), ⟨numeral, spells, places, ?_⟩, ?_⟩
    · rw [toNat, scaled]
    · rw [toNat]
      intro zero
      rw [zero] at scaled
      have above : 0 < numeral.value * 10 ^ 9 :=
        mul_pos positive (by positivity)
      rw [← scaled] at above
      exact absurd above (by simp)
  · rintro ⟨n, ⟨numeral, spells, places, value⟩, nonzero⟩
    refine ⟨numeral, spells, places, ?_, ?_⟩
    · have above : (0 : ℚ) < n.toNat := by
        exact_mod_cast Nat.pos_of_ne_zero nonzero
      rw [value] at above
      exact pos_of_mul_pos_left above (by positivity)
    · rw [← value]
      exact_mod_cast n.toNat_lt

/-- The answers of a paid mode survive the env file and the checks. -/
structure Answers.SurvivesPaid (a : Answers) : Prop extends a.Survives where
  price : noNul a.priceGrin = true ∧ Priced (unquote a.priceGrin)
  goblinpayUrl : noNul a.goblinpayUrl = true ∧
    trimEndSlashes (unquote a.goblinpayUrl) ≠ []
  goblinpayToken : a.goblinpayToken ≠ ""

/-- The configuration charges what was answered. -/
structure Answers.Charges (a : Answers) (cfg : LoadedConfig) : Prop where
  valid : cfg.validate = .ok ()
  domain : cfg.domain = a.domain
  baseUrl : cfg.baseUrl = "https://" ++ a.domain
  payMode : cfg.payMode = a.mode
  price : ∃ numeral : Numeral,
    numeral.Spells (trim (unquote a.priceGrin)).toList ∧
      (a.mode = .name →
        (cfg.namePriceNanogrin : ℚ) = numeral.value * 10 ^ 9) ∧
      (a.mode = .write →
        (cfg.writePriceNanogrin : ℚ) = numeral.value * 10 ^ 9)
  goblinpayUrl : cfg.goblinpayUrl =
    .ofList (trimEndSlashes (unquote a.goblinpayUrl))
  goblinpayToken : cfg.goblinpayToken = a.goblinpayToken
  goblinpayWebhookSecret : cfg.goblinpayWebhookSecret =
    if a.goblinpayWebhookSecret.isEmpty then none
    else some a.goblinpayWebhookSecret
  transfers : cfg.allowTransfers = a.transfers
  grinNodeUrl : a.transfers = true →
    cfg.grinNodeUrl = some (trim (unquote a.grinNodeUrl))

/-! ## What is accepted -/

/-- The host of a base URL that passes the checks is the domain. -/
theorem validate_host {cfg : Config} (valid : cfg.validate = .ok ())
    {domain : String} (url : cfg.baseUrl = "https://" ++ domain) :
    Config.firstSegment ':' (Config.firstSegment '/' domain.toList) =
      cfg.domain.toList := by
  simp only [Config.validate, bind_eq_ok, require_eq_ok] at valid
  obtain ⟨-, -, -, -, -, -, -, same, -⟩ := valid
  have isDomain := congrArg String.toList (beq_iff_eq.mp same)
  rw [url, String.toList_append, List.drop_left, String.toList_ofList]
    at isDomain
  exact isDomain

/-- A domain in quotes is not the host of its URL. -/
theorem bare_of_host {domain : String}
    (host : Config.firstSegment ':' (Config.firstSegment '/' domain.toList) =
      (unquote domain).toList) : isQuoted domain = false := by
  rw [← Bool.not_eq_true]
  intro quoted
  obtain ⟨quote, inner, isQuote, chars⟩ := isQuoted_iff.mp quoted
  rw [unquote_eq isQuote chars, String.toList_ofList] at host
  have plain : ∀ c ∈ domain.toList, c ≠ '/' ∧ c ≠ ':' := by
    have inside : ∀ c ∈ inner, c ≠ '/' ∧ c ≠ ':' := by
      intro c member
      rw [← host] at member
      have notColon := List.mem_takeWhile_imp member
      have notSlash := List.mem_takeWhile_imp
        ((List.takeWhile_prefix _).mem member)
      exact ⟨bne_iff_ne.mp notSlash, bne_iff_ne.mp notColon⟩
    have ends : quote ≠ '/' ∧ quote ≠ ':' := by
      rcases isQuote with rfl | rfl <;> decide
    intro c member
    rw [chars, List.mem_cons, List.mem_append, List.mem_singleton] at member
    rcases member with rfl | within | rfl
    · exact ends
    · exact inside c within
    · exact ends
  rw [firstSegments_eq_self.mpr plain, chars] at host
  have lengths := congrArg List.length host
  rw [List.length_cons, List.length_append, List.length_singleton] at lengths
  omega

section Accepted

variable (build : Build) (tables : CaseTables) {disk : Disk} {a : Answers}
  {target : String} (collected : a.Collected) (paid : a.payMode ≠ "off")

include collected paid

theorem paidConfig_bare {price : UInt64}
    (valid : (a.paidConfig build tables target disk price).validate = .ok ()) :
    isQuoted a.domain = false := by
  obtain ⟨domain, url, -⟩ :=
    paidConfig_site build tables collected paid target disk price
  have host := validate_host valid url
  rw [domain] at host
  exact bare_of_host host

theorem paidConfig_valid (target : String) (disk : Disk) (price : UInt64)
    (secrets : a.SecretLines) (bare : isQuoted a.domain = false) :
    (a.paidConfig build tables target disk price).validate = .ok () ↔
      (∀ c ∈ a.domain.toList, c ≠ '/' ∧ c ≠ ':') ∧
        trimEndSlashes (unquote a.goblinpayUrl) ≠ [] ∧
          a.goblinpayToken ≠ "" ∧ price.toNat ≠ 0 ∧
            (a.transfers = true → trim (unquote a.grinNodeUrl) ≠ "") := by
  obtain ⟨domain, baseUrl, nameMin, nameMax, url⟩ :=
    paidConfig_site build tables collected paid target disk price
  obtain ⟨transfers, node⟩ :=
    paidConfig_transfers build tables collected paid target disk price
  obtain ⟨namePrice, writePrice⟩ :=
    paidConfig_prices build tables (a := a) target disk price
  have token : (a.paidConfig build tables target disk price).goblinpayToken =
      a.goblinpayToken := trim_secret secrets.1
  have payMode : (a.paidConfig build tables target disk price).payMode =
    a.mode := rfl
  rw [unquote_eq_self_iff.mpr bare] at domain
  have derived : (a.paidConfig build tables target disk price).Derived := by
    refine ⟨?_, ?_⟩
    · rw [domain]
      exact collected.domain.nonempty
    · rw [domain]
      exact baseUrl
  have charges := mode_paid collected paid
  rw [validate_paid derived (payMode ▸ charges) ⟨nameMin, nameMax⟩, domain, url,
    token, payMode, transfers]
  have given : String.ofList (trimEndSlashes (unquote a.goblinpayUrl)) ≠ "" ↔
      trimEndSlashes (unquote a.goblinpayUrl) ≠ [] := by
    rw [Ne, ← String.toList_eq_nil_iff, String.toList_ofList]
  have priced : ((a.mode = .name →
        (a.paidConfig build tables target disk price).namePriceNanogrin ≠ 0) ∧
      (a.mode = .write →
        (a.paidConfig build tables target disk price).writePriceNanogrin ≠
          0)) ↔ price.toNat ≠ 0 := by
    cases mode : a.mode with
    | off => exact absurd mode charges
    | name =>
        rw [namePrice mode]
        exact ⟨fun priced => priced.1 rfl, fun nonzero => ⟨fun _ => nonzero, nofun⟩⟩
    | write =>
        rw [writePrice mode]
        exact ⟨fun priced => priced.2 rfl, fun nonzero => ⟨nofun, fun _ => nonzero⟩⟩
  have noded : (a.transfers = true →
      (a.paidConfig build tables target disk price).grinNodeUrl.isSome =
        true) ↔ (a.transfers = true → trim (unquote a.grinNodeUrl) ≠ "") := by
    refine forall_congr' fun enabled => ?_
    rw [node enabled, Option.filter_some]
    by_cases blank : trim (unquote a.grinNodeUrl) = ""
    · rw [blank]
      decide
    · rw [isEmpty_eq_false.mpr blank]
      exact ⟨fun _ => blank, fun _ => rfl⟩
  refine and_congr_right fun _ => and_congr given (and_congr_right fun _ => ?_)
  rw [← and_assoc]
  exact and_congr priced noded

variable (placed : Placed target) (written : a.Written target disk)

include placed written

/-- What the start-up behind the wizard accepts. -/
theorem start_located {cfg : LoadedConfig} :
    disk.start build tables target = some (.ok cfg) ↔
      (loadVars [] (a.located target).readBack).isSome = true ∧
        ∃ n, grinToNanogrin build (unquote a.priceGrin) = some (.ok n) ∧
          a.paidConfig build tables target disk n = cfg ∧
            cfg.validate = .ok () := by
  have accepts := Startup.fromEnv_paid
    (locatedStartup_paid build tables collected paid placed written) cfg
  unfold Disk.start
  rw [readToString_encode written.envFile]
  dsimp only
  rw [parseEnvFile_located collected paid placed]
  cases loaded : loadVars [] (a.located target).readBack with
  | none =>
      constructor
      · rintro ⟨⟩
      · rintro ⟨⟨⟩, -⟩
  | some result =>
      obtain ⟨set, vars⟩ := result
      have same : (fun key => vars.lookup key) =
          fun key => (a.located target).readBack.lookup key := by
        funext key
        rw [loadVars_lookup loaded, List.lookup_nil, Option.none_or]
      change (Startup.fromEnv {
        build := build
        tables := tables
        var := fun key => vars.lookup key
        readToString := disk.readToString }).run = _ ↔ _
      rw [same]
      exact accepts.trans (and_iff_right rfl).symm

theorem start_located_survives (secrets : a.SecretLines) :
    (∃ cfg, disk.start build tables target = some (.ok cfg)) ↔
      a.SurvivesPaid := by
  have loads := loadVars_located_iff collected paid placed
  constructor
  · rintro ⟨cfg, started⟩
    obtain ⟨loaded, n, read, rfl, valid⟩ :=
      (start_located build tables collected paid placed written).mp started
    have bare := paidConfig_bare build tables collected paid valid
    obtain ⟨host, url, token, nonzero, node⟩ :=
      (paidConfig_valid build tables collected paid target disk n secrets
        bare).mp valid
    obtain ⟨noDomain, noBind, noDir, noPrice, noUrl, noNode⟩ := loads.mp loaded
    exact {
      bare := bare
      host := host
      domain := noDomain
      bindAddr := noBind
      dataDir := noDir
      grinNodeUrl := fun enabled => ⟨noNode enabled, node enabled⟩
      price := ⟨noPrice, (priced_iff build).mpr ⟨n, read, nonzero⟩⟩
      goblinpayUrl := ⟨noUrl, url⟩
      goblinpayToken := token }
  · intro survives
    obtain ⟨n, read, nonzero⟩ := (priced_iff build).mp survives.price.2
    have loaded := loads.mpr ⟨survives.domain, survives.bindAddr,
      survives.dataDir, survives.price.1, survives.goblinpayUrl.1,
      fun enabled => (survives.grinNodeUrl enabled).1⟩
    have valid := (paidConfig_valid build tables collected paid target disk n
      secrets survives.bare).mpr
        ⟨survives.host, survives.goblinpayUrl.2, survives.goblinpayToken,
          nonzero, fun enabled => (survives.grinNodeUrl enabled).2⟩
    exact ⟨_, (start_located build tables collected paid placed written).mpr
      ⟨loaded, n, read, rfl, valid⟩⟩

theorem start_located_charges (secrets : a.SecretLines) {cfg : LoadedConfig}
    (started : disk.start build tables target = some (.ok cfg)) :
    a.Charges cfg := by
  obtain ⟨-, n, read, rfl, valid⟩ :=
    (start_located build tables collected paid placed written).mp started
  have bare := paidConfig_bare build tables collected paid valid
  obtain ⟨domain, baseUrl, -, -, url⟩ :=
    paidConfig_site build tables collected paid target disk n
  obtain ⟨transfers, node⟩ :=
    paidConfig_transfers build tables collected paid target disk n
  obtain ⟨namePrice, writePrice⟩ :=
    paidConfig_prices build tables (a := a) target disk n
  obtain ⟨-, -, -, -, given⟩ :=
    (paidConfig_valid build tables collected paid target disk n secrets
      bare).mp valid
  obtain ⟨numeral, spells, -, value⟩ := (grinToNanogrin_eq_ok build).mp read
  rw [unquote_eq_self_iff.mpr bare] at domain
  refine {
    valid := valid
    domain := domain
    baseUrl := baseUrl
    payMode := rfl
    price := ⟨numeral, spells, fun name => ?_, fun write => ?_⟩
    goblinpayUrl := url
    goblinpayToken := trim_secret secrets.1
    goblinpayWebhookSecret := ?_
    transfers := transfers
    grinNodeUrl := fun enabled => ?_ }
  · rw [namePrice name]
    exact value
  · rw [writePrice write]
    exact value
  · have absent := readBack_paid_absent
      (located_paid collected paid target)
    simp only [List.forall_mem_cons] at absent
    change ((a.secretText.map trim).or ((a.located target).readBack.lookup
      "GOBLINPAY_WEBHOOK_SECRET")).filter (fun s => !s.isEmpty) = _
    rw [absent.2.1, Option.or_none]
    unfold Answers.secretText
    cases typed : a.goblinpayWebhookSecret.isEmpty with
    | true => rfl
    | false =>
        rw [if_neg Bool.false_ne_true, if_neg Bool.false_ne_true,
          Option.map_some, trim_secret secrets.2, Option.filter_some, typed]
        rfl
  · rw [node enabled, Option.filter_some,
      isEmpty_eq_false.mpr (given enabled)]
    rfl

end Accepted

/-- A run of the wizard in a paid mode that has written its files: the start-up
that follows accepts the answers exactly if they survive the env file and the
checks, and then it charges the answered price, exactly, through the answered
server with the secrets as they were typed. -/
theorem paid_wizard_charges {Out : Type} (w : Writer Out) (build : Build)
    (tables : CaseTables) (umask : Umask) {target : String}
    (placed : Placed target) (hidden : Bool) {streams streams' : Reader × Out}
    {a : Answers} (answered : (collectAnswers tables w hidden).run streams =
      .ok (a, streams')) (paid : a.payMode ≠ "off") {start ended : Machine}
    {value : String × Reader × Out}
    (ran : (runWizard tables w target hidden streams).run.run
      (FileCall.exec umask) start = (.ok value, ended)) :
    ((∃ cfg, ended.disk.start build tables target = some (.ok cfg)) ↔
      a.SurvivesPaid) ∧
    ∀ cfg, ended.disk.start build tables target = some (.ok cfg) →
      a.Charges cfg := by
  have collected := collectAnswers_returns tables w hidden _ _ _ answered
  have secrets := collectAnswers_secrets tables w hidden _ _ _ answered
  have written : a.Written target ended.disk := by
    unfold runWizard at ran
    rw [answered] at ran
    have files : Ends (FileCall.exec umask) (fun _ => True)
        (writeAnswers w target a streams') _ :=
      writeAnswers_ends w target a streams'
    have ends := files start trivial value (congrArg Prod.fst ran)
    obtain rfl : _ = ended := congrArg Prod.snd ran
    exact ⟨ends.1, ends.2⟩
  exact ⟨start_located_survives build tables collected paid placed written
    secrets, fun _ => start_located_charges build tables collected paid placed
      written secrets⟩

namespace Sample

/-- A line as it is typed. -/
def typedLine (line : String) : Except IoError (List UInt8) :=
  .ok (encode line ++ [10])

/-- What is typed: the essentials of an authority that sells names. -/
def paidInput : Reader :=
  ["names.example", "", "", "name", "2.5", "", "s3cret", ""].map typedLine

theorem readLine_typedLine {line : String} (one : 10 ∉ encode line)
    (later : Reader) :
    readLine (typedLine line :: later) = .ok (line ++ "\n", later) := by
  have newline : "\n".toList = ['\n'] := toList_eq rfl
  have encoded : (line ++ "\n").toList.flatMap String.utf8EncodeChar =
      encode line ++ [10] := by
    rw [String.toList_append, newline, List.flatMap_append,
      List.flatMap_singleton]
    rfl
  exact readLine_typed encoded one later

/-- A line that can be typed as an answer. -/
structure Typed (line : String) : Prop where
  answer : Answer line
  one : 10 ∉ encode line

theorem Typed.of_chars {line : String} {chars : List Char}
    (isText : line = String.ofList chars)
    (visible : (!chars.isEmpty && chars.all fun c => !isWhitespace c) = true)
    (one : 10 ∉ chars.flatMap String.utf8EncodeChar) : Typed line where
  answer := .of_chars isText visible
  one := by
    rw [encode, toList_eq isText]
    exact one

theorem prompt_answer {line : String} (typed : Typed line) (later : Reader)
    (question default : String) :
    (prompt Writer.sink question default).run (typedLine line :: later, ()) =
      .ok (line, later, ()) := by
  rw [prompt_sink (readLine_typedLine typed.one later),
    trim_line typed.answer, isEmpty_eq_false.mpr typed.answer.nonempty]
  rfl

theorem prompt_default (later : Reader) (question default : String) :
    (prompt Writer.sink question default).run (typedLine "" :: later, ()) =
      .ok (default, later, ()) := by
  have none : 10 ∉ encode "" := by decide
  rw [prompt_sink (readLine_typedLine none later), if_pos (by decide)]

theorem promptSecret_sink {reader rest : Reader} {line : String}
    (read : readLine reader = .ok (line, rest)) (question : String) :
    (promptSecret Writer.sink question false).run (reader, ()) =
      .ok (trim line, rest, ()) := by
  unfold promptSecret
  rw [Dialogue.run_bind rfl, Dialogue.run_bind rfl,
    Dialogue.run_bind (Dialogue.run_takeLine read ())]
  rfl

theorem collectAnswers_paid :
    (collectAnswers .ascii Writer.sink false).run (paidInput, ()) =
      .ok (paidAnswers "s3cret" "", [], ()) := by
  have domain : Typed "names.example" := .of_chars rfl (by decide) (by decide)
  have name : Typed "name" := .of_chars rfl (by decide) (by decide)
  have price : Typed "2.5" := .of_chars rfl (by decide) (by decide)
  have token : Typed "s3cret" := .of_chars rfl (by decide) (by decide)
  have none : 10 ∉ encode "" := by decide
  have payMode : ∀ later, (promptChoice .ascii Writer.sink
      "Pay mode (off/name/write)" "off" ["off", "name", "write"] 5).run
        (typedLine "name" :: later, ()) = .ok ("name", later, ()) := by
    intro later
    have lower := toLowercase_plain CaseTables.ascii
      (rfl : "name" = String.ofList _) (by decide)
    unfold promptChoice
    rw [Dialogue.run_bind (prompt_answer name later _ _)]
    dsimp only
    rw [lower]
    rfl
  have secret := promptSecret_sink (readLine_typedLine token.one [typedLine ""])
    "GoblinPay API token (input hidden)"
  rw [trim_line token.answer] at secret
  have hook := promptSecret_sink (readLine_typedLine none [])
    "GoblinPay webhook secret (input hidden, Enter to skip)"
  have blankHook : trim ("" ++ "\n") = "" := by decide
  rw [blankHook] at hook
  have payment : (collectPayment Writer.sink "name" false).run
      (["2.5", "", "s3cret", ""].map typedLine, ()) =
        .ok (("2.5", "http://127.0.0.1:8192", "s3cret", ""), [], ()) := by
    unfold collectPayment
    rw [if_neg (by decide)]
    rw [List.map_cons, Dialogue.run_bind (prompt_answer price _ _ _),
      List.map_cons, Dialogue.run_bind (prompt_default _ _ _), List.map_cons,
      List.map_singleton, Dialogue.run_bind secret, Dialogue.run_bind rfl,
      Dialogue.run_bind hook]
    rfl
  unfold collectAnswers
  rw [Dialogue.run_bind rfl, Dialogue.run_bind rfl, Dialogue.run_bind rfl,
    paidInput, List.map_cons, Dialogue.run_bind (prompt_answer domain _ _ _),
    List.map_cons, Dialogue.run_bind (prompt_default _ _ _), List.map_cons,
    Dialogue.run_bind (prompt_default _ _ _), Dialogue.run_bind rfl,
    List.map_cons, Dialogue.run_bind (payMode _), Dialogue.run_bind payment,
    Dialogue.run_bind collectTransfers_end]
  rfl

theorem placed : Placed ".env" := by
  have dir : Path.dirOf ".env" = "." := by
    have chars : ".env".toList = ['.', 'e', 'n', 'v'] := toList_eq rfl
    unfold Path.dirOf Path.parent
    rw [chars]
    rfl
  have secretsDir : secretsDirFor ".env" = "./floonet-authority/secrets" := by
    unfold secretsDirFor
    rw [dir]
    decide
  constructor
  · rw [secretsDir]
    exact (Answer.of_chars rfl (by decide)).toOneLine
  · rw [secretsDir]
    exact noNul_of_chars rfl (by decide)

theorem paid_wizard_charges_names :
    ∃ ended, (runWizard .ascii Writer.sink ".env" false (paidInput, ())).run.run
        (FileCall.exec umask) blank = (.ok (".env", [], ()), ended) ∧
      ((∃ cfg, ended.disk.start .release .ascii ".env" = some (.ok cfg)) ↔
        (paidAnswers "s3cret" "").SurvivesPaid) ∧
      ∀ cfg, ended.disk.start .release .ascii ".env" = some (.ok cfg) →
        (paidAnswers "s3cret" "").Charges cfg := by
  have ran : (runWizard .ascii Writer.sink ".env" false (paidInput, ())).run.run
      (FileCall.exec umask) blank = (.ok (".env", [], ()),
        ((runWizard .ascii Writer.sink ".env" false (paidInput, ())).run.run
          (FileCall.exec umask) blank).2) := by
    refine Prod.ext ?_ rfl
    unfold runWizard
    rw [collectAnswers_paid]
    exact (succeeds_writeAnswers ".env" (paidAnswers "s3cret" "") ([], ())
      blank rfl).2
  exact ⟨_, ran, paid_wizard_charges Writer.sink .release .ascii umask placed
    false collectAnswers_paid (by decide) ran⟩

end Sample

end Floonet
