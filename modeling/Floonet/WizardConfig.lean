import Floonet.Environment
import Floonet.Setup

/-!
# The configuration of the answers

The env file of a free authority sets the variables that the start-up reads
its configuration from.  The start-up accepts exactly the answers that survive
the quotes of the file and the separators of a URL.
-/

namespace Floonet

open MachineInt Text Validation

/-- The start-up with no variables but those of the env file; no result is a
panic. -/
def Answers.start (build : Build) (tables : CaseTables)
    (readToString : String → Except String String) (a : Answers) :
    Option (Except String LoadedConfig) := do
  let (_, vars) ← loadVars [] (parseEnvFile (renderEnv a))
  Startup.fromEnv {
    build := build
    tables := tables
    var := fun key => vars.lookup key
    readToString := readToString }

/-- The start-up accepts the answers, under the answered domain. -/
def Answers.Accepted (build : Build) (tables : CaseTables)
    (readToString : String → Except String String) (a : Answers) : Prop :=
  ∃ cfg, a.start build tables readToString = some (.ok cfg) ∧
    cfg.domain = a.domain ∧ cfg.validate = .ok ()

/-- The answers survive the env file and the checks. -/
structure Answers.Survives (a : Answers) : Prop where
  bare : isQuoted a.domain = false
  host : ∀ c ∈ a.domain.toList, c ≠ '/' ∧ c ≠ ':'
  domain : noNul a.domain = true
  bindAddr : noNul a.bindAddr = true
  dataDir : noNul a.dataDir = true
  grinNodeUrl : a.transfers = true →
    noNul a.grinNodeUrl = true ∧ trim (unquote a.grinNodeUrl) ≠ ""

/-! ## The variables of a free authority -/

section Variables

/-- The assignments of the env file as it is read back. -/
def Answers.readBack (a : Answers) : List (String × String) :=
  a.entries.map fun pair => (pair.1, unquote pair.2)

variable {a : Answers} (free : a.payMode = "off")

include free

theorem readBack_domain :
    a.readBack.lookup "FLOONET_DOMAIN" = some (unquote a.domain) := by
  simp [Answers.readBack, Answers.entries, free]

theorem readBack_baseUrl : a.readBack.lookup "FLOONET_BASE_URL" =
    some (unquote ("https://" ++ a.domain)) := by
  simp [Answers.readBack, Answers.entries, free, List.lookup_cons]

theorem readBack_bindAddr :
    a.readBack.lookup "FLOONET_NAMES_BIND" = some (unquote a.bindAddr) := by
  simp [Answers.readBack, Answers.entries, free, List.lookup_cons]

theorem readBack_dbPath : a.readBack.lookup "FLOONET_NAMES_DB" =
    some (unquote (dbPathIn a.dataDir)) := by
  simp [Answers.readBack, Answers.entries, free, List.lookup_cons]

theorem readBack_payMode :
    a.readBack.lookup "FLOONET_PAY_MODE" = some (unquote "off") := by
  simp [Answers.readBack, Answers.entries, free, List.lookup_cons]

theorem readBack_transfers : a.readBack.lookup "FLOONET_TRANSFERS" =
    if a.transfers then some (unquote "true") else none := by
  cases enabled : a.transfers <;>
    simp [Answers.readBack, Answers.entries, free, List.lookup_cons, enabled]

theorem readBack_grinNodeUrl : a.readBack.lookup "FLOONET_GRIN_NODE_URL" =
    if a.transfers then some (unquote a.grinNodeUrl) else none := by
  cases enabled : a.transfers <;>
    simp [Answers.readBack, Answers.entries, free, List.lookup_cons, enabled]

theorem readBack_absent : ∀ key ∈ ["FLOONET_RESERVED_FILE",
    "GOBLINPAY_TOKEN_FILE", "GOBLINPAY_WEBHOOK_SECRET_FILE",
    "FLOONET_NAME_PRICE_GRIN", "FLOONET_WRITE_PRICE_GRIN", "FLOONET_NAME_MIN",
    "FLOONET_NAME_MAX"], a.readBack.lookup key = none := by
  cases enabled : a.transfers <;>
    simp [Answers.readBack, Answers.entries, free, List.lookup_cons, enabled]

end Variables

/-! ## The checks -/

/-- The host is the whole text if it has neither a path nor a port. -/
theorem firstSegments_eq_self {host : List Char} :
    Config.firstSegment ':' (Config.firstSegment '/' host) = host ↔
      ∀ c ∈ host, c ≠ '/' ∧ c ≠ ':' := by
  unfold Config.firstSegment
  rw [List.takeWhile_takeWhile, List.takeWhile_eq_self_iff]
  simp only [decide_eq_true_iff, bne_iff_ne, and_comm]

/-- The base URL is made of the domain. -/
structure Config.Derived (cfg : Config) : Prop where
  named : cfg.domain ≠ ""
  url : cfg.baseUrl = "https://" ++ cfg.domain

theorem Config.Derived.host {cfg : Config} (derived : cfg.Derived) :
    (!cfg.domain.isEmpty) = true ∧
      "https://".toList.isPrefixOf cfg.baseUrl.toList = true ∧
        cfg.baseUrl.toList.drop "https://".toList.length =
          cfg.domain.toList ∧ (!cfg.domain.toList.isEmpty) = true := by
  refine ⟨?_, ?_, ?_, ?_⟩
  · rw [isEmpty_eq_false.mpr derived.named]
    rfl
  · rw [derived.url, String.toList_append, List.isPrefixOf_iff_prefix]
    exact List.prefix_append _ _
  · rw [derived.url, String.toList_append, List.drop_left]
  · rw [Bool.not_eq_true', ← Bool.not_eq_true, List.isEmpty_iff,
      String.toList_eq_nil_iff]
    exact derived.named

theorem validate_derived {cfg : Config} (derived : cfg.Derived)
    (free : cfg.payMode = .off) (bounds : cfg.nameMin = 3 ∧ cfg.nameMax = 20) :
    cfg.validate = .ok () ↔
      (∀ c ∈ cfg.domain.toList, c ≠ '/' ∧ c ≠ ':') ∧
        (cfg.allowTransfers = true → cfg.grinNodeUrl.isSome = true) := by
  obtain ⟨given, starts, host, givenHost⟩ := derived.host
  have transfers : (!(cfg.allowTransfers && cfg.grinNodeUrl.isNone)) = true ↔
      (cfg.allowTransfers = true → cfg.grinNodeUrl.isSome = true) := by
    cases cfg.allowTransfers <;> cases cfg.grinNodeUrl <;> simp
  rw [← firstSegments_eq_self]
  simp only [Config.validate, bind_eq_ok, require_eq_ok, starts, host, free,
    bounds.1, bounds.2, transfers]
  constructor
  · rintro ⟨_, -, _, -, _, -, _, same, _, -, _, -, _, -, _, -, _, -, node⟩
    have isDomain := congrArg String.toList (beq_iff_eq.mp same)
    rw [String.toList_ofList] at isDomain
    exact ⟨isDomain, node⟩
  · rintro ⟨isDomain, node⟩
    rw [isDomain, String.ofList_toList]
    exact ⟨(), given, (), trivial, (), givenHost, (), BEq.rfl, (), by decide,
      (), rfl, (), rfl, (), rfl, (), rfl, node⟩

theorem validate_mismatch {cfg : Config} (derived : cfg.Derived)
    {host : String} (bare : String.ofList (Config.firstSegment ':'
      (Config.firstSegment '/' cfg.domain.toList)) = host)
    (other : host ≠ cfg.domain) :
    cfg.validate = .error (s!"FLOONET_BASE_URL host `{host}` does not match " ++
      s!"FLOONET_DOMAIN `{cfg.domain}`") := by
  obtain ⟨given, starts, isHost, givenHost⟩ := derived.host
  unfold Config.validate
  dsimp only
  rw [given, starts, isHost, givenHost, bare, beq_false_of_ne other]
  rfl

/-! ## The start-up -/

section Start

variable (build : Build) (tables : CaseTables)
  (readToString : String → Except String String) (a : Answers)

/-- The start-up that reads the env file's assignments. -/
def Answers.startup : Startup where
  build := build
  tables := tables
  var := fun key => a.readBack.lookup key
  readToString := readToString

/-- The configuration of a free authority. -/
def Answers.freeConfig : LoadedConfig :=
  (a.startup build tables readToString).config none .off 0 0 none none

variable {a}

theorem startup_free (free : a.payMode = "off") :
    (a.startup build tables readToString).Free := by
  have off : unquote "off" = "off" :=
    unquote_of_head? (c := 'o') rfl (by decide)
  have absent := readBack_absent free
  simp only [List.forall_mem_cons] at absent
  obtain ⟨reservedFile, tokenFile, secretFile, namePrice, writePrice, -⟩ :=
    absent
  exact ⟨(readBack_payMode free).trans (congrArg _ off), reservedFile,
    tokenFile, secretFile, namePrice, writePrice⟩

theorem freeConfig_domain (free : a.payMode = "off") :
    (a.freeConfig build tables readToString).domain = unquote a.domain :=
  congrArg (Option.getD · "floonet.example") (readBack_domain free)

theorem freeConfig_baseUrl (free : a.payMode = "off") :
    (a.freeConfig build tables readToString).baseUrl =
      "https://" ++ a.domain := by
  have letters : "https://".toList = 'h' :: "ttps://".toList := toList_eq rfl
  have first : ("https://" ++ a.domain).toList.head? = some 'h' := by
    rw [String.toList_append, letters]
    rfl
  have url := readBack_baseUrl free
  rw [unquote_of_head? first (by decide)] at url
  exact congrArg (Option.getD · "https://floonet.example") url

theorem freeConfig_bounds (free : a.payMode = "off") :
    (a.freeConfig build tables readToString).nameMin = 3 ∧
      (a.freeConfig build tables readToString).nameMax = 20 := by
  have absent := readBack_absent free
  simp only [List.forall_mem_cons] at absent
  obtain ⟨-, -, -, -, -, nameMin, nameMax, -⟩ := absent
  exact ⟨Startup.envParse_absent nameMin _ _,
    Startup.envParse_absent nameMax _ _⟩

theorem freeConfig_allowTransfers (free : a.payMode = "off") :
    (a.freeConfig build tables readToString).allowTransfers = a.transfers := by
  have given := readBack_transfers free
  cases enabled : a.transfers with
  | false =>
      rw [enabled] at given
      exact Startup.envBool_absent given false
  | true =>
      have yes : unquote "true" = "true" :=
        unquote_of_head? (c := 't') rfl (by decide)
      rw [enabled, yes] at given
      exact Startup.envBool_true given false

theorem freeConfig_grinNodeUrl (free : a.payMode = "off")
    (enabled : a.transfers = true) :
    (a.freeConfig build tables readToString).grinNodeUrl =
      (some (trim (unquote a.grinNodeUrl))).filter fun s => !s.isEmpty := by
  have given := readBack_grinNodeUrl free
  rw [enabled] at given
  exact congrArg (fun url : Option String =>
    (url.map trim).filter fun s => !s.isEmpty) given

theorem freeConfig_derived (collected : a.Collected)
    (free : a.payMode = "off") (bare : isQuoted a.domain = false) :
    (a.freeConfig build tables readToString).domain = a.domain ∧
      (a.freeConfig build tables readToString).Derived := by
  have domain := freeConfig_domain build tables readToString free
  rw [unquote_eq_self_iff.mpr bare] at domain
  have url := freeConfig_baseUrl build tables readToString free
  have named := collected.domain.nonempty
  rw [← domain] at url named
  exact ⟨domain, named, url⟩

theorem freeConfig_validate (collected : a.Collected)
    (free : a.payMode = "off") (bare : isQuoted a.domain = false) :
    (a.freeConfig build tables readToString).validate = .ok () ↔
      (∀ c ∈ a.domain.toList, c ≠ '/' ∧ c ≠ ':') ∧
        (a.transfers = true → trim (unquote a.grinNodeUrl) ≠ "") := by
  obtain ⟨domain, derived⟩ :=
    freeConfig_derived build tables readToString collected free bare
  rw [validate_derived derived rfl (freeConfig_bounds _ _ _ free), domain,
    freeConfig_allowTransfers _ _ _ free]
  refine and_congr_right fun _ => forall_congr' fun enabled => ?_
  rw [freeConfig_grinNodeUrl _ _ _ free enabled, Option.filter_some]
  by_cases blank : trim (unquote a.grinNodeUrl) = ""
  · rw [blank]
    decide
  · rw [isEmpty_eq_false.mpr blank]
    exact ⟨fun _ => blank, fun _ => rfl⟩

/-- What the start-up does once the variables are loaded. -/
theorem start_eq (collected : a.Collected) (free : a.payMode = "off") :
    a.start build tables readToString =
      (loadVars [] a.readBack).map fun _ =>
        (a.freeConfig build tables readToString).validate.map fun _ =>
          a.freeConfig build tables readToString := by
  have parsed : parseEnvFile (renderEnv a) = a.readBack :=
    collected.parseEnvFile_renderEnv
  rw [Answers.start, parsed]
  cases loaded : loadVars [] a.readBack with
  | none => rfl
  | some result =>
      obtain ⟨set, vars⟩ := result
      have same : (fun key => vars.lookup key) =
          fun key => a.readBack.lookup key := by
        funext key
        rw [loadVars_lookup loaded, List.lookup_nil, Option.none_or]
      change (Startup.fromEnv {
        build := build
        tables := tables
        var := fun key => vars.lookup key
        readToString := readToString }).run = _
      rw [same]
      exact Startup.fromEnv_free
        (startup_free build tables readToString free)

theorem start_eq_ok (collected : a.Collected) (free : a.payMode = "off")
    {cfg : LoadedConfig} :
    a.start build tables readToString = some (.ok cfg) ↔
      (loadVars [] a.readBack).isSome = true ∧ cfg.validate = .ok () ∧
        a.freeConfig build tables readToString = cfg := by
  rw [start_eq build tables readToString collected free]
  cases loadVars [] a.readBack with
  | none => simp
  | some vars =>
      rw [Option.map_some, Option.some_inj]
      cases checked : (a.freeConfig build tables readToString).validate with
      | error reason =>
          constructor
          · intro accepted
            cases accepted
          · rintro ⟨-, valid, rfl⟩
            cases checked.symm.trans valid
      | ok done =>
          constructor
          · intro accepted
            cases accepted
            exact ⟨rfl, checked, rfl⟩
          · rintro ⟨-, -, rfl⟩
            rfl

end Start

theorem dbPathIn_noNul {dir : String} :
    noNul (dbPathIn dir) = true ↔ noNul dir = true := by
  have name : noNul "names.db" = true := noNul_of_chars rfl (by decide)
  have slashed : noNul "/names.db" = true := noNul_of_chars rfl (by decide)
  unfold dbPathIn
  split
  · exact noNul_append.trans (and_iff_left name)
  · exact noNul_append.trans (and_iff_left slashed)

theorem entries_noNul {a : Answers} (free : a.payMode = "off")
    (domain : noNul a.domain = true) (bindAddr : noNul a.bindAddr = true)
    (dataDir : noNul a.dataDir = true)
    (grinNodeUrl : a.transfers = true → noNul a.grinNodeUrl = true) :
    ∀ pair ∈ a.entries, noNul pair.2 = true := by
  have https : noNul "https://" = true := noNul_of_chars rfl (by decide)
  have wss : noNul "wss://" = true := noNul_of_chars rfl (by decide)
  have off : noNul "off" = true := noNul_of_chars rfl (by decide)
  have yes : noNul "true" = true := noNul_of_chars rfl (by decide)
  have baseUrl := noNul_append.mpr ⟨https, domain⟩
  have relays := noNul_append.mpr ⟨wss, domain⟩
  have dbPath := dbPathIn_noNul.mpr dataDir
  cases enabled : a.transfers with
  | false =>
      simp only [Answers.entries, free, enabled, List.forall_mem_append,
        List.forall_mem_cons]
      simp [domain, baseUrl, relays, bindAddr, dbPath, off]
  | true =>
      simp only [Answers.entries, free, enabled, List.forall_mem_append,
        List.forall_mem_cons]
      simp [domain, baseUrl, relays, bindAddr, dbPath, off, yes,
        grinNodeUrl enabled]

/-- The variables can be set unless an answer has a zero character. -/
theorem loadVars_readBack_iff {a : Answers} (collected : a.Collected)
    (free : a.payMode = "off") :
    (loadVars [] a.readBack).isSome = true ↔
      noNul a.domain = true ∧ noNul a.bindAddr = true ∧
        noNul a.dataDir = true ∧
          (a.transfers = true → noNul a.grinNodeUrl = true) := by
  constructor
  · intro isSome
    obtain ⟨⟨set, vars⟩, loaded⟩ := Option.isSome_iff_exists.mp isSome
    have domain := noNul_of_loadVars loaded (readBack_domain free)
    have bindAddr := noNul_of_loadVars loaded (readBack_bindAddr free)
    have dbPath := noNul_of_loadVars loaded (readBack_dbPath free)
    rw [noNul_unquote] at domain bindAddr dbPath
    refine ⟨domain, bindAddr, ?_, fun enabled => ?_⟩
    · exact dbPathIn_noNul.mp dbPath
    · have given := readBack_grinNodeUrl free
      rw [enabled] at given
      exact noNul_unquote.mp (noNul_of_loadVars loaded given)
  · rintro ⟨domain, bindAddr, dataDir, grinNodeUrl⟩
    have plain := entries_noNul free domain bindAddr dataDir grinNodeUrl
    refine loadVars_isSome (List.forall_mem_map.mpr fun pair member => ?_) []
    exact ⟨(collected.assigns pair member).1,
      noNul_unquote.mpr (plain pair member)⟩

theorem start_refused (build : Build) (tables : CaseTables)
    (readToString : String → Except String String) {a : Answers}
    (collected : a.Collected) (free : a.payMode = "off")
    (bare : isQuoted a.domain = false)
    (loads : (loadVars [] a.readBack).isSome = true) {host : String}
    (isHost : String.ofList (Config.firstSegment ':'
      (Config.firstSegment '/' a.domain.toList)) = host)
    (other : host ≠ a.domain) :
    a.start build tables readToString =
      some (.error (s!"FLOONET_BASE_URL host `{host}` does not match " ++
        s!"FLOONET_DOMAIN `{a.domain}`")) := by
  obtain ⟨domain, derived⟩ :=
    freeConfig_derived build tables readToString collected free bare
  obtain ⟨vars, loaded⟩ := Option.isSome_iff_exists.mp loads
  rw [← domain] at isHost other
  rw [start_eq build tables readToString collected free, loaded,
    Option.map_some, validate_mismatch derived isHost other, domain]
  rfl

/-- A free authority starts under the answered domain exactly if the answers
survive the env file and the checks. -/
theorem wizard_accepted_iff {Out : Type} (w : Streams.Writer Out)
    (build : Build) (tables : CaseTables)
    (readToString : String → Except String String) (hidden : Bool)
    {streams streams' : Streams.Reader × Out} {a : Answers}
    (answered : (collectAnswers tables w hidden).run streams =
      .ok (a, streams'))
    (free : a.payMode = "off") :
    a.Accepted build tables readToString ↔ a.Survives := by
  have collected := collectAnswers_returns tables w hidden _ _ _ answered
  have loads := loadVars_readBack_iff collected free
  have domain := freeConfig_domain build tables readToString free
  constructor
  · rintro ⟨cfg, started, named, -⟩
    obtain ⟨loaded, valid, rfl⟩ := (start_eq_ok _ _ _ collected free).mp started
    have bare := unquote_eq_self_iff.mp (domain.symm.trans named)
    rw [freeConfig_validate _ _ _ collected free bare] at valid
    obtain ⟨noDomain, noBind, noDir, noUrl⟩ := loads.mp loaded
    exact ⟨bare, valid.1, noDomain, noBind, noDir,
      fun enabled => ⟨noUrl enabled, valid.2 enabled⟩⟩
  · intro survive
    have loaded := loads.mpr ⟨survive.domain, survive.bindAddr,
      survive.dataDir, fun enabled => (survive.grinNodeUrl enabled).1⟩
    have valid := (freeConfig_validate build tables readToString collected free
      survive.bare).mpr ⟨survive.host, fun enabled =>
        (survive.grinNodeUrl enabled).2⟩
    refine ⟨a.freeConfig build tables readToString, ?_, ?_, valid⟩
    · exact (start_eq_ok _ _ _ collected free).mpr ⟨loaded, valid, rfl⟩
    · exact domain.trans (unquote_eq_self_iff.mpr survive.bare)

/-! ## An interrupted dialogue -/

namespace Sample

open Streams

/-- The answers of a dialogue that ends behind the domain. -/
def domainOnly (domain : String) : Answers where
  domain := domain
  bindAddr := "127.0.0.1:8191"
  dataDir := "/var/lib/floonet-authority"
  payMode := "off"
  priceGrin := ""
  goblinpayUrl := ""
  goblinpayToken := ""
  goblinpayWebhookSecret := ""
  tokenFile := ""
  webhookSecretFile := ""
  transfers := false
  grinNodeUrl := ""

theorem prompt_sink {reader rest : Reader} {line : String}
    (read : readLine reader = .ok (line, rest)) (question default : String) :
    (prompt Writer.sink question default).run (reader, ()) =
      .ok (if (trim line).isEmpty then default else trim line, rest, ()) := by
  unfold prompt
  rw [Dialogue.run_bind rfl, Dialogue.run_bind rfl,
    Dialogue.run_bind (Dialogue.run_takeLine read ())]
  rfl

theorem prompt_end (question default : String) :
    (prompt Writer.sink question default).run ([], ()) =
      .ok (default, [], ()) := by
  rw [prompt_sink readLine_nil, if_pos (by decide)]

theorem payMode_end :
    (promptChoice .ascii Writer.sink "Pay mode (off/name/write)" "off"
      ["off", "name", "write"] 5).run ([], ()) = .ok ("off", [], ()) := by
  have lower := toLowercase_plain CaseTables.ascii
    (rfl : "off" = String.ofList _) (by decide)
  unfold promptChoice
  rw [Dialogue.run_bind (prompt_end _ _)]
  dsimp only
  rw [lower]
  rfl

theorem collectTransfers_end :
    (collectTransfers .ascii Writer.sink).run ([], ()) =
      .ok ((false, ""), [], ()) := by
  have chars : "y/N".toList = ['y', '/', 'N'] := toList_eq rfl
  have visible : trim "y/N" = "y/N" := trim_of_chars rfl (by decide)
  have lower : CaseTables.ascii.toLowercase "y/N" = "y/n" := by
    rw [CaseTables.toLowercase, chars]
    rfl
  have refused : (promptYesNo .ascii Writer.sink "Enable name transfers?"
      false).run ([], ()) = .ok (false, [], ()) := by
    unfold promptYesNo
    dsimp only
    rw [Dialogue.run_bind (prompt_end _ _), if_neg Bool.false_ne_true,
      visible, lower]
    rfl
  unfold collectTransfers
  rw [Dialogue.run_bind rfl, Dialogue.run_bind refused]
  rfl

theorem collectAnswers_end {reader : Reader} {domain : String}
    (answered : (prompt Writer.sink
      "Domain for names (the @domain in name@domain)" "floonet.example").run
        (reader, ()) = .ok (domain, [], ())) (hidden : Bool) :
    (collectAnswers .ascii Writer.sink hidden).run (reader, ()) =
      .ok (domainOnly domain, [], ()) := by
  unfold collectAnswers
  rw [Dialogue.run_bind rfl, Dialogue.run_bind rfl, Dialogue.run_bind rfl,
    Dialogue.run_bind answered, Dialogue.run_bind (prompt_end _ _),
    Dialogue.run_bind (prompt_end _ _), Dialogue.run_bind rfl,
    Dialogue.run_bind payMode_end, Dialogue.run_bind rfl,
    Dialogue.run_bind collectTransfers_end]
  rfl

theorem collectAnswers_domain {reader : Reader} {line : String}
    (read : readLine reader = .ok (line, [])) (typed : trim line ≠ "") :
    (collectAnswers .ascii Writer.sink false).run (reader, ()) =
      .ok (domainOnly (trim line), [], ()) := by
  have domain := prompt_sink read
    "Domain for names (the @domain in name@domain)" "floonet.example"
  rw [isEmpty_eq_false.mpr typed] at domain
  exact collectAnswers_end domain false

/-- A domain as it is typed, after which the input ends. -/
def typed (domain : String) : Reader :=
  [.ok (domain.toList.flatMap String.utf8EncodeChar ++ [10])]

theorem trim_line {line : String} (answered : Answer line) :
    trim (line ++ "\n") = line := by
  have newline : "\n".toList = ['\n'] := toList_eq rfl
  have feed : isWhitespace '\n' = true := rfl
  have first := answered.trimmed.first
  have last := answered.trimmed.last
  have nonempty : line.toList ≠ [] := by
    rw [Ne, String.toList_eq_nil_iff]
    exact answered.nonempty
  have front : ((line ++ "\n").toList).dropWhile isWhitespace =
      line.toList ++ ['\n'] := by
    rw [String.toList_append, newline]
    apply dropWhile_of_head?
    rwa [List.head?_append_of_ne_nil _ nonempty]
  have back : (line.toList ++ ['\n']).reverse.dropWhile isWhitespace =
      line.toList.reverse := by
    rw [List.reverse_append, List.reverse_singleton, List.singleton_append,
      List.dropWhile_cons, if_pos feed]
    apply dropWhile_of_head?
    rwa [List.head?_reverse]
  rw [trim, front, back, List.reverse_reverse, String.ofList_toList]

theorem collectAnswers_typed {domain : String} (answered : Answer domain)
    (one : 10 ∉ domain.toList.flatMap String.utf8EncodeChar) :
    (collectAnswers .ascii Writer.sink false).run (typed domain, ()) =
      .ok (domainOnly domain, [], ()) := by
  have newline : "\n".toList = ['\n'] := toList_eq rfl
  have encoded : (domain ++ "\n").toList.flatMap String.utf8EncodeChar =
      domain.toList.flatMap String.utf8EncodeChar ++ [10] := by
    rw [String.toList_append, newline, List.flatMap_append,
      List.flatMap_singleton]
    rfl
  have collects := collectAnswers_domain (readLine_typed encoded one [])
  rw [trim_line answered] at collects
  exact collects answered.nonempty

theorem plain_typed : Answer "names.example" ∧
    10 ∉ "names.example".toList.flatMap String.utf8EncodeChar := by
  refine ⟨.of_chars rfl (by decide), ?_⟩
  rw [toList_eq (rfl : "names.example" = String.ofList _)]
  decide

theorem port_typed : Answer "floonet.example:8443" ∧
    10 ∉ "floonet.example:8443".toList.flatMap String.utf8EncodeChar := by
  refine ⟨.of_chars rfl (by decide), ?_⟩
  rw [toList_eq (rfl : "floonet.example:8443" = String.ofList _)]
  decide

/-- No file is readable. -/
def noFiles (_ : String) : Except String String :=
  .error "No such file or directory (os error 2)"

theorem wizard_accepted_iff_plain :
    (domainOnly "names.example").Accepted .release .ascii noFiles ↔
      (domainOnly "names.example").Survives :=
  wizard_accepted_iff Writer.sink .release .ascii noFiles false
    (collectAnswers_typed plain_typed.1 plain_typed.2) rfl

/-- A domain with a port is collected, but no start-up accepts it. -/
theorem port_refused :
    (collectAnswers .ascii Writer.sink false).run
        (typed "floonet.example:8443", ()) =
      .ok (domainOnly "floonet.example:8443", [], ()) ∧
    (domainOnly "floonet.example:8443").start .release .ascii noFiles =
      some (.error (
        "FLOONET_BASE_URL host `floonet.example` does not match " ++
          "FLOONET_DOMAIN `floonet.example:8443`")) ∧
    ¬(domainOnly "floonet.example:8443").Accepted .release .ascii noFiles := by
  have ran := collectAnswers_typed port_typed.1 port_typed.2
  have collected := collectAnswers_returns _ _ _ _ _ _ ran
  have bare : isQuoted "floonet.example:8443" = false := by
    rw [← unquote_eq_self_iff]
    exact unquote_of_head? (c := 'f') rfl (by decide)
  have host : String.ofList (Config.firstSegment ':' (Config.firstSegment '/'
      "floonet.example:8443".toList)) = "floonet.example" := by
    rw [toList_eq (rfl : "floonet.example:8443" = String.ofList _)]
    rfl
  have loads := (loadVars_readBack_iff collected rfl).mpr
    ⟨noNul_of_chars rfl (by decide), noNul_of_chars rfl (by decide),
      noNul_of_chars rfl (by decide), by decide⟩
  have refused := start_refused .release .ascii noFiles collected rfl bare
    loads host (by decide)
  refine ⟨ran, refused, ?_⟩
  rintro ⟨cfg, accepted, -⟩
  rw [refused] at accepted
  cases accepted

end Sample

end Floonet
