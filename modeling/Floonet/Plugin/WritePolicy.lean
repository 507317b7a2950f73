import Floonet.Plugin.Decisions
import Floonet.Plugin.Settings

/-!
# From the settings to the decision

Outside the paid mode, an event that is no gift wrap is accepted when its kind
is listed, its author is named if the kind is locked, and its connection is
authenticated if that is required.  The one exception is an author whose
upper-case npub has a sign for kelvin where the letter K belongs.
-/

namespace Floonet.Plugin

open Python Validation

variable {Secs : Type} [LinearOrder Secs] [Add Secs] [OfNat Secs 10]
  {tables : Unicode} {float : Str → Option Secs} {openFile : Str → FileRead}
  {defaultEnvFile : Str} {env : Dict Str} {req : Value} {cfg : Cfg Secs}
  {outside : Outside Secs} {state : PluginState Secs}
  {fields : List (Str × Value)} {key : Str}

/-! ## The effective settings -/

/-- The values of the settings that decide about an event. -/
structure Settings where
  allowedKinds : Str
  authorizedAuthors : Str
  requireAuth : Str

/-- The effective settings of an environment and a file. -/
def Settings.of (env : Dict Str) (file : FileRead) : Settings where
  allowedKinds :=
    (effective env file "FLOONET_ALLOWED_KINDS").getD defaultAllowedKinds
  authorizedAuthors :=
    (effective env file "FLOONET_AUTHORIZED_AUTHORS").getD []
  requireAuth :=
    (effective env file "FLOONET_REQUIRE_AUTH").getD (str "false")

/-- The file of settings that the environment names. -/
def envFile (openFile : Str → FileRead) (defaultEnvFile : Str)
    (env : Dict Str) : FileRead :=
  openFile ((env (str "FLOONET_ENV_FILE")).getD defaultEnvFile)

/-- What a loaded configuration has from the settings. -/
structure Cfg.From (tables : Unicode) (cfg : Cfg Secs) (settings : Settings) :
    Prop where
  allowedKinds : ∀ kind,
    kind ∈ cfg.allowedKinds ↔ Listed tables settings.allowedKinds kind
  authorizedAuthors : ∀ key, IsHexKey key → (key ∈ cfg.authorizedAuthors ↔
    NamesAuthorByKelvin settings.authorizedAuthors key)
  requireAuth : cfg.requireAuth = switchedOn tables settings.requireAuth

theorem update_effective {values : Dict Str}
    (read : readEnvFile (envFile openFile defaultEnvFile env) = .ok values)
    (key : String) : values.update env (str key) =
      effective env (envFile openFile defaultEnvFile env) key := by
  rw [Dict.update, readEnvFile_lookup read]
  rfl

omit [LinearOrder Secs] [Add Secs] [OfNat Secs 10] in
theorem loadConfig_authors
    (loaded : loadConfig tables float openFile defaultEnvFile env = .ok cfg) :
    cfg.authorizedAuthors = parseAuthors tables
      (Settings.of env
        (envFile openFile defaultEnvFile env)).authorizedAuthors := by
  simp only [loadConfig, bind_eq_ok, demand_eq_ok] at loaded
  obtain ⟨values, read, kinds, parsed, mode, -, secs, -, same⟩ := loaded
  cases pure_eq_ok.mp same
  dsimp only
  rw [update_effective read]
  rfl

omit [LinearOrder Secs] [Add Secs] [OfNat Secs 10] in
theorem loadConfig_from
    (loaded : loadConfig tables float openFile defaultEnvFile env = .ok cfg) :
    cfg.From tables (.of env (envFile openFile defaultEnvFile env)) := by
  have authors := loadConfig_authors loaded
  simp only [loadConfig, bind_eq_ok, demand_eq_ok] at loaded
  obtain ⟨values, read, kinds, parsed, mode, -, secs, -, same⟩ := loaded
  cases pure_eq_ok.mp same
  rw [update_effective read] at parsed
  constructor
  · exact fun kind => parseKinds_mem parsed
  · intro key isKey
    rw [authors]
    exact parseAuthors_mem isKey
  · dsimp only
    rw [update_effective read]
    rfl

/-! ## Acceptance -/

/-- The event may be published, if `author` says whether its author is
named. -/
structure Passes (tables : Unicode) (settings : Settings) (author : Prop)
    (req : Value) (fields : List (Str × Value)) : Prop where
  kind : ∃ kind, field fields "kind" = .int kind ∧
    Listed tables settings.allowedKinds kind ∧ (kind ∈ lockedKinds → author)
  authenticated : switchedOn tables settings.requireAuth = true →
    ∃ authed, Authed req authed

/-- The event may be published by its author. -/
def Permitted (tables : Unicode) (settings : Settings) (req : Value)
    (fields : List (Str × Value)) (key : Str) : Prop :=
  Passes tables settings (NamesAuthor settings.authorizedAuthors key) req fields

/-- The kind is locked and the author is named by a sign for kelvin only,
while nothing else is in the way. -/
structure OnlyByKelvin (tables : Unicode) (settings : Settings) (req : Value)
    (fields : List (Str × Value)) (key : Str) : Prop where
  kind : ∃ kind ∈ lockedKinds, field fields "kind" = .int kind ∧
    Listed tables settings.allowedKinds kind
  authenticated : switchedOn tables settings.requireAuth = true →
    ∃ authed, Authed req authed
  unnamed : ¬ NamesAuthor settings.authorizedAuthors key
  byKelvin : NamesAuthorByKelvin settings.authorizedAuthors key

theorem NamesAuthor.byKelvin {raw : Str} (named : NamesAuthor raw key) :
    NamesAuthorByKelvin raw key := by
  obtain ⟨entry, member, denotes⟩ := named
  refine ⟨entry, member, ?_⟩
  rwa [denotes.isAscii.map_readKelvin]

/-- What the checks come to under a loaded configuration. -/
theorem accepts_iff_passes {settings : Settings}
    (loaded : cfg.From tables settings) (free : cfg.payMode ≠ .write)
    (event : HasEvent req fields) (author : field fields "pubkey" = .str key)
    (isKey : IsHexKey key) (noWrap : field fields "kind" ≠ .int 1059) :
    Accepts tables req cfg outside state ↔ Passes tables settings
      (NamesAuthorByKelvin settings.authorizedAuthors key) req fields := by
  have lower : tables.toLower key = key := tables.toLower_plain isKey.plain
  have named : (∃ pubkey, field fields "pubkey" = .str pubkey ∧
      tables.toLower pubkey ∈ cfg.authorizedAuthors) ↔
        NamesAuthorByKelvin settings.authorizedAuthors key := by
    rw [← loaded.authorizedAuthors key isKey]
    simp [author, lower]
  have unpaid : (checkPaid req cfg outside state).1 = .ok none := by
    rw [checkPaid, if_pos free]
  constructor
  · intro accepts
    obtain ⟨fields', event', kindPasses, -, -, -, authors, auth, -⟩ :=
      accepts_iff.mp accepts
    obtain ⟨kind, allowed, isKind⟩ := (checkKind_passes event).mp kindPasses
    constructor
    · refine ⟨kind, isKind, (loaded.allowedKinds kind).mp allowed,
        fun locked => ?_⟩
      exact named.mp
        ((checkAuthorizedAuthors_passes event isKind).mp authors locked)
    · rw [← loaded.requireAuth]
      exact (checkAuth_passes event).mp auth
  · rintro ⟨⟨kind, isKind, listed, byAuthor⟩, authenticated⟩
    have noWrap : kind ≠ 1059 := by
      rintro rfl
      exact noWrap isKind
    have passes : ∀ check : List Value → Option Str,
        onGiftwrap check req = .ok none := fun check =>
      (onGiftwrap_passes event isKind check).mpr fun wrap => absurd wrap noWrap
    refine accepts_iff.mpr ⟨fields, event, ?_, passes _, passes _, passes _, ?_,
      ?_, unpaid⟩
    · exact (checkKind_passes event).mpr
        ⟨kind, (loaded.allowedKinds kind).mpr listed, isKind⟩
    · exact (checkAuthorizedAuthors_passes event isKind).mpr fun locked =>
        named.mpr (byAuthor locked)
    · rw [← loaded.requireAuth] at authenticated
      exact (checkAuth_passes event).mpr authenticated

/-- The settings decide as documented, except about an author who is named by
a sign for kelvin only. -/
theorem accepts_permitted_iff
    (loaded : loadConfig tables float openFile defaultEnvFile env = .ok cfg)
    (free : cfg.payMode ≠ .write) (event : HasEvent req fields)
    (author : field fields "pubkey" = .str key) (isKey : IsHexKey key)
    (noWrap : field fields "kind" ≠ .int 1059) :
    let settings := Settings.of env (envFile openFile defaultEnvFile env)
    (Accepts tables req cfg outside state ↔
        Permitted tables settings req fields key) ↔
      ¬ OnlyByKelvin tables settings req fields key := by
  intro settings
  rw [accepts_iff_passes (loadConfig_from loaded) free event author isKey
    noWrap]
  constructor
  · rintro same ⟨⟨kind, locked, isKind, listed⟩, authenticated, unnamed,
      byKelvin⟩
    obtain ⟨⟨kind', isKind', -, byAuthor⟩, -⟩ :=
      same.mp ⟨⟨kind, isKind, listed, fun _ => byKelvin⟩, authenticated⟩
    cases isKind.symm.trans isKind'
    exact unnamed (byAuthor locked)
  · intro usual
    constructor
    · rintro ⟨⟨kind, isKind, listed, byKelvin⟩, authenticated⟩
      refine ⟨⟨kind, isKind, listed, fun locked => ?_⟩, authenticated⟩
      by_contra unnamed
      exact usual ⟨⟨kind, locked, isKind, listed⟩, authenticated, unnamed,
        byKelvin locked⟩
    · rintro ⟨⟨kind, isKind, listed, byAuthor⟩, authenticated⟩
      exact ⟨⟨kind, isKind, listed, fun locked => (byAuthor locked).byKelvin⟩,
        authenticated⟩

section Samples

def authorKey : Str := (List.replicate 32 (str "03")).flatten

/-- The npub of the key. -/
def authorNpub : Str :=
  str "npub1qvpsxqcrqvpsxqcrqvpsxqcrqvpsxqcrqvpsxqcrqvpsxqcrqvps0km4w3"

/-- The same in upper case, with a sign for kelvin in place of the K. -/
def kelvinNpub : Str :=
  str "NPUB1QVPSXQCRQVPSXQCRQVPSXQCRQVPSXQCRQVPSXQCRQVPSXQCRQVPS0" ++
    kelvin :: str "M4W3"

/-- Only the authors are set. -/
def authorsEnv (entry : Str) : Dict Str :=
  Dict.empty.set (str "FLOONET_AUTHORIZED_AUTHORS") entry

def authorCfg : Cfg Nat := { defaultCfg with authorizedAuthors := [authorKey] }

def noteFields : List (Str × Value) :=
  [(str "kind", .int 1), (str "pubkey", .str authorKey)]

def noteReq : Value := .dict [(str "event", .dict noteFields)]

theorem authorKey_isHexKey : IsHexKey authorKey :=
  ⟨by decide +kernel, by decide +kernel⟩

theorem noteFields_noWrap : field noteFields "kind" ≠ .int 1059 := by
  intro wrap
  cases wrap

/-- There is no file of settings. -/
def noFile (_ : Str) : FileRead := .osError

/-- What the policy loads for these authors. -/
def loadAuthors (entry : Str) : Except LoadError (Cfg Nat) :=
  loadConfig Unicode.basic (fun _ => some 60) noFile [] (authorsEnv entry)

theorem authorNpub_loads : loadAuthors authorNpub = .ok authorCfg :=
  toOption_eq_some.mp (by decide +kernel)

theorem kelvinNpub_loads : loadAuthors kelvinNpub = .ok authorCfg :=
  toOption_eq_some.mp (by decide +kernel)

/-- The settings for these authors. -/
def authorSettings (entry : Str) : Settings :=
  .of (authorsEnv entry) (envFile noFile [] (authorsEnv entry))

theorem accepts_permitted_iff_npub :
    (Accepts Unicode.basic noteReq authorCfg (unreachable 0) .initial ↔
        Permitted Unicode.basic (authorSettings authorNpub) noteReq noteFields
          authorKey) ↔
      ¬ OnlyByKelvin Unicode.basic (authorSettings authorNpub) noteReq
        noteFields authorKey :=
  accepts_permitted_iff authorNpub_loads (by decide) rfl rfl
    authorKey_isHexKey noteFields_noWrap

/-- A text with a sign for kelvin names an author. -/
theorem kelvin_author_accepted :
    loadAuthors kelvinNpub = .ok authorCfg ∧ authorCfg.payMode ≠ .write ∧
      HasEvent noteReq noteFields ∧
      field noteFields "pubkey" = .str authorKey ∧ IsHexKey authorKey ∧
      field noteFields "kind" ≠ .int 1059 ∧
      Accepts Unicode.basic noteReq authorCfg (unreachable 0) .initial ∧
      ¬ Permitted Unicode.basic (authorSettings kelvinNpub) noteReq noteFields
        authorKey := by
  refine ⟨kelvinNpub_loads, by decide, rfl, rfl, authorKey_isHexKey,
    noteFields_noWrap, accepts_iff_accepted.mpr (by decide +kernel), ?_⟩
  rintro ⟨⟨kind, isKind, -, byAuthor⟩, -⟩
  cases isKind
  obtain ⟨entry, member, denotes⟩ := byAuthor (by decide)
  have only : split ',' kelvinNpub = [kelvinNpub] := by decide +kernel
  have isSetting : (authorSettings kelvinNpub).authorizedAuthors = kelvinNpub :=
    rfl
  rw [isSetting, only, List.mem_singleton] at member
  have sign : kelvin ∈ strip entry := by
    rw [member]
    decide +kernel
  exact absurd (denotes.isAscii kelvin sign) (by decide)

end Samples

end Floonet.Plugin
