import Floonet.Plugin.Npub
import Floonet.Validation

/-!
# Configuration of the write policy

The settings come from the process environment and, where it does not have
them, from a file of `KEY=VALUE` lines.
-/

namespace Floonet.Plugin

open Python Validation

/-- The kinds that are accepted unless others are configured. -/
def defaultAllowedKinds : Str := str
  ("0,1,3,5,7,13,14,16,17,1059,1111,10000,10002,10050,24133,24140,27235," ++
    "30000,30003,30023,30078,30402,30405,30406,31990")

inductive PayMode where
  | off
  | name
  | write
deriving DecidableEq

/-- The configuration; `Secs` is the type of seconds. -/
structure Cfg (Secs : Type) where
  allowedKinds : List Int
  authorizedAuthors : List Str
  requireAuth : Bool
  payMode : PayMode
  authorityUrl : Str
  paidCacheSecs : Secs
deriving DecidableEq

/-- How the configuration fails to load. -/
inductive LoadError where
  /-- The file is not UTF-8. -/
  | unicodeDecode
  /-- "FLOONET_ALLOWED_KINDS must be a comma-separated list of integers, got
  `raw`" -/
  | allowedKinds (raw : Str)
  /-- "FLOONET_ALLOWED_KINDS is empty" -/
  | noKinds
  /-- "FLOONET_PAY_MODE must be off, name or write, got `mode`" -/
  | payMode (mode : Str)
  /-- FLOONET_PAID_CACHE_SECS is no number. -/
  | paidCacheSecs (raw : Str)

/-- What opening and reading a file gives. -/
inductive FileRead where
  | osError
  | undecodable
  | text (content : Str)

/-- The lines of a text, as the iteration over a file gives them. -/
def readlines (content : Str) : List Str :=
  split '\n' (universalNewlines content)

/-- The key and the value of a line, unless it is skipped. -/
def readLine (line : Str) : Option (Str × Str) :=
  let line := strip line
  if line.isEmpty ∨ line.head? = some (ascii '#') ∨ ascii '=' ∉ line then none
  else some (strip (partition '=' line).1, strip (partition '=' line).2)

/-- A later line overrides an earlier one. -/
def setLine (values : Dict Str) (line : Str) : Dict Str :=
  match readLine line with
  | none => values
  | some (key, val) => values.set key val

/-- A file that cannot be opened has no settings. -/
def readEnvFile : FileRead → Except LoadError (Dict Str)
  | .osError => .ok .empty
  | .undecodable => .error .unicodeDecode
  | .text content => .ok ((readlines content).foldl setLine .empty)

variable {Secs : Type} (tables : Unicode) (float : Str → Option Secs)
  (openFile : Str → FileRead) (defaultEnvFile : Str)

/-- The integers of a comma-separated list. -/
def parseKinds (raw : Str) : Except LoadError (List Int) := do
  let entries := (split ',' raw).filter fun entry => !(strip entry).isEmpty
  let kinds ← demand (entries.mapM (tables.int 10)) (.allowedKinds raw)
  require (!kinds.isEmpty) .noKinds
  return kinds

def parsePayMode (raw : Str) : Except LoadError PayMode :=
  let mode := tables.toLower (strip raw)
  if mode = str "off" then .ok .off
  else if mode = str "name" then .ok .name
  else if mode = str "write" then .ok .write
  else .error (.payMode mode)

/-- Invalid authors are skipped. -/
def parseAuthors (raw : Str) : List Str :=
  (split ',' raw).filterMap fun entry =>
    if (strip entry).isEmpty then none
    else normalizePubkey tables (strip entry)

def switchedOn (raw : Str) : Bool :=
  [str "1", str "true", str "yes", str "on"].contains
    (tables.toLower (strip raw))

/-- The environment overrides the file, which overrides the defaults. -/
def loadConfig (env : Dict Str) : Except LoadError (Cfg Secs) := do
  let envFile := (env (str "FLOONET_ENV_FILE")).getD defaultEnvFile
  let merged ← readEnvFile (openFile envFile)
  let env := merged.update env
  let kindsRaw := (env (str "FLOONET_ALLOWED_KINDS")).getD defaultAllowedKinds
  let allowedKinds ← parseKinds tables kindsRaw
  let payMode ← parsePayMode tables
    ((env (str "FLOONET_PAY_MODE")).getD (str "off"))
  let authorizedAuthors := parseAuthors tables
    ((env (str "FLOONET_AUTHORIZED_AUTHORS")).getD [])
  let requireAuth := switchedOn tables
    ((env (str "FLOONET_REQUIRE_AUTH")).getD (str "false"))
  let authorityUrl := rstripWhere (· == ascii '/')
    ((env (str "FLOONET_AUTHORITY_URL")).getD (str "http://authority:8191"))
  let secsRaw := (env (str "FLOONET_PAID_CACHE_SECS")).getD (str "60")
  let paidCacheSecs ← demand (float secsRaw) (.paidCacheSecs secsRaw)
  return { allowedKinds, authorizedAuthors, requireAuth, payMode,
           authorityUrl, paidCacheSecs }

end Floonet.Plugin
