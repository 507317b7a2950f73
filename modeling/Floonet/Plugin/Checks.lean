import Floonet.Plugin.LoadConfig
import Floonet.Python.Objects
import Mathlib.Order.Lattice

/-!
# The checks of the write policy

Each check passes or gives a message, or raises.  The checks run in order and
the first message rejects the event, as does an exception.  Only the paid gate
has state: the verdicts it has cached, and the lookups that were made, which
the statements about it speak of.
-/

namespace Floonet.Plugin

open Python

/-! ## Effects -/

/-- One question to the name authority. -/
structure Lookup (Secs : Type) where
  pubkey : Str
  start : Secs
  verdict : Except Exn Bool

/-- The cache of the policy, and a record of its lookups. -/
structure PluginState (Secs : Type) where
  paidCache : Dict (Bool × Secs)
  lookups : List (Lookup Secs)

/-- The state when the process starts. -/
def PluginState.initial {Secs : Type} : PluginState Secs := ⟨.empty, []⟩

/-- What the outside gives to one call of `decide`: the monotonic clock, and
what the authority answers, parsed, or the exception on the way. -/
structure Outside (Secs : Type) where
  now : Secs
  urlopen : Str → Except Exn Value

variable {Secs : Type}

/-- A check passes with `none`, rejects with a message, or raises. -/
abbrev Check (Secs : Type) :=
  Value → Cfg Secs → Outside Secs → PluginState Secs →
    Except Exn (Option Str) × PluginState Secs

/-- A check that reads the request and the configuration only. -/
def pureCheck
    (check : Value → Cfg Secs → Except Exn (Option Str)) : Check Secs :=
  fun req cfg _ state => (check req cfg, state)

/-! ## Kinds and authors -/

/-- `req.get("event", {})`. -/
def getEvent (req : Value) : Except Exn Value :=
  req.getD (str "event") (.dict [])

/-- Only the kinds of the configuration are accepted. -/
def checkKind (req : Value) (cfg : Cfg Secs) : Except Exn (Option Str) := do
  let kind ← (← getEvent req).get (str "kind")
  match kind with
  | .int kind =>
      if kind ∉ cfg.allowedKinds then
        return some (str "blocked: event kind not accepted by this relay")
      return none
  | _ => return some (str "blocked: malformed event kind")

/-- Public notes and articles. -/
def lockedKinds : List Int := [1, 30023]

/-- Notes and articles are accepted from the configured authors only. -/
def checkAuthorizedAuthors (tables : Unicode) (req : Value)
    (cfg : Cfg Secs) : Except Exn (Option Str) := do
  let kind ← (← getEvent req).get (str "kind")
  if !(← kind.inInts lockedKinds) then return none
  let refusal := str
    "blocked: this relay accepts public notes only from authorized authors"
  match ← (← getEvent req).get (str "pubkey") with
  | .str pubkey =>
      if tables.toLower pubkey ∉ cfg.authorizedAuthors then return some refusal
      return none
  | _ => return some refusal

/-- The key that the connection has authenticated, if it is well formed. -/
def authedKey (req : Value) : Except Exn (Option Str) := do
  match ← req.get (str "authed") with
  | .str authed => return if authed.length = 64 then some authed else none
  | _ => return none

/-- With `require_auth`, the connection has to authenticate a key. -/
def checkAuth (req : Value) (cfg : Cfg Secs) : Except Exn (Option Str) := do
  if !cfg.requireAuth then return none
  match ← authedKey req with
  | some _ => return none
  | none => return some (str "auth-required: publish after NIP-42 AUTH")

/-! ## Gift wraps -/

/-- `tag[0] == head` for a tag that is a list and has a head. -/
def headed (head : Str) : Value → Bool
  | .list (first :: _) => first.eqStr head
  | _ => false

/-- The second element of a tag with this head. -/
def headedSecond (head : Str) : Value → Option Value
  | .list (first :: second :: _) =>
      if first.eqStr head then some second else none
  | _ => none

/-- A check of the tags of a gift wrap; other kinds pass. -/
def onGiftwrap (check : List Value → Option Str) (req : Value) :
    Except Exn (Option Str) := do
  let event ← getEvent req
  if !(← event.get (str "kind")).eqInt 1059 then return none
  match ← event.get (str "tags") with
  | .list tags => return check tags
  | _ => return some (str "blocked: malformed event tags")

/-- Gift wraps must not expire. -/
def checkGiftwrapExpiration (req : Value) (_ : Cfg Secs) :
    Except Exn (Option Str) :=
  onGiftwrap (fun tags =>
    if tags.any (headed (str "expiration")) then
      some (str "blocked: expiration not allowed on gift wraps")
    else none) req

def isHexLower (c : CodePoint) : Bool :=
  (48 ≤ c.val && c.val ≤ 57) || (97 ≤ c.val && c.val ≤ 102)

def hex64LowerRe : List RegexItem := [.start, .chars isHexLower 64, .dollar]

/-- A gift wrap has one recipient, a key. -/
def checkGiftwrapRecipient (req : Value) (_ : Cfg Secs) :
    Except Exn (Option Str) :=
  onGiftwrap (fun tags =>
    let refusal := str "blocked: gift wrap missing recipient"
    match tags.filterMap (headedSecond (str "p")) with
    | [.str pubkey] => if reMatch hex64LowerRe pubkey then none else some refusal
    | _ => some refusal) req

/-- A gift wrap has no other tags. -/
def checkGiftwrapTags (req : Value) (_ : Cfg Secs) :
    Except Exn (Option Str) :=
  onGiftwrap (fun tags =>
    if tags.all (headed (str "p")) then none
    else some (str "blocked: gift wrap has extraneous tags")) req

/-! ## The paid gate -/

variable [LinearOrder Secs] [Add Secs] [OfNat Secs 10]

/-- The verdict of the name authority. -/
def paidLookup (cfg : Cfg Secs) (outside : Outside Secs) (pubkey : Str) :
    Except Exn Bool := do
  let body ← outside.urlopen
    (cfg.authorityUrl ++ str "/api/v1/paid/" ++ pubkey)
  return (← body.get (str "paid")).truthy

/-- Make a lookup at `t` and cache its verdict, a failure but briefly. -/
def lookUp (cfg : Cfg Secs) (outside : Outside Secs) (authed : Str) (t : Secs)
    (state : PluginState Secs) : Option Bool × PluginState Secs :=
  let verdict := paidLookup cfg outside authed
  let lookups := state.lookups ++ [⟨authed, t, verdict⟩]
  match verdict with
  | .ok paid =>
      (some paid, ⟨state.paidCache.set authed (paid, t + cfg.paidCacheSecs),
        lookups⟩)
  | .error _ =>
      (none, ⟨state.paidCache.set authed
        (false, t + min cfg.paidCacheSecs 10), lookups⟩)

/-- What a verdict means for the event. -/
def payAnswer : Option Bool → Option Str
  | none => some (str "blocked: payment status unavailable")
  | some false => some (str "blocked: payment required to publish on this relay")
  | some true => none

/-- The paid gate for an authenticated key. -/
def checkPaidKey (authed : Str) (cfg : Cfg Secs) (outside : Outside Secs)
    (state : PluginState Secs) : Option Str × PluginState Secs :=
  let t := outside.now
  match state.paidCache authed with
  | some (paid, expires) =>
      if t < expires then (payAnswer (some paid), state)
      else
        let (verdict, state) := lookUp cfg outside authed t state
        (payAnswer verdict, state)
  | none =>
      let (verdict, state) := lookUp cfg outside authed t state
      (payAnswer verdict, state)

/-- In pay-to-write mode, the authenticated key has to have paid. -/
def checkPaid : Check Secs := fun req cfg outside state =>
  if cfg.payMode ≠ .write then (.ok none, state)
  else
    match authedKey req with
    | .error exn => (.error exn, state)
    | .ok none =>
        (.ok (some (str "auth-required: paid publishing needs NIP-42 AUTH")),
          state)
    | .ok (some authed) =>
        let (msg, state) := checkPaidKey authed cfg outside state
        (.ok msg, state)

/-! ## Decisions -/

inductive Action where
  | accept
  | reject
deriving DecidableEq

/-- The answer to one event. -/
structure Reply where
  id : Str
  action : Action
  msg : Str
deriving DecidableEq

omit [LinearOrder Secs] [Add Secs] [OfNat Secs 10] in
/-- The checks that come before the paid gate. -/
def earlierChecks (tables : Unicode) :
    List (Value → Cfg Secs → Except Exn (Option Str)) :=
  [checkKind, checkGiftwrapExpiration, checkGiftwrapRecipient,
    checkGiftwrapTags, checkAuthorizedAuthors tables, checkAuth]

/-- All checks, in the order of the source. -/
def checks (tables : Unicode) : List (Check Secs) :=
  (earlierChecks tables).map pureCheck ++ [checkPaid]

omit [LinearOrder Secs] [Add Secs] [OfNat Secs 10] in
/-- The checks in order, until one gives a message or raises. -/
def runChecks (eventId : Str) (req : Value) (cfg : Cfg Secs)
    (outside : Outside Secs) (state : PluginState Secs) :
    List (Check Secs) → Reply × PluginState Secs
  | [] => (⟨eventId, .accept, []⟩, state)
  | check :: rest =>
      match check req cfg outside state with
      | (.error _, state) => (⟨eventId, .reject, str "policy error"⟩, state)
      | (.ok (some msg), state) => (⟨eventId, .reject, msg⟩, state)
      | (.ok none, state) => runChecks eventId req cfg outside state rest

/-- The id for the reply, if it is a text. -/
def eventIdOf (fields : List (Str × Value)) : Str :=
  match fields.lookup (str "id") with
  | some (.str id) => id
  | _ => []

/-- The decision about one request. -/
def decide (tables : Unicode) (req : Value) (cfg : Cfg Secs)
    (outside : Outside Secs) (state : PluginState Secs) :
    Except Exn Reply × PluginState Secs :=
  match req.get (str "event") with
  | .error exn => (.error exn, state)
  | .ok (.dict fields) =>
      let (reply, state) := runChecks (eventIdOf fields) req cfg outside state
        (checks tables)
      (.ok reply, state)
  | .ok _ => (.ok ⟨[], .reject, str "bad event structure"⟩, state)

end Floonet.Plugin
