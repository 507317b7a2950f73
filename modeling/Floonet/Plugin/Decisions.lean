import Floonet.Plugin.Checks
import Mathlib.Algebra.Order.Group.Nat

/-!
# Acceptance

An event is accepted when every check passes.  For each check, what it takes
to pass is stated on the fields of the event.
-/

namespace Floonet.Plugin

open Python Validation

variable {Secs : Type} {tables : Unicode} {req : Value} {cfg : Cfg Secs}
  {outside : Outside Secs} {state : PluginState Secs}
  {fields : List (Str × Value)}

/-! ## Requests -/

/-- The request is a dictionary with an event of these fields. -/
def HasEvent (req : Value) (fields : List (Str × Value)) : Prop :=
  req.get (str "event") = .ok (.dict fields)

/-- A field of the event, `None` if it is missing. -/
def field (fields : List (Str × Value)) (key : String) : Value :=
  (fields.lookup (str key)).getD .null

/-- The connection has authenticated this key. -/
def Authed (req : Value) (authed : Str) : Prop :=
  req.get (str "authed") = .ok (.str authed) ∧ authed.length = 64

theorem get_dict (key : String) :
    (Value.dict fields).get (str key) = .ok (field fields key) := rfl

theorem HasEvent.getEvent (event : HasEvent req fields) :
    getEvent req = .ok (.dict fields) := by
  cases req with
  | dict items =>
      simp only [HasEvent, Value.get, Value.getD, Except.ok.injEq] at event
      simp only [Plugin.getEvent, Value.getD, Except.ok.injEq]
      cases found : items.lookup (str "event") with
      | none => simp [found] at event
      | some value => simpa [found] using event
  | _ => cases event

theorem HasEvent.get_authed (event : HasEvent req fields) :
    ∃ value, req.get (str "authed") = .ok value := by
  cases req with
  | dict items => exact ⟨_, rfl⟩
  | _ => cases event

theorem authedKey_eq_some {authed : Str} :
    authedKey req = .ok (some authed) ↔ Authed req authed := by
  unfold authedKey Authed
  cases req.get (str "authed") with
  | error exn => simp [bind, Except.bind]
  | ok value =>
      cases value with
      | str key =>
          by_cases length : key.length = 64
          · simp only [bind, Except.bind, length, if_true, pure_eq_ok,
              Option.some.injEq, Except.ok.injEq, Value.str.injEq]
            exact ⟨fun same => ⟨same, same ▸ length⟩, And.left⟩
          · simp only [bind, Except.bind, length, if_false, pure_eq_ok,
              Except.ok.injEq, Value.str.injEq, reduceCtorEq, false_iff, not_and]
            rintro rfl
            exact length
      | _ => simp [bind, Except.bind]

/-! ## Decisions -/

/-- The event is accepted. -/
def Accepts (tables : Unicode) (req : Value) (cfg : Cfg Secs)
    (outside : Outside Secs) (state : PluginState Secs)
    [LinearOrder Secs] [Add Secs] [OfNat Secs 10] : Prop :=
  ∃ reply, (decide tables req cfg outside state).1 = .ok reply ∧
    reply.action = .accept

def accepted (outcome : Except Exn Reply) : Bool :=
  outcome.toOption.any fun reply => reply.action == .accept

theorem accepts_iff_accepted [LinearOrder Secs] [Add Secs] [OfNat Secs 10] :
    Accepts tables req cfg outside state ↔
      accepted (decide tables req cfg outside state).1 = true := by
  unfold Accepts accepted
  cases (decide tables req cfg outside state).1 with
  | error exn => simp [Except.toOption]
  | ok reply => simp [Except.toOption]

theorem runChecks_accepts_pure {eventId : Str}
    {check : Value → Cfg Secs → Except Exn (Option Str)}
    {rest : List (Check Secs)} :
    (runChecks eventId req cfg outside state (pureCheck check :: rest)).1.action
        = .accept ↔
      check req cfg = .ok none ∧
        (runChecks eventId req cfg outside state rest).1.action = .accept := by
  rw [runChecks, pureCheck]
  cases check req cfg with
  | error exn => simp
  | ok msg => cases msg <;> simp

theorem accepts_iff [LinearOrder Secs] [Add Secs] [OfNat Secs 10] :
    Accepts tables req cfg outside state ↔ ∃ fields, HasEvent req fields ∧
      checkKind req cfg = .ok none ∧
      checkGiftwrapExpiration req cfg = .ok none ∧
      checkGiftwrapRecipient req cfg = .ok none ∧
      checkGiftwrapTags req cfg = .ok none ∧
      checkAuthorizedAuthors tables req cfg = .ok none ∧
      checkAuth req cfg = .ok none ∧
      (checkPaid req cfg outside state).1 = .ok none := by
  unfold Accepts Plugin.decide HasEvent
  cases req.get (str "event") with
  | error exn => simp
  | ok value =>
      cases value with
      | dict fields =>
          have paid : ∀ eventId, (runChecks eventId req cfg outside state
              [checkPaid]).1.action = .accept ↔
                (checkPaid req cfg outside state).1 = .ok none := by
            intro eventId
            rw [runChecks]
            rcases checkPaid req cfg outside state with ⟨outcome, after⟩
            cases outcome with
            | error exn => simp
            | ok msg => cases msg <;> simp [runChecks]
          simp [checks, earlierChecks, runChecks_accepts_pure, paid]
      | _ => simp

/-! ## What it takes to pass -/

section Passing

variable (event : HasEvent req fields)
include event

theorem checkKind_passes :
    checkKind req cfg = .ok none ↔
      ∃ kind ∈ cfg.allowedKinds, field fields "kind" = .int kind := by
  simp only [checkKind, event.getEvent, bind, Except.bind, get_dict]
  cases field fields "kind" with
  | int kind =>
      by_cases allowed : kind ∈ cfg.allowedKinds
      · simp [allowed]
      · simp [allowed]
  | _ => simp

theorem checkAuthorizedAuthors_passes {kind : Int}
    (isKind : field fields "kind" = .int kind) :
    checkAuthorizedAuthors tables req cfg = .ok none ↔
      (kind ∈ lockedKinds → ∃ pubkey, field fields "pubkey" = .str pubkey ∧
        tables.toLower pubkey ∈ cfg.authorizedAuthors) := by
  have isLocked : (Value.int kind).inInts lockedKinds =
      .ok (lockedKinds.contains kind) := by
    rw [List.contains_eq_any_beq]
    rfl
  simp only [checkAuthorizedAuthors, event.getEvent, bind, Except.bind,
    get_dict, isKind, isLocked]
  by_cases locked : kind ∈ lockedKinds
  · simp only [List.contains_eq_mem, locked, decide_true, Bool.not_true]
    cases field fields "pubkey" with
    | str pubkey =>
        by_cases known : tables.toLower pubkey ∈ cfg.authorizedAuthors
        · simp [known]
        · simp [known]
    | _ => simp
  · simp [locked]

theorem checkAuth_passes :
    checkAuth req cfg = .ok none ↔
      (cfg.requireAuth = true → ∃ authed, Authed req authed) := by
  unfold checkAuth
  cases cfg.requireAuth with
  | false => simp
  | true =>
      obtain ⟨value, got⟩ := event.get_authed
      simp only [← authedKey_eq_some]
      have total : ∃ key, authedKey req = .ok key := by
        unfold authedKey
        rw [got]
        cases value <;> exact ⟨_, rfl⟩
      obtain ⟨key, isKey⟩ := total
      cases key <;> simp [isKey, bind, Except.bind]

theorem onGiftwrap_passes {kind : Int}
    (isKind : field fields "kind" = .int kind)
    (check : List Value → Option Str) :
    onGiftwrap check req = .ok none ↔
      (kind = 1059 → ∃ tags, field fields "tags" = .list tags ∧
        check tags = none) := by
  simp only [onGiftwrap, event.getEvent, bind, Except.bind, get_dict, isKind,
    Value.eqInt]
  by_cases wrap : kind = 1059
  · simp only [wrap, beq_self_eq_true, Bool.not_true]
    cases field fields "tags" <;> simp
  · simp [wrap]

end Passing

section Samples

def sampleKey : Str := List.replicate 64 (ascii 'b')

/-- Nothing is set and there is no file. -/
def defaultCfg : Cfg Nat where
  allowedKinds := [0, 1, 3, 5, 7, 13, 14, 16, 17, 1059, 1111, 10000, 10002,
    10050, 24133, 24140, 27235, 30000, 30003, 30023, 30078, 30402, 30405,
    30406, 31990]
  authorizedAuthors := []
  requireAuth := false
  payMode := .off
  authorityUrl := str "http://authority:8191"
  paidCacheSecs := 60

example :
    (loadConfig Unicode.basic (fun _ => some 60) (fun _ => .osError) []
      .empty).toOption = some defaultCfg := by
  decide +kernel

/-- The authority cannot be reached. -/
def unreachable (now : Nat) : Outside Nat where
  now
  urlopen _ := .error .other

end Samples

end Floonet.Plugin
