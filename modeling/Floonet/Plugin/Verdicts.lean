import Floonet.Plugin.PaidWrites

/-!
# The verdicts behind the cache

The cache of the paid gate holds of every key the last verdict and when that
verdict ends, and nothing else counts.  The policy decides like one without a
cache that remembers all its lookups and goes by the last one for the key, as
long as it lasts.
-/

namespace Floonet.Plugin

open Python

variable {Secs : Type} [LinearOrder Secs] [Add Secs] [OfNat Secs 10]
  {tables : Unicode} {cfg : Cfg Secs} {calls : List (Call Secs)}
  {state : PluginState Secs}

/-! ## The earlier checks -/

omit [LinearOrder Secs] [Add Secs] [OfNat Secs 10] in
/-- The event passes every check before the paid gate. -/
def Passed (tables : Unicode) (cfg : Cfg Secs) (req : Value) : Prop :=
  ∃ fields, HasEvent req fields ∧
    ∀ check ∈ earlierChecks tables, check req cfg = .ok none

omit [LinearOrder Secs] [Add Secs] [OfNat Secs 10] in
theorem runChecks_map_accepts {eventId : Str} {req : Value}
    {outside : Outside Secs}
    {these : List (Value → Cfg Secs → Except Exn (Option Str))} :
    (runChecks eventId req cfg outside state
        (these.map pureCheck)).1.action = .accept ↔
      ∀ check ∈ these, check req cfg = .ok none := by
  induction these with
  | nil => simp [runChecks]
  | cons check these induction =>
      rw [List.map_cons, runChecks_accepts_pure, induction,
        List.forall_mem_cons]

theorem accepts_iff_passed {req : Value} {outside : Outside Secs} :
    Accepts tables req cfg outside state ↔ Passed tables cfg req ∧
      (checkPaid req cfg outside state).1 = .ok none := by
  rw [accepts_iff]
  unfold Passed
  simp only [earlierChecks, List.forall_mem_cons, List.not_mem_nil,
    false_implies, implies_true, and_true]
  constructor
  · rintro ⟨fields, event, kind, expiration, recipient, tags, authors, auth,
      paid⟩
    exact ⟨⟨fields, event, kind, expiration, recipient, tags, authors, auth⟩,
      paid⟩
  · rintro ⟨⟨fields, event, kind, expiration, recipient, tags, authors, auth⟩,
      paid⟩
    exact ⟨fields, event, kind, expiration, recipient, tags, authors, auth,
      paid⟩

theorem Call.after_passed {call : Call Secs}
    (passed : Passed tables cfg call.req) :
    call.after tables cfg state =
      (checkPaid call.req cfg call.outside state).2 := by
  obtain ⟨fields, event, passes⟩ := passed
  unfold Call.after Plugin.decide
  rw [event]
  dsimp only
  rw [checks, runChecks_map_append, if_pos (runChecks_map_accepts.mpr passes)]
  exact runChecks_single_state checkPaid

theorem Call.after_unpassed {call : Call Secs}
    (unpassed : ¬ Passed tables cfg call.req) :
    call.after tables cfg state = state := by
  refine Call.after_turnedAway fun fields event => ?_
  cases action : (runChecks (eventIdOf fields) call.req cfg call.outside state
      ((earlierChecks tables).map pureCheck)).1.action with
  | reject => rfl
  | accept =>
      exact absurd ⟨fields, event, runChecks_map_accepts.mp action⟩ unpassed

/-! ## The policy without a cache -/

omit [LinearOrder Secs] [Add Secs] [OfNat Secs 10] in
/-- The last lookup for a key. -/
def lastLookup (pubkey : Str) (lookups : List (Lookup Secs)) :
    Option (Lookup Secs) :=
  lookups.reverse.find? fun lookup => lookup.pubkey = pubkey

omit [LinearOrder Secs] [Add Secs] [OfNat Secs 10] in
theorem lastLookup_concat (pubkey : Str) (lookups : List (Lookup Secs))
    (lookup : Lookup Secs) : lastLookup pubkey (lookups ++ [lookup]) =
      if lookup.pubkey = pubkey then some lookup
      else lastLookup pubkey lookups := by
  unfold lastLookup
  rw [List.reverse_append, List.reverse_singleton, List.singleton_append,
    List.find?_cons]
  by_cases same : lookup.pubkey = pubkey <;> simp [same]

omit [LinearOrder Secs] [Add Secs] [OfNat Secs 10] in
theorem lastLookup_mem {pubkey : Str} {lookups : List (Lookup Secs)}
    {lookup : Lookup Secs} (last : lastLookup pubkey lookups = some lookup) :
    lookup ∈ lookups ∧ lookup.pubkey = pubkey := by
  refine ⟨List.mem_reverse.mp (List.mem_of_find?_eq_some last), ?_⟩
  simpa using List.find?_some last

/-- When the verdict of a lookup ends; a failure is forgotten sooner. -/
def Lookup.expires (cfg : Cfg Secs) (lookup : Lookup Secs) : Secs :=
  match lookup.verdict with
  | .ok _ => lookup.start + cfg.paidCacheSecs
  | .error _ => lookup.start + min cfg.paidCacheSecs 10

/-- The lookup for a key that is made now. -/
def newLookup (cfg : Cfg Secs) (pubkey : Str) (outside : Outside Secs) :
    Lookup Secs :=
  ⟨pubkey, outside.now, paidLookup cfg outside pubkey⟩

/-- The verdict about a key, and the lookups then. -/
def consult (cfg : Cfg Secs) (lookups : List (Lookup Secs)) (pubkey : Str)
    (outside : Outside Secs) : Except Exn Bool × List (Lookup Secs) :=
  match lastLookup pubkey lookups with
  | some lookup =>
      if outside.now < lookup.expires cfg then (lookup.verdict, lookups)
      else (paidLookup cfg outside pubkey,
        lookups ++ [newLookup cfg pubkey outside])
  | none => (paidLookup cfg outside pubkey,
      lookups ++ [newLookup cfg pubkey outside])

theorem consult_lasts {lookups : List (Lookup Secs)} {lookup : Lookup Secs}
    {pubkey : Str} {outside : Outside Secs}
    (last : lastLookup pubkey lookups = some lookup)
    (lasts : outside.now < lookup.expires cfg) :
    consult cfg lookups pubkey outside = (lookup.verdict, lookups) := by
  rw [consult, last]
  exact if_pos lasts

theorem consult_asks {lookups : List (Lookup Secs)} {pubkey : Str}
    {outside : Outside Secs}
    (ended : ∀ lookup, lastLookup pubkey lookups = some lookup →
      lookup.expires cfg ≤ outside.now) :
    consult cfg lookups pubkey outside = (paidLookup cfg outside pubkey,
      lookups ++ [newLookup cfg pubkey outside]) := by
  unfold consult
  cases last : lastLookup pubkey lookups with
  | none => rfl
  | some lookup => exact if_neg (not_lt.mpr (ended lookup last))

/-- The call needs a verdict about the key. -/
def Call.Needs (tables : Unicode) (cfg : Cfg Secs) (call : Call Secs)
    (pubkey : Str) : Prop :=
  Passed tables cfg call.req ∧ Authed call.req pubkey

/-- The lookups that a policy without a cache remembers after some calls. -/
inductive Remembers (tables : Unicode) (cfg : Cfg Secs) :
    List (Call Secs) → List (Lookup Secs) → Prop where
  | start : Remembers tables cfg [] []
  | idle {calls : List (Call Secs)} {lookups : List (Lookup Secs)}
      (remembers : Remembers tables cfg calls lookups) (call : Call Secs)
      (idle : ∀ pubkey, ¬ call.Needs tables cfg pubkey) :
      Remembers tables cfg (calls ++ [call]) lookups
  | consult {calls : List (Call Secs)} {lookups : List (Lookup Secs)}
      (remembers : Remembers tables cfg calls lookups) (call : Call Secs)
      {pubkey : Str} (needs : call.Needs tables cfg pubkey) :
      Remembers tables cfg (calls ++ [call])
        (consult cfg lookups pubkey call.outside).2

/-! ## The cache holds the last verdicts -/

/-- What the cache holds of a lookup. -/
def Lookup.entry (cfg : Cfg Secs) (lookup : Lookup Secs) : Bool × Secs :=
  (lookup.verdict.toOption.getD false, lookup.expires cfg)

/-- The cache holds of every key the last lookup. -/
def CacheExact (cfg : Cfg Secs) (state : PluginState Secs) : Prop :=
  ∀ pubkey, state.paidCache pubkey =
    (lastLookup pubkey state.lookups).map (Lookup.entry cfg)

omit [LinearOrder Secs] [Add Secs] [OfNat Secs 10] in
theorem toOption_eq_true {verdict : Except Exn Bool} :
    verdict.toOption = some true ↔ verdict = .ok true := by
  cases verdict with
  | error exn => simp [Except.toOption]
  | ok paid => simp [Except.toOption]

theorem CacheExact.lookUp (holds : CacheExact cfg state) (authed : Str)
    (outside : Outside Secs) :
    let asked := Plugin.lookUp cfg outside authed outside.now state
    asked.1 = (paidLookup cfg outside authed).toOption ∧
      asked.2.lookups = state.lookups ++ [newLookup cfg authed outside] ∧
      CacheExact cfg asked.2 := by
  intro asked
  obtain ⟨isVerdict, isAfter⟩ :
      asked.1 = (paidLookup cfg outside authed).toOption ∧ asked.2 =
        ⟨state.paidCache.set authed ((newLookup cfg authed outside).entry cfg),
          state.lookups ++ [newLookup cfg authed outside]⟩ := by
    simp only [asked, newLookup, Plugin.lookUp, Lookup.entry, Lookup.expires]
    cases paidLookup cfg outside authed with
    | ok paid => exact ⟨rfl, rfl⟩
    | error exn => exact ⟨rfl, rfl⟩
  refine ⟨isVerdict, congrArg PluginState.lookups isAfter, ?_⟩
  rw [isAfter]
  intro pubkey
  dsimp only
  rw [lastLookup_concat]
  by_cases same : authed = pubkey
  · rw [← same, Dict.set_self, newLookup, if_pos rfl, Option.map_some]
  · rw [Dict.set_other _ _ (Ne.symm same), newLookup, if_neg same]
    exact holds pubkey

/-- The gate goes by the last lookup for the key, or makes one. -/
theorem CacheExact.consults (holds : CacheExact cfg state) (authed : Str)
    (outside : Outside Secs) :
    let checked := checkPaidKey authed cfg outside state
    let consulted := consult cfg state.lookups authed outside
    (checked.1 = none ↔ consulted.1 = .ok true) ∧
      checked.2.lookups = consulted.2 ∧ CacheExact cfg checked.2 := by
  intro checked consulted
  have exactly := holds authed
  rcases checkPaidKey_cases cfg state authed outside with
    ⟨paid, expires, cached, lasts, same⟩ | ⟨expired, same⟩
  · rw [cached] at exactly
    obtain ⟨lookup, last, entry⟩ := Option.map_eq_some_iff.mp exactly.symm
    cases entry
    have isChecked : checked =
        (payAnswer (some (lookup.verdict.toOption.getD false)), state) := same
    have isConsulted : consulted = (lookup.verdict, state.lookups) :=
      consult_lasts last lasts
    rw [isChecked, isConsulted, payAnswer_eq_none, ← toOption_eq_true]
    refine ⟨?_, rfl, holds⟩
    dsimp only
    cases lookup.verdict.toOption with
    | none => simp
    | some paid => rfl
  · have isChecked : checked =
        (payAnswer (Plugin.lookUp cfg outside authed outside.now state).1,
          (Plugin.lookUp cfg outside authed outside.now state).2) := same
    have isConsulted : consulted = (paidLookup cfg outside authed,
        state.lookups ++ [newLookup cfg authed outside]) := by
      refine consult_asks fun lookup last => ?_
      rw [last] at exactly
      exact expired _ _ exactly
    obtain ⟨isVerdict, grown, still⟩ := holds.lookUp authed outside
    rw [isChecked, isConsulted, isVerdict, payAnswer_eq_none, toOption_eq_true]
    exact ⟨Iff.rfl, grown, still⟩

/-! ## Any calls -/

theorem CacheExact.call (tables : Unicode) (holds : CacheExact cfg state)
    (write : cfg.payMode = .write) (call : Call Secs) :
    (Accepts tables call.req cfg call.outside state ↔
      ∃ pubkey, call.Needs tables cfg pubkey ∧
        (consult cfg state.lookups pubkey call.outside).1 = .ok true) ∧
    (∀ pubkey, call.Needs tables cfg pubkey →
      (call.after tables cfg state).lookups =
        (consult cfg state.lookups pubkey call.outside).2) ∧
    ((∀ pubkey, ¬ call.Needs tables cfg pubkey) →
      (call.after tables cfg state).lookups = state.lookups) ∧
    CacheExact cfg (call.after tables cfg state) := by
  have gate : ∀ pubkey, Authed call.req pubkey →
      checkPaid call.req cfg call.outside state =
        (.ok (checkPaidKey pubkey cfg call.outside state).1,
          (checkPaidKey pubkey cfg call.outside state).2) := by
    intro pubkey isAuthed
    rw [checkPaid, if_neg (not_not_intro write), authedKey_eq_some.mpr isAuthed]
  have passes : (checkPaid call.req cfg call.outside state).1 = .ok none →
      ∃ pubkey, Authed call.req pubkey := by
    intro passed
    obtain ⟨pubkey, isAuthed, -⟩ := checkPaid_passes write passed
    exact ⟨pubkey, isAuthed⟩
  have stays : (∀ pubkey, ¬ call.Needs tables cfg pubkey) →
      call.after tables cfg state = state := by
    intro idle
    by_cases passed : Passed tables cfg call.req
    · rw [Call.after_passed passed]
      rcases checkPaid_cases cfg state call.req call.outside with
        same | ⟨pubkey, isAuthed, -, -⟩
      · exact same
      · exact absurd ⟨passed, isAuthed⟩ (idle pubkey)
    · exact Call.after_unpassed passed
  refine ⟨?_, ?_, fun idle => congrArg _ (stays idle), ?_⟩
  · rw [accepts_iff_passed]
    constructor
    · rintro ⟨passed, paid⟩
      obtain ⟨pubkey, isAuthed⟩ := passes paid
      rw [gate pubkey isAuthed, Except.ok.injEq] at paid
      exact ⟨pubkey, ⟨passed, isAuthed⟩,
        (holds.consults pubkey call.outside).1.mp paid⟩
    · rintro ⟨pubkey, ⟨passed, isAuthed⟩, verdict⟩
      rw [gate pubkey isAuthed, Except.ok.injEq]
      exact ⟨passed, (holds.consults pubkey call.outside).1.mpr verdict⟩
  · rintro pubkey ⟨passed, isAuthed⟩
    rw [Call.after_passed passed, gate pubkey isAuthed]
    exact (holds.consults pubkey call.outside).2.1
  · by_cases needs : ∃ pubkey, call.Needs tables cfg pubkey
    · obtain ⟨pubkey, passed, isAuthed⟩ := needs
      rw [Call.after_passed passed, gate pubkey isAuthed]
      exact (holds.consults pubkey call.outside).2.2
    · rw [stays fun pubkey need => needs ⟨pubkey, need⟩]
      exact holds

theorem CacheExact.initial : CacheExact cfg .initial := fun _ => rfl

/-- The lookups that were made are those of the policy without a cache. -/
theorem Serves.remembers (write : cfg.payMode = .write)
    (served : Serves tables cfg calls state) :
    CacheExact cfg state ∧ Remembers tables cfg calls state.lookups := by
  induction served with
  | start => exact ⟨.initial, .start⟩
  | @call calls state served call onward induction =>
      obtain ⟨holds, remembers⟩ := induction
      obtain ⟨-, consults, idles, still⟩ := holds.call tables write call
      refine ⟨still, ?_⟩
      by_cases needs : ∃ pubkey, call.Needs tables cfg pubkey
      · obtain ⟨pubkey, needs⟩ := needs
        rw [consults pubkey needs]
        exact remembers.consult call needs
      · have idle : ∀ pubkey, ¬ call.Needs tables cfg pubkey :=
          fun pubkey need => needs ⟨pubkey, need⟩
        rw [idles idle]
        exact remembers.idle call idle

/-- In pay-to-write mode, over any calls: the policy looks up and accepts what
a policy without a cache does that remembers every lookup, and goes by the
last one for the key as long as its verdict lasts. -/
theorem last_verdict_counts (served : Serves tables cfg calls state)
    (write : cfg.payMode = .write) (call : Call Secs) :
    Remembers tables cfg calls state.lookups ∧
      (Accepts tables call.req cfg call.outside state ↔
        ∃ pubkey, call.Needs tables cfg pubkey ∧
          (consult cfg state.lookups pubkey call.outside).1 = .ok true) := by
  obtain ⟨holds, remembers⟩ := served.remembers write
  exact ⟨remembers, (holds.call tables write call).1⟩

section Samples

/-- A verdict that lasts hides that the authority is down. -/
theorem last_verdict_counts_cached :
    Remembers Unicode.basic paidCfg [paidAt 100] paidState.lookups ∧
      (Accepts Unicode.basic (downAt 159).req paidCfg (downAt 159).outside
          paidState ↔
        ∃ pubkey, (downAt 159).Needs Unicode.basic paidCfg pubkey ∧
          (consult paidCfg paidState.lookups pubkey (downAt 159).outside).1 =
            .ok true) :=
  last_verdict_counts paidState_serves rfl (downAt 159)

end Samples

end Floonet.Plugin
