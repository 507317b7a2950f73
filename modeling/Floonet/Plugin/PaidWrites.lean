import Floonet.Plugin.Decisions
import Mathlib.Algebra.Order.Monoid.Unbundled.Defs

/-!
# The paid write gate

The verdicts of the name authority are cached, and the cache is the only state
of the policy.  Over any sequence of calls, whatever the authority answers, an
accepting verdict is recent, the lookups for a key are apart, and an event
that an earlier check turns away causes none.

Seconds are any linear order with an addition that is monotone in both
arguments; the floating-point numbers of the source are one.
-/

namespace Floonet.Plugin

open Python

/-- A call of `decide`. -/
structure Call (Secs : Type) where
  req : Value
  outside : Outside Secs

variable {Secs : Type} [LinearOrder Secs] [Add Secs] [OfNat Secs 10]
  {tables : Unicode} {cfg : Cfg Secs} {calls : List (Call Secs)}
  {state : PluginState Secs}

/-- The state that a call leaves behind. -/
def Call.after (tables : Unicode) (cfg : Cfg Secs) (call : Call Secs)
    (state : PluginState Secs) : PluginState Secs :=
  (decide tables call.req cfg call.outside state).2

/-- The state after some calls, under a clock that does not go back. -/
inductive Serves (tables : Unicode) (cfg : Cfg Secs) :
    List (Call Secs) → PluginState Secs → Prop where
  | start : Serves tables cfg [] .initial
  | call {calls : List (Call Secs)} {state : PluginState Secs}
      (served : Serves tables cfg calls state) (call : Call Secs)
      (onward : ∀ earlier ∈ calls, earlier.outside.now ≤ call.outside.now) :
      Serves tables cfg (calls ++ [call]) (call.after tables cfg state)

/-! ## What one call does to the state -/

/-- An earlier check turns the event of the call away, or there is none. -/
def TurnedAway (tables : Unicode) (cfg : Cfg Secs) (call : Call Secs)
    (state : PluginState Secs) : Prop :=
  ∀ fields, HasEvent call.req fields →
    (runChecks (eventIdOf fields) call.req cfg call.outside state
      ((earlierChecks tables).map pureCheck)).1.action = .reject

omit [LinearOrder Secs] [Add Secs] [OfNat Secs 10] in
theorem runChecks_map_append {eventId : Str} {req : Value}
    {outside : Outside Secs}
    (first : List (Value → Cfg Secs → Except Exn (Option Str)))
    (rest : List (Check Secs)) :
    runChecks eventId req cfg outside state (first.map pureCheck ++ rest) =
      if (runChecks eventId req cfg outside state
        (first.map pureCheck)).1.action = .accept
      then runChecks eventId req cfg outside state rest
      else ((runChecks eventId req cfg outside state
        (first.map pureCheck)).1, state) := by
  induction first with
  | nil => simp [runChecks]
  | cons check first induction =>
      rw [List.map_cons, List.cons_append, runChecks, runChecks, pureCheck]
      cases check req cfg with
      | error exn => simp
      | ok msg =>
          cases msg with
          | none => exact induction
          | some msg => simp

omit [LinearOrder Secs] [Add Secs] [OfNat Secs 10] in
theorem runChecks_single_state {eventId : Str} {req : Value}
    {outside : Outside Secs} (check : Check Secs) :
    (runChecks eventId req cfg outside state [check]).2 =
      (check req cfg outside state).2 := by
  rw [runChecks]
  rcases check req cfg outside state with ⟨outcome, after⟩
  cases outcome with
  | error exn => rfl
  | ok msg => cases msg <;> rfl

theorem Call.after_turnedAway {call : Call Secs}
    (away : TurnedAway tables cfg call state) :
    call.after tables cfg state = state := by
  unfold Call.after Plugin.decide
  split
  · rfl
  · rename_i fields event
    have rejected := away fields event
    rw [checks, runChecks_map_append, if_neg (by simp [rejected])]
  · rfl

theorem Call.after_cases (tables : Unicode) (cfg : Cfg Secs)
    (call : Call Secs) (state : PluginState Secs) :
    call.after tables cfg state = state ∨
      call.after tables cfg state =
        (checkPaid call.req cfg call.outside state).2 := by
  unfold Call.after Plugin.decide
  split
  · exact .inl rfl
  · rename_i fields event
    dsimp only
    rw [checks, runChecks_map_append]
    split
    · exact .inr (runChecks_single_state checkPaid)
    · exact .inl rfl
  · exact .inl rfl

theorem Accepts.after {call : Call Secs}
    (accepts : Accepts tables call.req cfg call.outside state) :
    call.after tables cfg state =
      (checkPaid call.req cfg call.outside state).2 := by
  obtain ⟨reply, replied, accepted⟩ := accepts
  unfold Call.after Plugin.decide at *
  split
  · rename_i exn raised
    rw [raised] at replied
    cases replied
  · rename_i fields event
    rw [event] at replied
    dsimp only at replied ⊢
    cases replied
    rw [checks, runChecks_map_append] at accepted ⊢
    split at accepted
    · rename_i passed
      rw [if_pos passed]
      exact runChecks_single_state checkPaid
    · rename_i away
      exact absurd accepted away
  · rename_i value other got
    rw [got] at replied
    split at replied
    · cases replied
    · rename_i fields same
      cases same
      exact absurd rfl (other fields)
    · cases replied
      cases accepted

theorem payAnswer_eq_none {verdict : Option Bool} :
    payAnswer verdict = none ↔ verdict = some true := by
  cases verdict with
  | none => simp [payAnswer]
  | some paid => cases paid <;> simp [payAnswer]

theorem checkPaidKey_cases (cfg : Cfg Secs) (state : PluginState Secs)
    (authed : Str) (outside : Outside Secs) :
    (∃ paid expires, state.paidCache authed = some (paid, expires) ∧
      outside.now < expires ∧ checkPaidKey authed cfg outside state =
        (payAnswer (some paid), state)) ∨
    ((∀ paid expires, state.paidCache authed = some (paid, expires) →
        expires ≤ outside.now) ∧
      checkPaidKey authed cfg outside state =
        (payAnswer (lookUp cfg outside authed outside.now state).1,
          (lookUp cfg outside authed outside.now state).2)) := by
  unfold checkPaidKey
  cases cached : state.paidCache authed with
  | none => exact .inr ⟨nofun, rfl⟩
  | some entry =>
      obtain ⟨paid, expires⟩ := entry
      by_cases lasts : outside.now < expires
      · exact .inl ⟨paid, expires, rfl, lasts, if_pos lasts⟩
      · refine .inr ⟨?_, if_neg lasts⟩
        rintro _ _ ⟨⟩
        exact not_lt.mp lasts

/-- The gate leaves the state alone, or it makes a lookup for the
authenticated key. -/
theorem checkPaid_cases (cfg : Cfg Secs) (state : PluginState Secs)
    (req : Value) (outside : Outside Secs) :
    (checkPaid req cfg outside state).2 = state ∨
      ∃ authed, Authed req authed ∧
        (∀ paid expires, state.paidCache authed = some (paid, expires) →
          expires ≤ outside.now) ∧
        (checkPaid req cfg outside state).2 =
          (lookUp cfg outside authed outside.now state).2 := by
  unfold checkPaid
  split
  · exact .inl rfl
  cases isAuthed : authedKey req with
  | error exn => exact .inl rfl
  | ok key =>
      cases key with
      | none => exact .inl rfl
      | some authed =>
          rcases checkPaidKey_cases cfg state authed outside with
            ⟨_, _, _, _, same⟩ | ⟨expired, asked⟩
          · exact .inl (congrArg Prod.snd same)
          · exact .inr ⟨authed, authedKey_eq_some.mp isAuthed, expired,
              congrArg Prod.snd asked⟩

theorem checkPaid_passes {req : Value} {outside : Outside Secs}
    (write : cfg.payMode = .write)
    (passes : (checkPaid req cfg outside state).1 = .ok none) :
    ∃ authed, Authed req authed ∧
      ((∃ expires, state.paidCache authed = some (true, expires) ∧
        outside.now < expires) ∨
      ((lookUp cfg outside authed outside.now state).1 = some true ∧
        (checkPaid req cfg outside state).2 =
          (lookUp cfg outside authed outside.now state).2)) := by
  unfold checkPaid at passes ⊢
  rw [if_neg (not_not.mpr write)] at passes
  simp only [if_neg (not_not.mpr write)]
  cases isAuthed : authedKey req with
  | error exn =>
      rw [isAuthed] at passes
      cases passes
  | ok key =>
      rw [isAuthed] at passes
      cases key with
      | none => cases passes
      | some authed =>
          refine ⟨authed, authedKey_eq_some.mp isAuthed, ?_⟩
          dsimp only at passes ⊢
          rcases checkPaidKey_cases cfg state authed outside with
            ⟨paid, expires, cached, lasts, same⟩ | ⟨-, asked⟩
          · rw [same, Except.ok.injEq, payAnswer_eq_none] at passes
            cases passes
            exact .inl ⟨expires, cached, lasts⟩
          · rw [asked, Except.ok.injEq, payAnswer_eq_none] at passes
            exact .inr ⟨passes, congrArg Prod.snd asked⟩

/-- The lookup was made by this call, for its authenticated key. -/
structure Lookup.AskedBy (cfg : Cfg Secs) (lookup : Lookup Secs)
    (call : Call Secs) : Prop where
  authed : Authed call.req lookup.pubkey
  start : lookup.start = call.outside.now
  verdict : lookup.verdict = paidLookup cfg call.outside lookup.pubkey

/-- What is known of the state after some calls. -/
structure CacheSound (cfg : Cfg Secs) (calls : List (Call Secs))
    (state : PluginState Secs) : Prop where
  asked : ∀ lookup ∈ state.lookups, ∃ call ∈ calls, lookup.AskedBy cfg call
  backed : ∀ pubkey expires, state.paidCache pubkey = some (true, expires) →
    ∃ lookup ∈ state.lookups, lookup.pubkey = pubkey ∧
      lookup.verdict = .ok true ∧ expires = lookup.start + cfg.paidCacheSecs
  covered : ∀ lookup ∈ state.lookups, ∃ paid expires,
    state.paidCache lookup.pubkey = some (paid, expires) ∧
      lookup.start + min cfg.paidCacheSecs 10 ≤ expires
  spaced : state.lookups.Pairwise fun earlier later =>
    earlier.pubkey = later.pubkey →
      earlier.start + min cfg.paidCacheSecs 10 ≤ later.start

theorem CacheSound.initial : CacheSound cfg [] .initial := by
  constructor
  case asked => simp [PluginState.initial]
  case backed => simp [PluginState.initial, Dict.empty]
  case covered => simp [PluginState.initial]
  case spaced => simp [PluginState.initial]

theorem CacheSound.later (sound : CacheSound cfg calls state)
    (call : Call Secs) : CacheSound cfg (calls ++ [call]) state where
  asked lookup member := by
    obtain ⟨earlier, earlierMember, asked⟩ := sound.asked lookup member
    exact ⟨earlier, List.mem_append_left _ earlierMember, asked⟩
  backed := sound.backed
  covered := sound.covered
  spaced := sound.spaced

/-- The lookup for a key, and what is cached of it. -/
theorem lookUp_spec [AddLeftMono Secs] (cfg : Cfg Secs)
    (state : PluginState Secs) (authed : Str) (outside : Outside Secs)
    (t : Secs) : ∃ lookup paid expires, lookup.pubkey = authed ∧
      lookup.start = t ∧
      lookup.verdict = paidLookup cfg outside authed ∧
      (lookUp cfg outside authed t state).2 =
        ⟨state.paidCache.set authed (paid, expires),
          state.lookups ++ [lookup]⟩ ∧
      t + min cfg.paidCacheSecs 10 ≤ expires ∧
      (paid = true → lookup.verdict = .ok true ∧
        expires = t + cfg.paidCacheSecs) ∧
      ((lookUp cfg outside authed t state).1 = some true →
        lookup.verdict = .ok true) := by
  refine ⟨⟨authed, t, paidLookup cfg outside authed⟩, ?_⟩
  unfold lookUp
  cases paidLookup cfg outside authed with
  | ok paid =>
      refine ⟨paid, t + cfg.paidCacheSecs, rfl, rfl, rfl, rfl,
        add_le_add_right (min_le_left _ _) t, ?_, ?_⟩
      · rintro rfl
        exact ⟨rfl, rfl⟩
      · rintro ⟨⟩
        rfl
  | error exn =>
      exact ⟨false, t + min cfg.paidCacheSecs 10, rfl, rfl, rfl, rfl,
        le_refl _, nofun, nofun⟩

theorem Call.after_lookups [AddLeftMono Secs] (call : Call Secs)
    {lookup : Lookup Secs} (member : lookup ∈ state.lookups) :
    lookup ∈ (call.after tables cfg state).lookups := by
  rcases call.after_cases tables cfg state with same | gate
  · rwa [same]
  · rw [gate]
    rcases checkPaid_cases cfg state call.req call.outside with
      same | ⟨authed, -, -, asked⟩
    · rwa [same]
    · obtain ⟨asked', paid, expires, -, -, -, grown, -⟩ :=
        lookUp_spec cfg state authed call.outside call.outside.now
      rw [asked, grown]
      exact List.mem_append_left _ member

section Mono

variable [AddLeftMono Secs] [AddRightMono Secs]

theorem CacheSound.lookUp (sound : CacheSound cfg calls state)
    (call : Call Secs)
    (onward : ∀ earlier ∈ calls, earlier.outside.now ≤ call.outside.now)
    {authed : Str} (isAuthed : Authed call.req authed) (expired : ∀ paid expires,
      state.paidCache authed = some (paid, expires) →
        expires ≤ call.outside.now) :
    CacheSound cfg (calls ++ [call])
      (Plugin.lookUp cfg call.outside authed call.outside.now state).2 := by
  obtain ⟨lookup, paid, expires, rfl, start, verdict, after, lasts, truthful,
    -⟩ :=
    lookUp_spec cfg state authed call.outside call.outside.now
  rw [after]
  have before : ∀ earlier ∈ state.lookups, earlier.start ≤ lookup.start := by
    intro earlier member
    obtain ⟨asker, askerMember, asked⟩ := sound.asked earlier member
    rw [start, asked.start]
    exact onward asker askerMember
  constructor
  case asked =>
    intro other member
    rcases List.mem_append.mp member with old | new
    · exact (sound.later call).asked other old
    · rw [List.mem_singleton.mp new]
      exact ⟨call, List.mem_append_right _ List.mem_cons_self, isAuthed, start,
        verdict⟩
  case backed =>
    intro pubkey time cached
    dsimp only at cached
    by_cases same : pubkey = lookup.pubkey
    · subst same
      rw [Dict.set_self] at cached
      cases cached
      obtain ⟨isPaid, isExpiry⟩ := truthful rfl
      refine ⟨lookup, List.mem_append_right _ List.mem_cons_self, rfl, isPaid,
        ?_⟩
      rw [isExpiry, start]
    · rw [Dict.set_other _ _ same] at cached
      obtain ⟨earlier, member, known⟩ := sound.backed pubkey time cached
      exact ⟨earlier, List.mem_append_left _ member, known⟩
  case covered =>
    intro other member
    rcases List.mem_append.mp member with old | new
    · by_cases same : other.pubkey = lookup.pubkey
      · refine ⟨paid, expires, ?_, ?_⟩
        · rw [same]
          exact Dict.set_self _ _ _
        · rw [← start] at lasts
          exact (add_le_add_left (before other old) _).trans lasts
      · obtain ⟨paid', expires', cached, bound⟩ := sound.covered other old
        exact ⟨paid', expires', (Dict.set_other _ _ same).trans cached, bound⟩
    · rw [List.mem_singleton.mp new]
      refine ⟨paid, expires, Dict.set_self _ _ _, ?_⟩
      rw [start]
      exact lasts
  case spaced =>
    refine List.pairwise_append.mpr ⟨sound.spaced, List.pairwise_singleton _ _,
      ?_⟩
    intro earlier member new isNew sameKey
    cases List.mem_singleton.mp isNew
    obtain ⟨paid', expires', cached, bound⟩ := sound.covered earlier member
    rw [sameKey] at cached
    rw [start]
    exact bound.trans (expired paid' expires' cached)

theorem Serves.sound (served : Serves tables cfg calls state) :
    CacheSound cfg calls state := by
  induction served with
  | start => exact .initial
  | @call calls state served call onward sound =>
      rcases call.after_cases tables cfg state with same | gate
      · rw [same]
        exact sound.later call
      · rw [gate]
        rcases checkPaid_cases cfg state call.req call.outside with
          same | ⟨authed, isAuthed, expired, asked⟩
        · rw [same]
          exact sound.later call
        · rw [asked]
          exact sound.lookUp call onward isAuthed expired

/-- In pay-to-write mode, over any calls: an event is accepted on a paid
verdict about its own key that is recent or new, two lookups for a key are
apart, and an event that is turned away causes no lookup. -/
theorem paid_gate (served : Serves tables cfg calls state)
    (write : cfg.payMode = .write) (call : Call Secs)
    (onward : ∀ earlier ∈ calls, earlier.outside.now ≤ call.outside.now) :
    let after := call.after tables cfg state
    (Accepts tables call.req cfg call.outside state →
      ∃ lookup ∈ after.lookups, ∃ asker ∈ calls ++ [call],
        lookup.AskedBy cfg asker ∧ Authed call.req lookup.pubkey ∧
        lookup.verdict = .ok true ∧
        (call.outside.now < lookup.start + cfg.paidCacheSecs ∨
          after.lookups = state.lookups ++ [lookup] ∧ asker = call)) ∧
    (after.lookups.Pairwise fun earlier later =>
      earlier.pubkey = later.pubkey →
        earlier.start + min cfg.paidCacheSecs 10 ≤ later.start) ∧
    (TurnedAway tables cfg call state → after.lookups = state.lookups) := by
  have sound := served.sound
  have next := (Serves.call served call onward).sound
  refine ⟨fun accepts => ?_, next.spaced, fun away => ?_⟩
  · obtain ⟨fields, event, -, -, -, -, -, -, passes⟩ := accepts_iff.mp accepts
    obtain ⟨authed, isAuthed, paid⟩ := checkPaid_passes write passes
    rcases paid with ⟨expires, cached, lasts⟩ | ⟨verdict, asked⟩
    · obtain ⟨lookup, member, rfl, isPaid, rfl⟩ := sound.backed _ _ cached
      obtain ⟨asker, askerMember, wasAsked⟩ := sound.asked lookup member
      exact ⟨lookup, call.after_lookups member, asker,
        List.mem_append_left _ askerMember, wasAsked, isAuthed, isPaid,
        .inl lasts⟩
    · obtain ⟨lookup, paid, expires, rfl, start, wasAsked, after, -, -,
        isPaid⟩ := lookUp_spec cfg state authed call.outside call.outside.now
      have grown : (call.after tables cfg state).lookups =
          state.lookups ++ [lookup] := by
        rw [accepts.after, asked, after]
      refine ⟨lookup, ?_, call, List.mem_append_right _ List.mem_cons_self,
        ⟨isAuthed, start, wasAsked⟩, isAuthed, isPaid verdict,
        .inr ⟨grown, rfl⟩⟩
      rw [grown]
      exact List.mem_append_right _ List.mem_cons_self
  · rw [Call.after_turnedAway away]

end Mono

section Samples

/-- The authority says that the key has paid. -/
def paidAt (now : Nat) : Call Nat where
  req := .dict [(str "authed", .str sampleKey),
    (str "event", .dict [(str "kind", .int 7)])]
  outside := ⟨now, fun _ => .ok (.dict [(str "paid", .bool true)])⟩

/-- The same key when the authority is down. -/
def downAt (now : Nat) : Call Nat :=
  { paidAt now with outside := unreachable now }

def paidCfg : Cfg Nat := { defaultCfg with payMode := .write }

def paidState : PluginState Nat :=
  (paidAt 100).after Unicode.basic paidCfg .initial

theorem paidState_serves :
    Serves Unicode.basic paidCfg [paidAt 100] paidState :=
  Serves.start.call (paidAt 100) (by simp)

/-- The verdict still lasts when the authority goes down. -/
theorem paid_gate_cached :
    ∃ lookup ∈ ((downAt 159).after Unicode.basic paidCfg paidState).lookups,
      ∃ asker ∈ [paidAt 100] ++ [downAt 159],
        lookup.AskedBy paidCfg asker ∧ Authed (downAt 159).req lookup.pubkey ∧
        lookup.verdict = .ok true ∧
        (159 < lookup.start + 60 ∨
          ((downAt 159).after Unicode.basic paidCfg paidState).lookups =
            paidState.lookups ++ [lookup] ∧ asker = downAt 159) :=
  (paid_gate paidState_serves rfl (downAt 159) (by decide)).1
    (accepts_iff_accepted.mpr (by decide +kernel))

end Samples

end Floonet.Plugin
