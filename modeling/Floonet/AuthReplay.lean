import Floonet.Client
import Floonet.Clocks

/-!
# One-time use of auth events

An accepted auth event is recorded under its id, and an id on record is turned
away.  A record is dropped after the replay window, which covers the largest
accepted age and five seconds.  Both ends of the accepted ages are included,
so a second is missing: an event that is honoured five seconds before its date
is forgotten before the last second in which it is accepted is over.
-/

namespace Floonet

open Concurrent Program System MachineInt

variable {ext : Extern} {cfg : Config} {epoch : Nat}
  {permitted : Permission World Request Op Op.Ans Response}
  {pool later : FloonetPool} {thread : FloonetThread} {eventId : String}

/-! ## The accepted ages and the replay window -/

theorem Config.authWindow_eq (nonneg : 0 ≤ cfg.authMaxAgeSecs)
    (bounded : cfg.authMaxAgeSecs < 2 ^ 63) :
    (cfg.authWindow : Int) = (cfg.authMaxAgeSecs + 5) * 1000000000 := by
  have seconds := asU64_of_nonneg nonneg
  have small : asU64 cfg.authMaxAgeSecs + 5 < 2 ^ 64 := by omega
  unfold Config.authWindow Duration.fromSecs
  rw [wrapU64_of_lt small, Int.natCast_mul, Int.natCast_add, seconds]
  rfl

theorem Config.authWindow_pos (nonneg : 0 ≤ cfg.authMaxAgeSecs)
    (bounded : cfg.authMaxAgeSecs < 2 ^ 63) : 0 < cfg.authWindow := by
  apply Int.natCast_pos.mp
  rw [Config.authWindow_eq nonneg bounded]
  omega

/-- The wall clock shows the seconds and the monotonic clock the nanoseconds
of one time, which was `epoch` when the monotonic clock showed zero. -/
def World.inStep (epoch : Nat) (world : World) : Prop :=
  world.unixTime.seconds = ((epoch + world.instant) / 1000000000 : Nat)

/-- An event that is accepted twice with the replay window in between is used
in the first and in the last second in which it is accepted. -/
theorem Event.ages_of_window (nonneg : 0 ≤ cfg.authMaxAgeSecs)
    (bounded : cfg.authMaxAgeSecs < 2 ^ 63) {event : Event}
    {earlier later : World} (inStep : earlier.inStep epoch)
    (inStep' : later.inStep epoch)
    (timely : event.timely cfg earlier.unixTime.seconds)
    (timely' : event.timely cfg later.unixTime.seconds)
    (elapsed : earlier.instant + cfg.authWindow ≤ later.instant) :
    event.age earlier.unixTime.seconds = -5 ∧
      event.age later.unixTime.seconds = cfg.authMaxAgeSecs := by
  have window := Config.authWindow_eq nonneg bounded
  have apart : (earlier.instant : Int) + cfg.authWindow ≤ later.instant :=
    Int.ofNat_le.mpr elapsed
  have early := earlier.unixTime.nonneg
  have late := later.unixTime.bounded
  have dated := asI64_bounds event.createdAt.toNat_lt
  unfold World.inStep at inStep inStep'
  unfold Event.timely Event.age wrapI64 at *
  generalize asI64 event.createdAt.toNat = date at *
  generalize earlier.unixTime.seconds = first at *
  generalize later.unixTime.seconds = last at *
  generalize earlier.instant = before at *
  generalize later.instant = after at *
  generalize cfg.authWindow = duration at *
  omega

/-! ## Admissions -/

/-- The step has found the id unused. -/
def Admits (taken : Taken World Op Op.Ans) (eventId : String) : Prop :=
  ∃ window now, taken.toEvent = ⟨.authEventFresh eventId window now, true⟩

/-- The thread has presented the event, and it has passed the verification and
the replay check. -/
def Honours (thread : FloonetThread) (event : Event) : Prop :=
  thread.request.authEvent = some event ∧
    ∃ taken ∈ thread.past, Admits taken event.id.toHex

/-- Requests are served at one moment each, and both clocks show the time. -/
structure Momentary (epoch : Nat) (pool : FloonetPool)
    (label : Label World Request Op Op.Ans) (later : FloonetPool) : Prop where
  atOnce : servedAtOnce pool label later
  inStep : later.state.inStep epoch

/-- The request presents an event in the last second in which it is accepted,
and the whole replay window ago it was honoured in the first. -/
def replaysLate (cfg : Config) (pool : FloonetPool) (request : Request) :
    Prop :=
  ∃ event, request.authEvent = some event ∧
    event.age pool.state.unixTime.seconds = cfg.authMaxAgeSecs ∧
    ∃ thread ∈ pool.threads, ∃ taken ∈ thread.past,
      Admits taken event.id.toHex ∧
      event.age taken.before.unixTime.seconds = -5 ∧
      taken.before.instant + cfg.authWindow ≤ pool.state.instant

/-- No late replay arrives. -/
structure ReplaysInTime (cfg : Config) (epoch : Nat) (pool : FloonetPool)
    (label : Label World Request Op Op.Ans) (later : FloonetPool) : Prop
    extends Momentary epoch pool label later where
  prompt : ∀ request, label = .arrive request → ¬ replaysLate cfg pool request

theorem Reachable.inStep
    (reachable : (server ext cfg).Reachable (Momentary epoch) pool)
    (member : thread ∈ pool.threads) : pool.state.inStep epoch := by
  refine Reachable.induct (motive := fun pool => ∀ thread ∈ pool.threads,
    pool.state.inStep epoch) ?start ?step reachable thread member
  case start => exact fun _ _ _ member => nomatch member
  case step => exact fun _ _ _ _ _ _ allowed _ _ => allowed.inStep

theorem Reachable.atOnce
    (reachable : (server ext cfg).Reachable (Momentary epoch) pool) :
    (server ext cfg).Reachable servedAtOnce pool :=
  reachable.mono fun _ _ _ _ _ allowed => allowed.atOnce

theorem Reachable.momentary
    (reachable : (server ext cfg).Reachable (ReplaysInTime cfg epoch) pool) :
    (server ext cfg).Reachable (Momentary epoch) pool :=
  reachable.mono fun _ _ _ _ _ allowed => allowed.toMomentary

/-- What a thread that is about to look its event up has checked. -/
structure Presents (cfg : Config) (epoch : Nat) (request : Request)
    (eventId : String) (world : World) : Prop where
  inStep : world.inStep epoch
  event : ∃ event, request.authEvent = some event ∧
    eventId = event.id.toHex ∧ event.timely cfg world.unixTime.seconds

theorem Reachable.presents
    (reachable : (server ext cfg).Reachable (Momentary epoch) pool)
    (member : thread ∈ pool.threads) {window : Duration} {now : Instant}
    {next : Bool → Handler Response}
    (pending : thread.program =
      .step (.authEventFresh eventId window now) next) :
    Presents cfg epoch thread.request eventId pool.state ∧
      window = cfg.authWindow ∧ now = pool.state.instant := by
  have running := Thread.not_finished_of_pending pending
  have within := Reachable.within reachable member pending
  obtain ⟨event, clock, presents, isId, saw, timely⟩ := within.vouched
  have sawInstant := Reachable.timed_saw reachable member pending rfl
  have isClock := Reachable.unixNow (Reachable.atOnce reachable) member running
    saw
  rw [isClock] at timely
  exact ⟨⟨Reachable.inStep reachable member, event, presents, isId, timely⟩,
    within.limited,
    Reachable.instantNow (Reachable.atOnce reachable) member running
      sawInstant⟩

theorem Reachable.admitted
    (reachable : (server ext cfg).Reachable (Momentary epoch) pool) :
    ∀ thread ∈ pool.threads, ∀ taken ∈ thread.past, ∀ eventId,
      Admits taken eventId →
        Presents cfg epoch thread.request eventId taken.before := by
  refine Reachable.localInvariant (fun thread _ => ∀ taken ∈ thread.past,
    ∀ eventId, Admits taken eventId →
      Presents cfg epoch thread.request eventId taken.before)
    ?arrive ?own ?others reachable
  case arrive =>
    intro pool request _ taken member
    cases member
  case own =>
    intro pool later thread op next env before _ member pending _ _ induction
      taken takenMember eventId admits
    rcases List.mem_append.mp takenMember with old | new
    · exact induction taken old eventId admits
    · cases List.mem_singleton.mp new
      obtain ⟨window, now, isLookup⟩ := admits
      obtain ⟨rfl, -⟩ := taken_eq isLookup
      exact (Reachable.presents before member pending).1
  case others => exact fun _ _ _ _ _ _ _ _ _ _ kept => kept

/-! ## Records of used events -/

/-- The record of an id lasts as long as the replay window. -/
structure Recorded (cfg : Config) (eventId : String) (since : Instant)
    (world : World) : Prop where
  past : since ≤ world.instant
  stored : world.instant < since + cfg.authWindow →
    (eventId, since) ∈ world.seenAuth

namespace Recorded

variable {since : Instant} {world : World}

theorem tick (recorded : Recorded cfg eventId since world) (elapsed : Tick) :
    Recorded cfg eventId since (world.tick elapsed) where
  past := Nat.le_trans recorded.past (Nat.le_add_right _ _)
  stored lasts := recorded.stored
    (Nat.lt_of_le_of_lt (Nat.le_add_right _ _) lasts)

theorem kept (recorded : Recorded cfg eventId since world)
    (lasts : world.instant < since + cfg.authWindow) :
    (eventId, since) ∈ world.seenAuth.filter fun entry =>
      decide (world.instant - entry.2 < cfg.authWindow) := by
  rw [List.mem_filter, decide_eq_true_iff]
  exact ⟨recorded.stored lasts, Nat.sub_lt_left_of_lt_add recorded.past lasts⟩

theorem exec (recorded : Recorded cfg eventId since world) (env : Env)
    {op : Op} (current : ∀ eventId window now,
      op = .authEventFresh eventId window now →
        window = cfg.authWindow ∧ now = world.instant) :
    Recorded cfg eventId since (op.exec env world).2 := by
  cases op with
  | authEventFresh other window now =>
      obtain ⟨rfl, rfl⟩ := current other window now rfl
      refine ⟨recorded.past, fun lasts => ?_⟩
      have kept := recorded.kept lasts
      simp only [Op.exec, SeenAuth.authEventFresh]
      split
      · exact kept
      · exact List.mem_append_left _ kept
  | _ => exact ⟨recorded.past, recorded.stored⟩

/-- An id that has just been found unused is recorded. -/
theorem admitted (cfg : Config) (env : Env) {world : World}
    {window : Duration}
    (unused : ((Op.authEventFresh eventId window world.instant).exec env
      world).1 = true) :
    Recorded cfg eventId world.instant
      ((Op.authEventFresh eventId window world.instant).exec env world).2 where
  past := Nat.le_refl _
  stored _ := by
    simp only [Op.exec, SeenAuth.authEventFresh] at unused ⊢
    split
    · rename_i used
      rw [if_pos used] at unused
      cases unused
    · exact List.mem_append_right _ List.mem_cons_self

/-- An id is found unused after the replay window only. -/
theorem elapsed (recorded : Recorded cfg eventId since world) (env : Env)
    (unused : ((Op.authEventFresh eventId cfg.authWindow world.instant).exec
      env world).1 = true) :
    since + cfg.authWindow ≤ world.instant := by
  apply Nat.le_of_not_lt
  intro lasts
  have kept := recorded.kept lasts
  simp only [Op.exec, SeenAuth.authEventFresh] at unused
  split at unused
  · cases unused
  · rename_i absent
    rw [Bool.not_eq_true, Option.isSome_eq_false_iff, Option.isNone_iff_eq_none,
      List.lookup_eq_none_iff] at absent
    simpa using absent _ kept

end Recorded

theorem Recorded.step {since : Instant} {label : Label World Request Op Op.Ans}
    (recorded : Recorded cfg eventId since pool.state)
    (reachable : (server ext cfg).Reachable (Momentary epoch) pool)
    (step : (server ext cfg).Step pool label later) :
    Recorded cfg eventId since later.state := by
  cases step with
  | arrive => exact recorded
  | tick elapsed => exact recorded.tick elapsed
  | act env found pending =>
      apply recorded.exec env
      rintro other window now rfl
      exact (Reachable.presents reachable (List.mem_of_getElem? found)
        pending).2

theorem Reachable.recorded
    (reachable : (server ext cfg).Reachable (Momentary epoch) pool) :
    ∀ thread ∈ pool.threads, ∀ taken ∈ thread.past, ∀ eventId,
      Admits taken eventId →
        Recorded cfg eventId taken.before.instant pool.state := by
  refine Reachable.induct (motive := fun pool => ∀ thread ∈ pool.threads,
    ∀ taken ∈ thread.past, ∀ eventId, Admits taken eventId →
      Recorded cfg eventId taken.before.instant pool.state)
    ?start ?step reachable
  case start => exact fun _ _ _ member => nomatch member
  case step =>
    intro pool label later before induction step _ thread member taken
      takenMember eventId admits
    obtain ⟨index, found⟩ := List.getElem?_of_mem member
    rcases step.thread_cases found with
      ⟨request, rfl, rfl⟩ |
      ⟨old, op, next, env, oldFound, pending, -, sameState, rfl⟩ | ⟨same, -⟩
    · cases takenMember
    · have oldMember := List.mem_of_getElem? oldFound
      rcases List.mem_append.mp takenMember with earlier | new
      · exact (induction old oldMember taken earlier eventId admits).step
          before step
      · cases List.mem_singleton.mp new
        obtain ⟨window, now, isLookup⟩ := admits
        obtain ⟨rfl, unused⟩ := taken_eq isLookup
        obtain ⟨-, -, rfl⟩ := Reachable.presents before oldMember pending
        rw [sameState]
        exact Recorded.admitted cfg env unused.symm
    · exact (induction thread (List.mem_of_getElem? same) taken takenMember
        eventId admits).step before step

theorem Honours.step_cases {label : Label World Request Op Op.Ans}
    (step : (server ext cfg).Step pool label later) {index : Nat}
    (found : later.threads[index]? = some thread) {event : Event}
    (honours : Honours thread event) :
    ∃ old, pool.threads[index]? = some old ∧
      (Honours old event ∨ ∃ window now next env,
        old.program = .step (.authEventFresh event.id.toHex window now) next ∧
        old.request.authEvent = some event ∧
        label = .act index ((server ext cfg).taken env
          (.authEventFresh event.id.toHex window now) pool.state) ∧
        ((Op.authEventFresh event.id.toHex window now).exec env
          pool.state).1 = true) := by
  obtain ⟨presents, taken, takenMember, admits⟩ := honours
  rcases step.thread_cases found with
    ⟨request, rfl, rfl⟩ |
    ⟨old, op, next, env, oldFound, pending, isAct, -, rfl⟩ | ⟨same, -⟩
  · cases takenMember
  · refine ⟨old, oldFound, ?_⟩
    rcases List.mem_append.mp takenMember with earlier | new
    · exact .inl ⟨presents, taken, earlier, admits⟩
    · cases List.mem_singleton.mp new
      obtain ⟨window, now, isLookup⟩ := admits
      obtain ⟨rfl, unused⟩ := taken_eq isLookup
      exact .inr ⟨window, now, next, env, pending, presents, isAct,
        unused.symm⟩
  · exact ⟨thread, same, .inl ⟨presents, taken, takenMember, admits⟩⟩

/-! ## Late replays -/

section Prompt

variable (nonneg : 0 ≤ cfg.authMaxAgeSecs)
  (bounded : cfg.authMaxAgeSecs < 2 ^ 63)
include nonneg bounded

/-- A late replay does not become one while it is served. -/
theorem replaysLate_step {label : Label World Request Op Op.Ans}
    (step : (server ext cfg).Step pool label later) (still : label ≠ .tick)
    {request : Request} (late : replaysLate cfg later request) :
    replaysLate cfg pool request := by
  have same := Step.sameTime step still
  obtain ⟨event, presents, age, thread, member, taken, takenMember, admits,
    early, elapsed⟩ := late
  rw [same.unixTime] at age
  rw [same.instant] at elapsed
  refine ⟨event, presents, age, ?_⟩
  obtain ⟨index, found⟩ := List.getElem?_of_mem member
  rcases step.thread_cases found with
    ⟨other, rfl, rfl⟩ | ⟨old, op, next, env, oldFound, -, -, -, rfl⟩ |
    ⟨unchanged, -⟩
  · cases takenMember
  · rcases List.mem_append.mp takenMember with earlier | new
    · exact ⟨old, List.mem_of_getElem? oldFound, taken, earlier, admits, early,
        elapsed⟩
    · cases List.mem_singleton.mp new
      have positive := Config.authWindow_pos nonneg bounded
      exact absurd elapsed (Nat.not_le_of_lt (Nat.lt_add_of_pos_right positive))
  · exact ⟨thread, List.mem_of_getElem? unchanged, taken, takenMember, admits,
      early, elapsed⟩

/-- No request that is being served is a late replay. -/
theorem Reachable.prompt
    (reachable : (server ext cfg).Reachable (ReplaysInTime cfg epoch) pool) :
    ∀ thread ∈ pool.threads, ¬ thread.Finished →
      ¬ replaysLate cfg pool thread.request := by
  refine Reachable.induct (motive := fun pool => ∀ thread ∈ pool.threads,
    ¬ thread.Finished → ¬ replaysLate cfg pool thread.request)
    ?start ?step reachable
  case start => exact fun _ _ _ member => nomatch member
  case step =>
    intro pool label later before induction step allowed thread member running
      late
    obtain ⟨index, found⟩ := List.getElem?_of_mem member
    rcases step.thread_cases found with
      ⟨request, rfl, rfl⟩ |
      ⟨old, op, next, env, oldFound, pending, rfl, -, rfl⟩ | ⟨same, -⟩
    · exact allowed.prompt request rfl
        (replaysLate_step nonneg bounded step nofun late)
    · exact induction old (List.mem_of_getElem? oldFound)
        (Thread.not_finished_of_pending pending)
        (replaysLate_step nonneg bounded step nofun late)
    · have oldMember := List.mem_of_getElem? same
      have still : label ≠ .tick := fun isTick =>
        running (allowed.atOnce isTick thread oldMember)
      exact induction thread oldMember running
        (replaysLate_step nonneg bounded step still late)

/-- An event that another thread has honoured is not found unused. -/
theorem Honours.again_used {honoured : FloonetThread} {event event' : Event}
    (reachable : (server ext cfg).Reachable (ReplaysInTime cfg epoch) pool)
    (honouredMember : honoured ∈ pool.threads)
    (honours : Honours honoured event') (member : thread ∈ pool.threads)
    (presents : thread.request.authEvent = some event)
    (sameId : event'.id = event.id)
    (sameDate : event'.createdAt = event.createdAt) {window : Duration}
    {now : Instant} {next : Bool → Handler Response}
    (pending : thread.program =
      .step (.authEventFresh event.id.toHex window now) next) (env : Env) :
    ((Op.authEventFresh event.id.toHex window now).exec env
      pool.state).1 = false := by
  rw [← Bool.not_eq_true]
  intro unused
  have momentary := Reachable.momentary reachable
  obtain ⟨isEvent, taken, takenMember, admits⟩ := honours
  rw [sameId] at admits
  have recorded := Reachable.recorded momentary honoured honouredMember taken
    takenMember _ admits
  obtain ⟨⟨inStep, other, isOther, -, timely⟩, rfl, rfl⟩ :=
    Reachable.presents momentary member pending
  have earlier := Reachable.admitted momentary honoured honouredMember taken
    takenMember _ admits
  obtain ⟨inStep', other', isOther', -, timely'⟩ := earlier
  cases presents.symm.trans isOther
  cases isEvent.symm.trans isOther'
  have sameAge : ∀ time, event'.age time = event.age time := by
    intro time
    rw [Event.age, sameDate]
    rfl
  rw [Event.timely, sameAge] at timely'
  have elapsed := recorded.elapsed env unused
  obtain ⟨early, late⟩ := Event.ages_of_window nonneg bounded inStep' inStep
    timely' timely elapsed
  exact Reachable.prompt nonneg bounded reachable thread member
    (Thread.not_finished_of_pending pending) ⟨event, presents, late, honoured,
      honouredMember, taken, takenMember, admits, early, elapsed⟩

/-- As long as no late replay arrives, no auth event is honoured twice. -/
theorem auth_event_once
    (reachable : (server ext cfg).Reachable (ReplaysInTime cfg epoch) pool)
    {index index' : Nat} {thread thread' : FloonetThread}
    (found : pool.threads[index]? = some thread)
    (found' : pool.threads[index']? = some thread') {event event' : Event}
    (honours : Honours thread event) (honours' : Honours thread' event')
    (sameId : event.id = event'.id)
    (sameDate : event.createdAt = event'.createdAt) : index = index' := by
  refine Reachable.induct (motive := fun pool => ∀ thread thread',
    pool.threads[index]? = some thread →
    pool.threads[index']? = some thread' →
    Honours thread event → Honours thread' event' → index = index')
    ?start ?step reachable thread thread' found found' honours honours'
  case start => exact fun _ _ _ _ found => nomatch found
  case step =>
    intro pool label later before induction step _ thread thread' found found'
      honours honours'
    obtain ⟨old, oldFound, here⟩ := honours.step_cases step found
    obtain ⟨old', oldFound', there⟩ := honours'.step_cases step found'
    have member := List.mem_of_getElem? oldFound
    have member' := List.mem_of_getElem? oldFound'
    rcases here with earlier | ⟨_, _, _, env, pending, presents, isAct, unused⟩
    · rcases there with earlier' |
        ⟨_, _, _, env, pending, presents, isAct, unused⟩
      · exact induction old old' oldFound oldFound' earlier earlier'
      · have used := Honours.again_used nonneg bounded before member earlier
          member' presents sameId sameDate pending env
        rw [used] at unused
        cases unused
    · rcases there with earlier' | ⟨_, _, _, env', _, _, isAct', _⟩
      · have used := Honours.again_used nonneg bounded before member' earlier'
          member presents sameId.symm sameDate.symm pending env
        rw [used] at unused
        cases unused
      · exact (Label.act.inj (isAct.symm.trans isAct')).1

end Prompt

section Schedules

open Sample

instance (epoch : Nat) (world : World) : Decidable (world.inStep epoch) :=
  inferInstanceAs (Decidable (_ = _))

def passesTime : Label World Request Op Op.Ans → Bool
  | .tick => true
  | _ => false

def momentary (epoch : Nat) (pool : FloonetPool)
    (label : Label World Request Op Op.Ans) (later : FloonetPool) : Bool :=
  (!passesTime label ||
    pool.threads.all fun thread => thread.program.result?.isSome) &&
  decide (later.state.inStep epoch)

theorem Momentary.of_momentary {label : Label World Request Op Op.Ans}
    (checked : momentary epoch pool label later = true) :
    Momentary epoch pool label later := by
  simp only [momentary, Bool.and_eq_true, Bool.or_eq_true, List.all_eq_true,
    decide_eq_true_iff, Bool.not_eq_true'] at checked
  refine ⟨?_, checked.2⟩
  rintro rfl thread member
  rcases checked.1 with none | finished
  · cases none
  · obtain ⟨result, done⟩ :=
      Option.isSome_iff_exists.mp (finished thread member)
    exact ⟨result, result?_eq_some.mp done⟩

/-- The request presents an event in the last second in which it is accepted. -/
def presentsLast (cfg : Config) (now : Int) :
    Label World Request Op Op.Ans → Bool
  | .arrive request => request.authEvent.any fun event =>
      decide (event.age now = cfg.authMaxAgeSecs)
  | _ => false

def inTime (cfg : Config) (epoch : Nat) (pool : FloonetPool)
    (label : Label World Request Op Op.Ans) (later : FloonetPool) : Bool :=
  momentary epoch pool label later &&
    !presentsLast cfg pool.state.unixTime.seconds label

theorem ReplaysInTime.of_inTime {label : Label World Request Op Op.Ans}
    (checked : inTime cfg epoch pool label later = true) :
    ReplaysInTime cfg epoch pool label later := by
  rw [inTime, Bool.and_eq_true, Bool.not_eq_true'] at checked
  refine ⟨.of_momentary checked.1, ?_⟩
  rintro request rfl ⟨event, presents, last, -⟩
  have other := checked.2
  simp [presentsLast, presents, last] at other

/-- The step has found this id unused. -/
def findsUnused (eventId : String) : Concurrent.Event Op Op.Ans → Bool
  | ⟨.authEventFresh other _ _, unused⟩ => unused && decide (other = eventId)
  | _ => false

def honoursEvent (event : Event) (thread : FloonetThread) : Bool :=
  decide (thread.request.authEvent = some event) &&
    thread.past.any fun taken => findsUnused event.id.toHex taken.toEvent

theorem admits_iff {taken : Taken World Op Op.Ans} :
    Admits taken eventId ↔ findsUnused eventId taken.toEvent = true := by
  obtain ⟨⟨op, answer⟩, before, after⟩ := taken
  unfold Admits
  constructor
  · rintro ⟨window, now, isLookup⟩
    dsimp only at isLookup
    rw [isLookup]
    simp [findsUnused]
  · intro admits
    cases op with
    | authEventFresh other window now =>
        simp only [findsUnused, Bool.and_eq_true, decide_eq_true_iff] at admits
        obtain ⟨isUnused, rfl⟩ := admits
        exact ⟨window, now, by rw [isUnused]⟩
    | _ => cases admits

theorem honours_iff {event : Event} :
    Honours thread event ↔ honoursEvent event thread = true := by
  simp only [Honours, honoursEvent, Bool.and_eq_true, decide_eq_true_iff,
    List.any_eq_true, admits_iff]

theorem alice_lower : Text.CaseTables.ascii.toLowercase "alice" = "alice" := by
  decide +kernel

/-- A release that is dated five seconds ahead. -/
def releaseAhead : Prepared :=
  Sample.unregister
    "d401a5f559aab01858e9bb3a34a14e208136a79674d6a9bd9812efce7e82b4b7"
    seller "alice" (start + 5) (by decide +kernel) seller_valid alice_lower

/-- The auth event of a release of `alice`. -/
def releaseEvent (id : String) (createdAt : Nat) : Event :=
  authEvent host config (.ofHex id) (.ofHex seller) (.ofNat createdAt) .delete
    "/api/v1/register/alice" []

def aheadEvent : Event :=
  releaseEvent
    "d401a5f559aab01858e9bb3a34a14e208136a79674d6a9bd9812efce7e82b4b7"
    (start + 5)

def nowEvent : Event :=
  releaseEvent
    "d32840e7466744e8839f5474a535d456c4023d22f85e8ef35512ce81c60acb74" start

/-- A request is served and repeated after some seconds. -/
def twice (served : Prepared) (seconds : Nat) : List Market.Move :=
  Market.alone served 0 (node 100 100) 6 ++
    .tick ⟨seconds, seconds * 1000000000, 1⟩ ::
      Market.alone served 1 (node 100 100) 5

/-- The time of the sample world. -/
def sampleEpoch : Nat := start * 1000000000

theorem config_valid : config.validate = .ok () := by rfl

/-- A release dated five seconds ahead is repeated in the last second in which
it is accepted, and goes through both times. -/
theorem auth_event_replayed : config.validate = .ok () ∧
    ∃ pool : FloonetPool, Market.Reachable (Momentary sampleEpoch) pool ∧
      ∃ first second : FloonetThread, pool.threads[0]? = some first ∧
        pool.threads[1]? = some second ∧
          ∃ event, Honours first event ∧ Honours second event := by
  obtain ⟨pool, reachable, first, second⟩ : ∃ pool,
      Market.Reachable (Momentary sampleEpoch) pool ∧
        (pool.threads[0]?.any (honoursEvent aheadEvent) = true ∧
          pool.threads[1]?.any (honoursEvent aheadEvent) = true) :=
    play_reaches (momentary sampleEpoch) (fun _ _ _ => .of_momentary)
      world_initial (twice releaseAhead 65) (by decide +kernel)
  obtain ⟨thread, found, honours⟩ := (Option.any_eq_true _ _).mp first
  obtain ⟨thread', found', honours'⟩ := (Option.any_eq_true _ _).mp second
  exact ⟨config_valid, pool, reachable, thread, thread', found, found',
    aheadEvent, honours_iff.mpr honours, honours_iff.mpr honours'⟩

/-- A release that is repeated after half a minute goes through once. -/
theorem auth_event_once_release : ∃ pool : FloonetPool,
    Market.Reachable (ReplaysInTime config sampleEpoch) pool ∧
      ∃ first second : FloonetThread, pool.threads[0]? = some first ∧
        pool.threads[1]? = some second ∧
          Honours first nowEvent ∧ ¬ Honours second nowEvent := by
  obtain ⟨pool, reachable, first, second⟩ : ∃ pool,
      Market.Reachable (ReplaysInTime config sampleEpoch) pool ∧
        (pool.threads[0]?.any (honoursEvent nowEvent) = true ∧
          pool.threads[1]?.isSome = true) :=
    play_reaches (inTime config sampleEpoch) (fun _ _ _ => .of_inTime)
      world_initial (twice release 30) (by decide +kernel)
  obtain ⟨thread, found, honours⟩ := (Option.any_eq_true _ _).mp first
  obtain ⟨thread', found'⟩ := Option.isSome_iff_exists.mp second
  refine ⟨pool, reachable, thread, thread', found, found',
    honours_iff.mpr honours, fun honours' => ?_⟩
  exact absurd (auth_event_once (by decide) (by decide) reachable found found'
    (honours_iff.mpr honours) honours' rfl rfl) (by decide)

end Schedules

end Floonet
