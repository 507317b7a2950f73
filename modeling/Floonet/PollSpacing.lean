import Floonet.Cooldowns
import Floonet.Polls
import Floonet.PublicStatus

/-!
# The spacing of the polls

The check, the record and the poll of `ensure_paid` are three steps.  The polls
are spaced by their cooldown as long as no request takes the first step while
another is between the steps.
-/

namespace Floonet

open Concurrent Program System

variable {ext : Extern} {cfg : Config}
  {permitted : Permission World Request Op Op.Ans Response}
  {pool later : FloonetPool} {thread : FloonetThread}
  {pubkey resource key : String}

/-! ## Conditions on the moves -/

/-- The step looks the cooldown of the polls up and finds no recent one. -/
def Op.findsNoPoll (key : String) (world : World) : Op → Prop
  | .cooldownActive bucket other window now =>
      bucket = "paidpoll" ∧ other = key ∧
        (world.rate.cooldownActive bucket other window now).1 = false
  | _ => False

/-- No cleanup drops a recent record of a poll, and no request passes the
check while another thread is not clear. -/
def spacesPolls (cfg : Config) (key : String) :
    Permission World Request Op Op.Ans Response :=
  fun pool label _ => ∀ index taken, label = .act index taken →
    ¬ taken.op.drops "paidpoll" key cfg.paidPollInterval pool.state ∧
      (taken.op.findsNoPoll key pool.state → ∀ thread ∈ pool.threads,
        (pollingOf key thread).Clear cfg.paidPollInterval pool.state.instant)

/-- One poll starts an interval after the other. -/
def Poll.Apart (interval : Duration) (poll other : Poll) : Prop :=
  poll.started + interval ≤ other.started ∨
    other.started + interval ≤ poll.started

instance (interval : Duration) (poll other : Poll) :
    Decidable (poll.Apart interval other) :=
  inferInstanceAs (Decidable (_ ∨ _))

theorem Poll.Apart.symm {interval : Duration} {poll other : Poll}
    (apart : poll.Apart interval other) : other.Apart interval poll :=
  Or.symm apart

theorem findsNoPoll_of_passes {env : Env} {op : Op} {world : World}
    (passes : passesCheck key
      ((server ext cfg).taken env op world).toEvent = true) :
    op.findsNoPoll key world := by
  cases op with
  | cooldownActive bucket other window now =>
      have both : (decide (bucket = "paidpoll" ∧ other = key) &&
        !(world.rate.cooldownActive bucket other window now).1) = true := passes
      rw [Bool.and_eq_true, decide_eq_true_iff, Bool.not_eq_true'] at both
      exact ⟨both.1.1, both.1.2, both.2⟩
  | _ => cases passes

/-- The polls are one of the cooldowns. -/
theorem paidpoll_cooldown (cfg : Config) :
    Cooldown cfg "paidpoll" cfg.paidPollInterval :=
  .inr ⟨rfl, rfl⟩

/-! ## Runs -/

/-- What a thread has recorded lasts. -/
theorem Reachable.pollsLast
    (reachable : (server ext cfg).Reachable (spacesPolls cfg key) pool) :
    ∀ thread ∈ pool.threads, ∀ since,
      (pollingOf key thread).Recorded since →
        Lasts "paidpoll" key cfg.paidPollInterval since pool.state := by
  refine Reachable.induct (motive := fun pool => ∀ thread ∈ pool.threads,
    ∀ since, (pollingOf key thread).Recorded since →
      Lasts "paidpoll" key cfg.paidPollInterval since pool.state)
    ?start ?step reachable
  case start => simp
  case step =>
    intro pool label later before induction step allowed thread member since
      recorded
    have onward : ∀ since, Lasts "paidpoll" key cfg.paidPollInterval since
        pool.state → Lasts "paidpoll" key cfg.paidPollInterval since
          later.state :=
      fun since lasts => lasts.step (paidpoll_cooldown cfg) before step
        fun index taken isAct => (allowed index taken isAct).1
    obtain ⟨index, found⟩ := List.getElem?_of_mem member
    rcases step.thread_cases found with
      ⟨request, -, rfl⟩ | ⟨old, op, next, env, oldFound, -, -, after, rfl⟩ |
      ⟨same, -⟩
    · rcases recorded with progress | ⟨poll, member, -⟩
      · cases progress
      · cases member
    · rcases (pollingOf_next key old _ _).recorded recorded with
        earlier | ⟨isRecord, rfl⟩
      · exact onward since (induction old (List.mem_of_getElem? oldFound) since
          earlier)
      · have isRecord : op = .recordOp "paidpoll" key := isRecord
        subst isRecord
        rw [after]
        exact .recorded _ _ _ env pool.state
    · exact onward since (induction thread (List.mem_of_getElem? same) since
        recorded)

/-- When a request passes the check, no thread is on its way to a poll, and
all polls have been started an interval ago. -/
theorem Reachable.passed {label : Label World Request Op Op.Ans}
    (reachable : (server ext cfg).Reachable (spacesPolls cfg key) pool)
    (step : (server ext cfg).Step pool label later)
    (allowed : spacesPolls cfg key pool label later) {index : Nat}
    {taken : Taken World Op Op.Ans} (isAct : label = .act index taken)
    (finds : taken.op.findsNoPoll key pool.state) :
    (∀ thread ∈ pool.threads, ¬ (pollingOf key thread).Busy) ∧
      ∀ poll ∈ pollsOf key pool,
        poll.started + cfg.paidPollInterval ≤ pool.state.instant := by
  have clear := (allowed index taken isAct).2 finds
  -- The check answers that none of the records is recent.
  have old : ∀ thread ∈ pool.threads, ∀ since,
      (pollingOf key thread).Recorded since →
        since + cfg.paidPollInterval ≤ pool.state.instant := by
    cases step with
    | arrive => cases isAct
    | tick => cases isAct
    | @act _ actor op next env found pending =>
        cases isAct
        have member := List.mem_of_getElem? found
        cases op with
        | cooldownActive bucket other window now =>
            obtain ⟨rfl, rfl, inactive⟩ := finds
            have looked : Cooldown cfg "paidpoll" window :=
              (Reachable.within reachable member pending).limited
            rw [looked.unique (paidpoll_cooldown cfg)] at inactive
            intro thread member' since recorded
            exact (Reachable.pollsLast reachable thread member' since
              recorded).elapsed
                (Reachable.timed reachable member pending rfl) inactive
        | _ => exact finds.elim
  constructor
  · intro thread member
    exact ((clear thread member).idle (old thread member)).1
  · intro poll made
    obtain ⟨thread, member, made⟩ := List.mem_flatMap.mp made
    exact ((clear thread member).idle (old thread member)).2 poll made

/-- What is gathered from the threads after one of them has gone on. -/
theorem flatMap_set_perm {α β : Type} (f : α → List β) {old new : α}
    {added : List β} (grows : f new = f old ++ added) {threads : List α}
    {index : Nat} (found : threads[index]? = some old) :
    ((threads.set index new).flatMap f).Perm (added ++ threads.flatMap f) := by
  induction threads generalizing index with
  | nil => cases found
  | cons head tail induction =>
      cases index with
      | zero =>
          cases found
          rw [List.set_cons_zero, List.flatMap_cons, List.flatMap_cons, grows,
            ← List.append_assoc]
          exact List.perm_append_comm.append_right _
      | succ index =>
          rw [List.set_cons_succ, List.flatMap_cons, List.flatMap_cons]
          have rest := (induction found).append_left (f head)
          exact rest.trans (List.perm_append_comm_assoc _ _ _)

/-- A thread that is on its way to a poll was so before, or passes the
check. -/
theorem Step.busy_cases {label : Label World Request Op Op.Ans} {index : Nat}
    (step : (server ext cfg).Step pool label later)
    (found : later.threads[index]? = some thread)
    (busy : (pollingOf key thread).Busy) :
    (∃ old, pool.threads[index]? = some old ∧ (pollingOf key old).Busy) ∨
      ∃ taken, label = .act index taken ∧
        taken.op.findsNoPoll key pool.state := by
  rcases step.thread_cases found with
    ⟨request, -, rfl⟩ | ⟨old, op, next, env, oldFound, -, isAct, -, rfl⟩ |
    ⟨same, -⟩
  · exact absurd rfl busy
  · rcases (pollingOf_next key old _ _).busy busy with passes | earlier
    · exact .inr ⟨_, isAct, findsNoPoll_of_passes passes⟩
    · exact .inl ⟨old, oldFound, earlier⟩
  · exact .inl ⟨thread, same, busy⟩

/-- A move starts at most one poll. -/
theorem Step.polls_cases {label : Label World Request Op Op.Ans}
    (step : (server ext cfg).Step pool label later) (key : String) :
    (pollsOf key later).Perm (pollsOf key pool) ∨
      ∃ (index : Nat) (old thread : FloonetThread) (poll : Poll),
        pool.threads[index]? = some old ∧ (pollingOf key old).Busy ∧
        later.threads[index]? = some thread ∧ ¬ (pollingOf key thread).Busy ∧
        poll.started = pool.state.instant ∧
        (pollsOf key later).Perm (poll :: pollsOf key pool) := by
  cases step with
  | arrive request =>
      left
      simp [pollsOf, pollingOf_fresh, Polling.start]
  | tick => exact .inl (List.Perm.refl _)
  | @act index old op next env found pending =>
      have bound := (List.getElem?_eq_some_iff.mp found).1
      have advanced := pollingOf_next key old
        ((server ext cfg).taken env op pool.state)
        (next ((server ext cfg).exec env op pool.state).1)
      rcases advanced.polls with same | ⟨poll, busy, rested, started, same⟩
      · left
        rw [← List.append_nil (pollingOf key old).polls] at same
        exact flatMap_set_perm (fun thread => (pollingOf key thread).polls)
          same found
      · right
        exact ⟨index, old, _, poll, found, busy,
          List.getElem?_set_self bound, rested, started,
          flatMap_set_perm (fun thread => (pollingOf key thread).polls)
            same found⟩

/-- At most one thread is on its way to a poll, an interval after all polls
that were made, and these are spaced by the interval. -/
structure Spaced (cfg : Config) (key : String) (pool : FloonetPool) :
    Prop where
  single : ∀ {index other : Nat} {thread thread' : FloonetThread},
    pool.threads[index]? = some thread → (pollingOf key thread).Busy →
      pool.threads[other]? = some thread' → (pollingOf key thread').Busy →
        index = other
  rested : ∀ thread ∈ pool.threads, (pollingOf key thread).Busy →
    ∀ poll ∈ pollsOf key pool,
      poll.started + cfg.paidPollInterval ≤ pool.state.instant
  apart : (pollsOf key pool).Pairwise (Poll.Apart cfg.paidPollInterval)

namespace Spaced

variable {label : Label World Request Op Op.Ans}
  (spaced : Spaced cfg key pool)
  (reachable : (server ext cfg).Reachable (spacesPolls cfg key) pool)
  (step : (server ext cfg).Step pool label later)
  (allowed : spacesPolls cfg key pool label later)
include spaced reachable step allowed

theorem single_step {index other : Nat} {thread' : FloonetThread}
    (found : later.threads[index]? = some thread)
    (busy : (pollingOf key thread).Busy)
    (found' : later.threads[other]? = some thread')
    (busy' : (pollingOf key thread').Busy) : index = other := by
  rcases Step.busy_cases step found busy with
    ⟨old, oldFound, oldBusy⟩ | ⟨taken, isAct, finds⟩
  · rcases Step.busy_cases step found' busy' with
      ⟨old', oldFound', oldBusy'⟩ | ⟨taken, isAct, finds⟩
    · exact spaced.single oldFound oldBusy oldFound' oldBusy'
    · have idle := (Reachable.passed reachable step allowed isAct finds).1
      exact absurd oldBusy (idle old (List.mem_of_getElem? oldFound))
  · rcases Step.busy_cases step found' busy' with
      ⟨old', oldFound', oldBusy'⟩ | ⟨taken', isAct', -⟩
    · have idle := (Reachable.passed reachable step allowed isAct finds).1
      exact absurd oldBusy' (idle old' (List.mem_of_getElem? oldFound'))
    · rw [isAct] at isAct'
      cases isAct'
      rfl

/-- While a thread is on its way, no other thread starts a poll. -/
theorem polls_step (member : thread ∈ later.threads)
    (busy : (pollingOf key thread).Busy) :
    (pollsOf key later).Perm (pollsOf key pool) := by
  rcases Step.polls_cases step key with
    same | ⟨other, starter, starter', poll, starterFound, starterBusy, found',
      rested, -⟩
  · exact same
  obtain ⟨index, found⟩ := List.getElem?_of_mem member
  rcases Step.busy_cases step found busy with
    ⟨old, oldFound, oldBusy⟩ | ⟨taken, isAct, finds⟩
  · have same := spaced.single oldFound oldBusy starterFound starterBusy
    subst same
    rw [found] at found'
    cases found'
    exact absurd busy rested
  · have idle := (Reachable.passed reachable step allowed isAct finds).1
    exact absurd starterBusy (idle starter (List.mem_of_getElem? starterFound))

theorem rested_step (member : thread ∈ later.threads)
    (busy : (pollingOf key thread).Busy) :
    ∀ poll ∈ pollsOf key later,
      poll.started + cfg.paidPollInterval ≤ later.state.instant := by
  intro poll made
  rw [(spaced.polls_step reachable step allowed member busy).mem_iff] at made
  have onward := instant_evolution.step step
  obtain ⟨index, found⟩ := List.getElem?_of_mem member
  rcases Step.busy_cases step found busy with
    ⟨old, oldFound, oldBusy⟩ | ⟨taken, isAct, finds⟩
  · have rested := spaced.rested old (List.mem_of_getElem? oldFound) oldBusy
    exact Nat.le_trans (rested poll made) onward
  · have rested := (Reachable.passed reachable step allowed isAct finds).2
    exact Nat.le_trans (rested poll made) onward

omit reachable allowed in
theorem apart_step :
    (pollsOf key later).Pairwise (Poll.Apart cfg.paidPollInterval) := by
  have symmetric : ∀ {poll other : Poll},
      poll.Apart cfg.paidPollInterval other →
        other.Apart cfg.paidPollInterval poll := Poll.Apart.symm
  rcases Step.polls_cases step key with
    same | ⟨index, old, _, poll, found, busy, -, -, started, new⟩
  · exact (same.pairwise_iff symmetric).mpr spaced.apart
  · rw [new.pairwise_iff symmetric, List.pairwise_cons]
    refine ⟨fun other made => .inr ?_, spaced.apart⟩
    rw [started]
    exact spaced.rested old (List.mem_of_getElem? found) busy other made

end Spaced

theorem Reachable.spaced
    (reachable : (server ext cfg).Reachable (spacesPolls cfg key) pool) :
    Spaced cfg key pool := by
  refine Reachable.induct (motive := Spaced cfg key) ?start ?step reachable
  case start =>
    intro state _
    exact ⟨nofun, nofun, .nil⟩
  case step =>
    intro pool label later before spaced step allowed
    constructor
    · exact spaced.single_step before step allowed
    · intro thread member busy
      exact spaced.rested_step before step allowed member busy
    · exact spaced.apart_step step

/-- As long as no recent record is dropped and no request passes the check
while another poll is under way, the polls about a grant start an interval
apart.  Every poll that `ensure_paid` makes is among the polls about the grant
that it has read. -/
theorem polls_spaced
    (reachable : (server ext cfg).Reachable
      (spacesPolls cfg (pollKey pubkey resource)) pool) :
    (pollsOf (pollKey pubkey resource) pool).Pairwise
        (Poll.Apart cfg.paidPollInterval) ∧
      ∀ thread ∈ pool.threads, PollsCounted thread :=
  ⟨(Reachable.spaced reachable).apart, Reachable.pollsCounted reachable⟩

/-! ## Schedules -/

section Schedules

open Sample

/-- The thread is idle and its polls have been started an interval ago. -/
def atRest (key : String) (interval : Duration) (now : Instant)
    (thread : FloonetThread) : Bool :=
  decide ((pollingOf key thread).progress = .idle) &&
    (pollingOf key thread).polls.all fun poll =>
      decide (poll.started + interval ≤ now)

/-- The map has few keys, and all threads rest when one of them looks
a cooldown up. -/
def settledChecks (cfg : Config) (key : String) (pool : FloonetPool)
    (label : Label World Request Op Op.Ans) (later : FloonetPool) : Bool :=
  fewKeys pool label later && match label with
    | .act _ ⟨⟨.cooldownActive _ _ _ _, _⟩, _, _⟩ => pool.threads.all
        (atRest key cfg.paidPollInterval pool.state.instant)
    | _ => true

theorem clear_of_atRest {interval : Duration} {now : Instant}
    (rests : atRest key interval now thread = true) :
    (pollingOf key thread).Clear interval now := by
  simp only [atRest, Bool.and_eq_true, decide_eq_true_iff, List.all_eq_true]
    at rests
  obtain ⟨idle, started⟩ := rests
  refine ⟨?_, fun since progress => ?_, fun poll made _ => started poll made⟩
  · rw [idle]
    exact nofun
  · rw [idle] at progress
    cases progress

theorem spacesPolls_of_settledChecks {label : Label World Request Op Op.Ans}
    (settles : settledChecks cfg key pool label later = true) :
    spacesPolls cfg key pool label later := by
  rintro index ⟨⟨op, answer⟩, before, after⟩ rfl
  obtain ⟨few, checked⟩ := Bool.and_eq_true_iff.mp settles
  refine ⟨Op.not_drops_of_fewKeys few, fun finds => ?_⟩
  cases op with
  | cooldownActive =>
      intro thread member
      exact clear_of_atRest (List.all_eq_true.mp checked thread member)
  | _ => exact finds.elim

/-- The status is asked for after the quote, and again five seconds later. -/
def patient : List WriteMarket.Move :=
  WriteMarket.alone askQuote 0 (backend "first" "pending") 8 ++
    WriteMarket.alone askStatus 1 (backend "first" "pending") 8 ++
    .tick ⟨5, 5000000000, 1⟩ ::
      WriteMarket.alone askStatus 2 (backend "first" "pending") 8

/-- The status is asked for twice at the same time: both requests check the
cooldown before either records its poll. -/
def overlapping : List WriteMarket.Move :=
  let step (index count : Nat) : List WriteMarket.Move :=
    List.replicate count (.act index (backend "first" "pending"))
  WriteMarket.alone askQuote 0 (backend "first" "pending") 8 ++
    [.arrive askStatus, .arrive askStatus] ++
    step 1 6 ++ step 2 6 ++ step 1 2 ++ step 2 2

/-- The polls about the write grant of the seller. -/
def sellerPolls (pool : FloonetPool) : List Poll :=
  pollsOf (pollKey seller "write") pool

theorem polls_spaced_patient : ∃ pool : FloonetPool,
    WriteMarket.Reachable
      (spacesPolls writeConfig (pollKey seller "write")) pool ∧
    sellerPolls pool = [⟨0, 0⟩, ⟨5000000000, 5000000000⟩] ∧
    (sellerPolls pool).Pairwise
      (Poll.Apart writeConfig.paidPollInterval) := by
  have reached : ∃ pool, WriteMarket.Reachable
      (spacesPolls writeConfig (pollKey seller "write")) pool ∧
      sellerPolls pool = [⟨0, 0⟩, ⟨5000000000, 5000000000⟩] :=
    play_reaches (settledChecks writeConfig (pollKey seller "write"))
      (fun _ _ _ => spacesPolls_of_settledChecks) world_initial patient
      (by decide +kernel)
  obtain ⟨pool, reachable, isPolls⟩ := reached
  exact ⟨pool, reachable, isPolls, (polls_spaced reachable).1⟩

/-- Two requests at the same time poll the backend at the same time. -/
theorem polls_overlap : ∃ pool : FloonetPool,
    WriteMarket.Reachable anyMove pool ∧
    ¬ (pollsOf (pollKey seller "write") pool).Pairwise
      (Poll.Apart writeConfig.paidPollInterval) := by
  have reached : ∃ pool, WriteMarket.Reachable anyMove pool ∧
      sellerPolls pool = [⟨0, 0⟩, ⟨0, 0⟩] :=
    play_reaches (fun _ _ _ => true) (fun _ _ _ _ => trivial) world_initial
      overlapping (by decide +kernel)
  obtain ⟨pool, reachable, isPolls⟩ := reached
  refine ⟨pool, reachable, ?_⟩
  rw [show pollsOf _ pool = _ from isPolls]
  decide +kernel

end Schedules

end Floonet
