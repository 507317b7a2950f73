import Floonet.Footprint

/-!
# Polls about a grant

`ensure_paid` checks the cooldown of the polls about a grant, records a poll
and makes it.  How far a thread has come with these three steps, and which
polls it has made, can be read off its past.
-/

namespace Floonet

open Concurrent Program System

variable {ext : Extern} {cfg : Config}
  {permitted : Permission World Request Op Op.Ans Response}
  {pool : FloonetPool} {thread : FloonetThread}
  {pubkey resource key : String}

/-! ## What a thread does about a grant -/

/-- The key of the polls about a grant. -/
def pollKey (pubkey resource : String) : String := s!"{pubkey}:{resource}"

/-- How far a thread has come with a poll: it has found no recent one, or it
has recorded its own. -/
inductive Progress where
  | idle
  | passed
  | recorded (since : Instant)
deriving DecidableEq

/-- A poll that was made, and when. -/
structure Poll where
  recorded : Instant
  started : Instant
deriving DecidableEq

structure Polling where
  progress : Progress
  polls : List Poll

/-- The cooldown of the polls was looked up and is over. -/
def passesCheck (key : String) : Concurrent.Event Op Op.Ans → Bool
  | ⟨.cooldownActive bucket other _ _, active⟩ =>
      decide (bucket = "paidpoll" ∧ other = key) && !active
  | _ => false

def Op.polls : Op → Bool
  | .invoiceStatus _ => true
  | _ => false

namespace Polling

/-- A poll is made right after its record, and recorded right after the
check. -/
def next (key : String) (polling : Polling)
    (taken : Taken World Op Op.Ans) : Polling :=
  if passesCheck key taken.toEvent then ⟨.passed, polling.polls⟩
  else match polling.progress with
    | .idle => polling
    | .passed =>
        if taken.op = .recordOp "paidpoll" key then
          ⟨.recorded taken.before.instant, polling.polls⟩
        else ⟨.idle, polling.polls⟩
    | .recorded since =>
        if taken.op.polls then
          ⟨.idle, polling.polls ++ [⟨since, taken.before.instant⟩]⟩
        else ⟨.idle, polling.polls⟩

def start : Polling := ⟨.idle, []⟩

/-- The thread is on its way from the check to the poll. -/
def Busy (polling : Polling) : Prop := polling.progress ≠ .idle

/-- The thread has recorded a poll. -/
def Recorded (polling : Polling) (since : Instant) : Prop :=
  polling.progress = .recorded since ∨
    ∃ poll ∈ polling.polls, poll.recorded = since

/-- The thread does not stand between the check and its record, and a poll
whose record is no longer recent has been started as long ago. -/
structure Clear (interval : Duration) (now : Instant) (polling : Polling) :
    Prop where
  unpassed : polling.progress ≠ .passed
  waiting : ∀ since, polling.progress = .recorded since →
    now < since + interval
  started : ∀ poll ∈ polling.polls, poll.recorded + interval ≤ now →
    poll.started + interval ≤ now

/-- What the next step of a thread can be. -/
inductive Next (key : String) (polling : Polling)
    (taken : Taken World Op Op.Ans) : Polling → Prop where
  | checks (passes : passesCheck key taken.toEvent = true) :
      Next key polling taken ⟨.passed, polling.polls⟩
  | records (progress : polling.progress = .passed)
      (records : taken.op = .recordOp "paidpoll" key) :
      Next key polling taken ⟨.recorded taken.before.instant, polling.polls⟩
  | starts {since : Instant} (progress : polling.progress = .recorded since)
      (polls : taken.op.polls = true) :
      Next key polling taken
        ⟨.idle, polling.polls ++ [⟨since, taken.before.instant⟩]⟩
  | rests : Next key polling taken ⟨.idle, polling.polls⟩

variable {polling : Polling} {taken : Taken World Op Op.Ans}

theorem next_next : Next key polling taken (polling.next key taken) := by
  unfold next
  split
  · rename_i passes
    exact .checks passes
  split
  · rename_i progress
    obtain ⟨_, polls⟩ := polling
    cases progress
    exact .rests
  · rename_i progress
    split
    · rename_i records
      exact .records progress records
    · exact .rests
  · rename_i since progress
    split
    · rename_i polls
      exact .starts progress polls
    · exact .rests

theorem next_check (passes : passesCheck key taken.toEvent = true) :
    polling.next key taken = ⟨.passed, polling.polls⟩ := by
  simp [next, passes]

theorem next_record (progress : polling.progress = .passed)
    (isRecord : taken.op = .recordOp "paidpoll" key) :
    (polling.next key taken).progress = .recorded taken.before.instant := by
  obtain ⟨⟨op, answer⟩, before, after⟩ := taken
  subst isRecord
  simp [next, progress, passesCheck]

theorem next_poll {since : Instant}
    (progress : polling.progress = .recorded since)
    (polls : taken.op.polls = true) :
    (polling.next key taken).polls =
      polling.polls ++ [⟨since, taken.before.instant⟩] := by
  obtain ⟨⟨op, answer⟩, before, after⟩ := taken
  cases op with
  | invoiceStatus => simp [next, progress, passesCheck, Op.polls]
  | _ => cases polls

namespace Next

variable {after : Polling}

theorem busy (next : Next key polling taken after) (busy : after.Busy) :
    passesCheck key taken.toEvent = true ∨ polling.Busy := by
  cases next with
  | checks passes => exact .inl passes
  | records progress =>
      right
      simp [Busy, progress]
  | starts => exact absurd rfl busy
  | rests => exact absurd rfl busy

theorem recorded (next : Next key polling taken after) {since : Instant}
    (recorded : after.Recorded since) : polling.Recorded since ∨
      taken.op = .recordOp "paidpoll" key ∧ since = taken.before.instant := by
  rcases recorded with progress | ⟨poll, member, rfl⟩
  · cases next with
    | records _ records =>
        cases progress
        exact .inr ⟨records, rfl⟩
    | _ => cases progress
  · left
    cases next with
    | starts progress =>
        rcases List.mem_append.mp member with old | new
        · exact .inr ⟨poll, old, rfl⟩
        · rw [List.mem_singleton.mp new]
          exact .inl progress
    | _ => exact .inr ⟨poll, member, rfl⟩

theorem polls (next : Next key polling taken after) :
    after.polls = polling.polls ∨ ∃ poll, polling.Busy ∧ ¬ after.Busy ∧
      poll.started = taken.before.instant ∧
      after.polls = polling.polls ++ [poll] := by
  cases next with
  | starts progress =>
      refine .inr ⟨_, ?_, fun busy => busy rfl, rfl, rfl⟩
      simp [Busy, progress]
  | _ => exact .inl rfl

end Next

/-- Once all records are old, a clear thread is idle and its polls have been
started as long ago. -/
theorem Clear.idle {interval : Duration} {now : Instant}
    (clear : polling.Clear interval now)
    (old : ∀ since, polling.Recorded since → since + interval ≤ now) :
    ¬ polling.Busy ∧ ∀ poll ∈ polling.polls, poll.started + interval ≤ now := by
  constructor
  · intro busy
    cases progress : polling.progress with
    | idle => exact busy progress
    | passed => exact clear.unpassed progress
    | recorded since =>
        have waiting := clear.waiting since progress
        exact Nat.not_lt.mpr (old since (.inl progress)) waiting
  · intro poll member
    exact clear.started poll member (old _ (.inr ⟨poll, member, rfl⟩))

end Polling

/-- What a thread has done about the polls with this key. -/
def pollingOf (key : String) (thread : FloonetThread) : Polling :=
  thread.past.foldl (Polling.next key) .start

/-- The polls with this key that the threads have made. -/
def pollsOf (key : String) (pool : FloonetPool) : List Poll :=
  pool.threads.flatMap fun thread => (pollingOf key thread).polls

theorem pollingOf_advance (key : String) (thread : FloonetThread)
    (taken : Taken World Op Op.Ans) (rest : Handler Response) :
    pollingOf key (thread.advance taken rest) =
      (pollingOf key thread).next key taken := by
  simp [pollingOf, List.foldl_append]

theorem pollingOf_next (key : String) (thread : FloonetThread)
    (taken : Taken World Op Op.Ans) (rest : Handler Response) :
    Polling.Next key (pollingOf key thread) taken
      (pollingOf key (thread.advance taken rest)) := by
  rw [pollingOf_advance]
  exact Polling.next_next

theorem pollingOf_fresh (request : Request) :
    pollingOf key ((server ext cfg).fresh request) = .start := rfl

/-! ## The polls of `ensure_paid` -/

/-- The check was passed and the poll recorded, and nothing since. -/
def History.Throttled (past : History) (key : String) : Prop :=
  ∃ earlier check, passesCheck key check = true ∧
    past = earlier ++ [check, ⟨.recordOp "paidpoll" key, ()⟩]

/-- A poll is about the invoice of a grant that was read, and comes right after
the check and the record with the key of that grant. -/
def Op.throttled (past : History) (op : Op) : Prop :=
  op.polls = true → ∃ pubkey resource grant,
    op = .invoiceStatus grant.invoiceId ∧
      past.Saw (.db (.grant pubkey resource)) (some grant) ∧
      past.Throttled (pollKey pubkey resource)

section Programs

variable {op : Op}

theorem Op.throttled_quiet (quiet : op.polls = false) (past : History) :
    op.throttled past := by
  intro polls
  rw [quiet] at polls
  cases polls

/-- Programs outside the paid layer make no polls. -/
theorem throttled_of_free {Res : Type} {program : Handler Res}
    {auth : Option Event} (uses : program.Uses (Op.Within cfg false auth)) :
    program.Uses Op.throttled := by
  intro past
  refine (uses past).mono (fun past' op _ within => ?_) fun _ _ _ _ => trivial
  apply op.throttled_quiet
  cases op with
  | invoiceStatus => cases within.charged rfl
  | _ => rfl

theorem newGrant_throttled (price : Nat) :
    (newGrant cfg pubkey resource price).Uses Op.throttled := by
  unfold newGrant
  refine uses_perform_bind (Op.throttled_quiet rfl) fun answer => ?_
  split
  · exact uses_perform_bind (Op.throttled_quiet rfl) fun _ => uses_done _
  · exact uses_done _

theorem pollGrant_throttled {grant : Grant} (price : Nat) {past : History}
    (read : past.Saw (.db (.grant pubkey resource)) (some grant)) :
    (pollGrant cfg grant pubkey resource price).Every Op.throttled
      (fun _ _ => True) past := by
  unfold pollGrant App.cooldownActive
  refine every_perform_bind.mpr ⟨Op.throttled_quiet rfl _, fun now => ?_⟩
  refine every_perform_bind.mpr ⟨Op.throttled_quiet rfl _, fun active => ?_⟩
  split
  · trivial
  rename_i inactive
  refine every_perform_bind.mpr ⟨Op.throttled_quiet rfl _, fun recorded => ?_⟩
  refine every_perform_bind.mpr ⟨fun _ => ?_, fun answer => ?_⟩
  · refine ⟨pubkey, resource, grant, rfl, ?_, past ++ [⟨.instantNow, now⟩],
      ⟨.cooldownActive "paidpoll" (pollKey pubkey resource) _ now, active⟩, ?_,
      List.append_assoc ..⟩
    · exact ((read.append _).append _).append _
    · rw [Bool.not_eq_true] at inactive
      rw [inactive]
      simp [passesCheck]
  split
  · split
    · exact every_perform_bind.mpr
        ⟨Op.throttled_quiet rfl _, fun _ => trivial⟩
    · split
      · exact newGrant_throttled price _
      · trivial
  · trivial

theorem ensurePaid_throttled :
    (ensurePaid cfg pubkey resource).Uses Op.throttled := by
  unfold ensurePaid
  split
  · exact uses_done _
  intro past
  refine every_perform_bind.mpr ⟨Op.throttled_quiet rfl _, fun found => ?_⟩
  split
  · exact newGrant_throttled _ _
  · split
    · trivial
    · exact pollGrant_throttled _ (History.saw_last _ _ _)

theorem paidStatus_throttled (raw : String) (headers : Headers) :
    (paidStatus ext cfg raw headers).Uses Op.throttled := by
  unfold paidStatus App.allowRead App.allow
  refine uses_perform_bind (Op.throttled_quiet rfl) fun now => ?_
  refine uses_perform_bind (Op.throttled_quiet rfl) fun allowed => ?_
  split
  · exact uses_done _
  dsimp only
  split
  · exact uses_done _
  split
  · exact uses_done _
  refine uses_perform_bind (Op.throttled_quiet rfl) fun found => ?_
  split
  · exact uses_done _
  split
  · exact uses_done _
  refine ensurePaid_throttled.bind fun outcome => ?_
  split <;> exact uses_done _

theorem quote_throttled (headers : Headers) (body : Bytes) :
    (quote ext cfg headers body).Uses Op.throttled := by
  unfold quote
  refine (throttled_of_free (authorize_uses ext cfg (by decide) headers .post _
    body)).bind fun result => ?_
  split
  · exact uses_done _
  split
  · split
    · exact uses_done _
    refine ensurePaid_throttled.bind fun outcome => ?_
    split <;> exact uses_done _
  · exact uses_done _

theorem registerPayment_throttled (authPubkey : String) :
    (registerPayment cfg authPubkey).Uses Op.throttled := by
  unfold registerPayment
  split
  · exact uses_done _
  refine ensurePaid_throttled.bind fun outcome => ?_
  split <;> exact uses_done _

theorem acquireName_throttled (authPubkey name : String) :
    (acquireName cfg authPubkey name pubkey).Uses Op.throttled := by
  unfold acquireName
  refine uses_perform_bind (Op.throttled_quiet rfl) fun inserted => ?_
  split
  · exact uses_done _
  · split
    · exact uses_perform_bind (Op.throttled_quiet rfl) fun _ => uses_done _
    · exact uses_done _
  · exact uses_done _
  · exact uses_done _

theorem register_throttled (headers : Headers) (body : Bytes) :
    (register ext cfg headers body).Uses Op.throttled := by
  unfold register App.cooldownActive
  refine (throttled_of_free (authorize_uses ext cfg (by decide) headers .post _
    body)).bind fun result => ?_
  split
  · exact uses_done _
  refine uses_perform_bind (Op.throttled_quiet rfl) fun now => ?_
  refine uses_perform_bind (Op.throttled_quiet rfl) fun active => ?_
  split
  · exact uses_done _
  split
  · exact uses_done _
  unfold registerName
  refine uses_perform_bind (Op.throttled_quiet rfl) fun owner => ?_
  split
  · split <;> exact uses_done _
  refine uses_perform_bind (Op.throttled_quiet rfl) fun existing => ?_
  split
  · exact uses_done _
  refine (registerPayment_throttled _).bind fun payment => ?_
  split
  · exact uses_done _
  · exact acquireName_throttled _ _

/-- The webhook confirms an invoice without `ensure_paid`. -/
def Request.notifies : Request → Bool
  | .goblinpayWebhook _ _ => true
  | _ => false

theorem routes_throttled {request : Request}
    (other : request.notifies = false) :
    (routes ext cfg request).Uses Op.throttled := by
  have uses := routes_uses ext cfg request
  cases request with
  | register headers body => exact register_throttled headers body
  | quote headers body => exact quote_throttled headers body
  | paidStatus raw headers => exact paidStatus_throttled raw headers
  | goblinpayWebhook => cases other
  | _ => exact throttled_of_free uses

end Programs

/-! ## Runs -/

theorem progress_of_throttled
    (throttled : History.Throttled thread.events key) :
    ∃ since, (pollingOf key thread).progress = .recorded since := by
  obtain ⟨earlier, check, passes, isEvents⟩ := throttled
  obtain ⟨before, last, isPast, -, isLast⟩ :=
    List.map_eq_append_iff.mp isEvents
  obtain ⟨checked, rest, rfl, rfl, isRest⟩ := List.map_eq_cons_iff.mp isLast
  obtain ⟨recorded, rest, rfl, isRecord, isNil⟩ :=
    List.map_eq_cons_iff.mp isRest
  rw [List.map_eq_nil_iff] at isNil
  subst isNil
  refine ⟨recorded.before.instant, ?_⟩
  rw [pollingOf, isPast, List.foldl_append, List.foldl_cons, List.foldl_cons,
    List.foldl_nil]
  apply Polling.next_record
  · rw [Polling.next_check passes]
  · exact congrArg Concurrent.Event.op isRecord

/-- Every poll of `ensure_paid` that the thread has made is counted under the
key of the grant that it is about. -/
def PollsCounted (thread : FloonetThread) : Prop :=
  thread.request.notifies = false → ∀ taken ∈ thread.past,
    taken.op.polls = true → ∃ pubkey resource grant,
      taken.op = .invoiceStatus grant.invoiceId ∧
        History.Saw thread.events (.db (.grant pubkey resource))
          (some grant) ∧
        ∃ poll ∈ (pollingOf (pollKey pubkey resource) thread).polls,
          poll.started = taken.before.instant

theorem Reachable.pollsCounted
    (reachable : (server ext cfg).Reachable permitted pool) :
    ∀ thread ∈ pool.threads, PollsCounted thread := by
  refine Reachable.localInvariant (fun thread _ => PollsCounted thread)
    ?arrive ?own (fun _ _ _ _ _ _ _ _ _ _ counted => counted) reachable
  case arrive =>
    intro pool request _ _ taken member
    cases member
  case own =>
    intro pool later thread op next env before _ member pending _ _ counted
      other taken takenMember polls
    rw [Thread.advance_past, List.mem_append, List.mem_singleton]
      at takenMember
    rcases takenMember with old | rfl
    · obtain ⟨pubkey, resource, grant, isPoll, saw, poll, made, started⟩ :=
        counted other taken old polls
      refine ⟨pubkey, resource, grant, isPoll, ?_, poll, ?_, started⟩
      · rw [Thread.advance_events]
        exact saw.append _
      rcases (pollingOf_next (pollKey pubkey resource) thread _ _).polls with
        same | ⟨new, -, -, -, same⟩
      · rw [same]
        exact made
      · rw [same]
        exact List.mem_append_left _ made
    · have every := before.follows thread member
      have throttled : op.throttled thread.events := by
        have every := every.every (routes_throttled other [])
        rw [pending] at every
        exact every.1
      obtain ⟨pubkey, resource, grant, isPoll, saw, throttled⟩ :=
        throttled polls
      obtain ⟨since, progress⟩ := progress_of_throttled throttled
      refine ⟨pubkey, resource, grant, isPoll, ?_,
        ⟨since, pool.state.instant⟩, ?_, rfl⟩
      · rw [Thread.advance_events]
        exact saw.append _
      · rw [pollingOf_advance, Polling.next_poll progress polls]
        exact List.mem_append_right _ List.mem_cons_self

end Floonet
