import Floonet.Plugin.PaidWrites
import Floonet.Python.Json

/-!
# The conversation with the relay

The policy reads requests, one a line, and writes a reply to each before it
reads the next.  Whatever the lines are, the replies keep step with them: each
is one line of printable ASCII, from which the decision can be read back.
-/

namespace Floonet.Plugin

open Python Validation

variable {Secs : Type} [LinearOrder Secs] [Add Secs] [OfNat Secs 10]
  {tables : Unicode} {loads : Str → Except Exn Value} {cfg : Cfg Secs}
  {state : PluginState Secs}

/-! ## The loop -/

/-- What one turn of the loop gets: what `readline` returns or raises, and the
outside of the decision. -/
structure Turn (Secs : Type) where
  readline : Except Exn Str
  outside : Outside Secs

def Action.text : Action → Str
  | .accept => str "accept"
  | .reject => str "reject"

def Reply.members (reply : Reply) : List (Str × Str) :=
  [(str "id", reply.id), (str "action", reply.action.text),
    (str "msg", reply.msg)]

/-- The line that answers a request, without its end. -/
def Reply.toJson (reply : Reply) : List Char := dumps reply.members

/-- The reply to a line.  A line that is no JSON is turned away like a request
that raises. -/
def answer (tables : Unicode) (loads : Str → Except Exn Value)
    (cfg : Cfg Secs) (line : Str) (outside : Outside Secs)
    (state : PluginState Secs) : Reply × PluginState Secs :=
  match loads line with
  | .error _ => (⟨[], .reject, str "policy error"⟩, state)
  | .ok req =>
      match decide tables req cfg outside state with
      | (.ok reply, state) => (reply, state)
      | (.error _, state) => (⟨[], .reject, str "policy error"⟩, state)

/-- The loop of `main`: what it writes, and the state it ends in. -/
def serve (tables : Unicode) (loads : Str → Except Exn Value)
    (cfg : Cfg Secs) :
    List (Turn Secs) → PluginState Secs → List Char × PluginState Secs
  | [], state => ([], state)
  | turn :: turns, state =>
      match turn.readline with
      -- Outside the `try`: the exception ends the process.
      | .error _ => ([], state)
      | .ok line =>
          if line.isEmpty then ([], state)
          else if (strip line).isEmpty then serve tables loads cfg turns state
          else
            let (reply, state) :=
              answer tables loads cfg (strip line) turn.outside state
            let (written, state) := serve tables loads cfg turns state
            (reply.toJson ++ '\n' :: written, state)

/-! ## The requests and their replies -/

/-- A line that holds a request, without the white space around it. -/
structure PolicyRequest (Secs : Type) where
  line : Str
  outside : Outside Secs

/-- The turn reads a line; at the end of the input there is none. -/
def Turn.reads (turn : Turn Secs) : Bool :=
  turn.readline.toOption.any fun line => !line.isEmpty

def Turn.request (turn : Turn Secs) : Option (PolicyRequest Secs) :=
  match turn.readline with
  | .error _ => none
  | .ok line =>
      if (strip line).isEmpty then none else some ⟨strip line, turn.outside⟩

/-- The requests before the input ends. -/
def requests (turns : List (Turn Secs)) : List (PolicyRequest Secs) :=
  (turns.takeWhile Turn.reads).filterMap Turn.request

/-- The decision that a request asks for, if it is JSON. -/
def PolicyRequest.call (loads : Str → Except Exn Value)
    (request : PolicyRequest Secs) : Option (Call Secs) :=
  (loads request.line).toOption.map fun req => ⟨req, request.outside⟩

/-- The answer to a request. -/
def PolicyRequest.answer (tables : Unicode) (loads : Str → Except Exn Value)
    (cfg : Cfg Secs) (request : PolicyRequest Secs) (state : PluginState Secs) :
    Reply × PluginState Secs :=
  Plugin.answer tables loads cfg request.line request.outside state

/-- The state that some requests leave behind. -/
def stateAfter (tables : Unicode) (loads : Str → Except Exn Value)
    (cfg : Cfg Secs) (asked : List (PolicyRequest Secs))
    (state : PluginState Secs) : PluginState Secs :=
  asked.foldl (fun state request => (request.answer tables loads cfg state).2)
    state

/-- The replies to some requests. -/
def replies (tables : Unicode) (loads : Str → Except Exn Value)
    (cfg : Cfg Secs) :
    List (PolicyRequest Secs) → PluginState Secs → List Reply
  | [], _ => []
  | request :: asked, state =>
      (request.answer tables loads cfg state).1 ::
        replies tables loads cfg asked (request.answer tables loads cfg state).2

/-- The loop writes a line for each request. -/
theorem serve_written (turns : List (Turn Secs)) (state : PluginState Secs) :
    (serve tables loads cfg turns state).1 =
      (replies tables loads cfg (requests turns) state).flatMap
        fun reply => reply.toJson ++ ['\n'] := by
  induction turns generalizing state with
  | nil => rfl
  | cons turn turns induction =>
      unfold requests at *
      rw [serve]
      cases read : turn.readline with
      | error exn =>
          rw [List.takeWhile_cons_of_neg (by simp [Turn.reads, read,
            Except.toOption])]
          rfl
      | ok line =>
          dsimp only
          split
          case isTrue ended =>
            rw [List.takeWhile_cons_of_neg (by simp [Turn.reads, read,
              Except.toOption, ended])]
            rfl
          case isFalse more =>
            rw [List.takeWhile_cons_of_pos (by simp [Turn.reads, read,
              Except.toOption, more])]
            split
            case isTrue blank =>
              rw [List.filterMap_cons_none (by simp [Turn.request, read,
                blank])]
              exact induction state
            case isFalse asks =>
              have isRequest : turn.request =
                  some ⟨strip line, turn.outside⟩ := by
                simp [Turn.request, read, asks]
              rw [List.filterMap_cons_some isRequest, replies,
                List.flatMap_cons, ← induction, List.append_assoc]
              rfl

theorem length_replies (asked : List (PolicyRequest Secs))
    (state : PluginState Secs) :
    (replies tables loads cfg asked state).length = asked.length := by
  induction asked generalizing state with
  | nil => rfl
  | cons request asked induction => exact congrArg _ (induction _)

/-- The reply to a request is given in the state that the requests before it
leave behind. -/
theorem replies_get (before after : List (PolicyRequest Secs))
    (request : PolicyRequest Secs) (state : PluginState Secs) :
    (replies tables loads cfg (before ++ request :: after)
      state)[before.length]? = some (request.answer tables loads cfg
        (stateAfter tables loads cfg before state)).1 := by
  induction before generalizing state with
  | nil => rfl
  | cons first before induction => exact induction _

/-! ## What a reply says -/

/-- A message of the check is not empty. -/
def Explains (check : Check Secs) : Prop :=
  ∀ req cfg outside state msg,
    (check req cfg outside state).1 = .ok (some msg) → msg ≠ []

omit [LinearOrder Secs] [Add Secs] [OfNat Secs 10] in
theorem onGiftwrap_explains {check : List Value → Option Str}
    (explains : ∀ tags msg, check tags = some msg → msg ≠ []) :
    Explains (pureCheck fun req _ => onGiftwrap check req : Check Secs) := by
  intro req cfg outside state msg refused
  unfold pureCheck onGiftwrap at refused
  simp only [bind_eq_ok] at refused
  obtain ⟨event, -, kind, -, refused⟩ := refused
  split at refused
  · cases refused
  simp only [bind_eq_ok] at refused
  obtain ⟨tags, -, refused⟩ := refused
  split at refused
  · exact explains _ msg (Except.ok.inj refused)
  · cases refused
    decide

omit [LinearOrder Secs] [Add Secs] [OfNat Secs 10] in
theorem checkKind_explains : Explains (pureCheck checkKind : Check Secs) := by
  intro req cfg outside state msg refused
  simp only [pureCheck, checkKind, bind_eq_ok] at refused
  obtain ⟨event, -, kind, -, refused⟩ := refused
  split at refused
  · split at refused
    · cases refused
      decide
    · cases refused
  · cases refused
    decide

omit [LinearOrder Secs] [Add Secs] [OfNat Secs 10] in
theorem checkAuthorizedAuthors_explains :
    Explains (pureCheck (checkAuthorizedAuthors tables) : Check Secs) := by
  intro req cfg outside state msg refused
  simp only [pureCheck, checkAuthorizedAuthors, bind_eq_ok] at refused
  obtain ⟨event, -, kind, -, locked, -, refused⟩ := refused
  split at refused
  · cases refused
  simp only [bind_eq_ok] at refused
  obtain ⟨event', -, pubkey, -, refused⟩ := refused
  split at refused
  · split at refused
    · cases refused
      decide
    · cases refused
  · cases refused
    decide

omit [LinearOrder Secs] [Add Secs] [OfNat Secs 10] in
theorem checkAuth_explains : Explains (pureCheck checkAuth : Check Secs) := by
  intro req cfg outside state msg refused
  simp only [pureCheck, checkAuth] at refused
  split at refused
  · cases refused
  simp only [bind_eq_ok] at refused
  obtain ⟨authed, -, refused⟩ := refused
  split at refused
  · cases refused
  · cases refused
    decide

omit [LinearOrder Secs] [Add Secs] [OfNat Secs 10] in
theorem payAnswer_explains {verdict : Option Bool} {msg : Str}
    (refused : payAnswer verdict = some msg) : msg ≠ [] := by
  unfold payAnswer at refused
  split at refused
  · cases refused
    decide
  · cases refused
    decide
  · cases refused

theorem checkPaid_explains : Explains (checkPaid : Check Secs) := by
  intro req cfg outside state msg refused
  unfold checkPaid at refused
  split at refused
  · cases refused
  cases isAuthed : authedKey req with
  | error exn =>
      rw [isAuthed] at refused
      cases refused
  | ok key =>
      rw [isAuthed] at refused
      cases key with
      | none =>
          cases refused
          decide
      | some authed =>
          dsimp only at refused
          rcases checkPaidKey_cases cfg state authed outside with
            ⟨_, _, _, _, same⟩ | ⟨-, same⟩
          · rw [same] at refused
            exact payAnswer_explains (Except.ok.inj refused)
          · rw [same] at refused
            exact payAnswer_explains (Except.ok.inj refused)

theorem checks_explain (check : Check Secs) (member : check ∈ checks tables) :
    Explains check := by
  simp only [checks, earlierChecks, List.map_cons, List.map_nil,
    List.cons_append, List.nil_append, List.mem_cons, List.not_mem_nil,
    or_false] at member
  rcases member with rfl | rfl | rfl | rfl | rfl | rfl | rfl
  · exact checkKind_explains
  · refine onGiftwrap_explains fun tags msg refused => ?_
    split at refused <;> cases refused
    decide
  · refine onGiftwrap_explains fun tags msg refused => ?_
    dsimp only at refused
    split at refused
    · split at refused <;> cases refused
      decide
    · cases refused
      decide
  · refine onGiftwrap_explains fun tags msg refused => ?_
    split at refused <;> cases refused
    decide
  · exact checkAuthorizedAuthors_explains
  · exact checkAuth_explains
  · exact checkPaid_explains

theorem reject_ne_accept : Action.reject ≠ .accept := by decide

theorem policyError_explains :
    str "policy error" = [] ↔ Action.reject = Action.accept :=
  iff_of_false (by decide) reject_ne_accept

omit [LinearOrder Secs] [Add Secs] [OfNat Secs 10] in
theorem runChecks_explains (eventId : Str) (req : Value) (cfg : Cfg Secs)
    (outside : Outside Secs) (state : PluginState Secs)
    {these : List (Check Secs)}
    (explain : ∀ check ∈ these, Explains check) :
    ((runChecks eventId req cfg outside state these).1.msg = [] ↔
      (runChecks eventId req cfg outside state these).1.action = .accept) ∧
    (runChecks eventId req cfg outside state these).1.id = eventId := by
  induction these generalizing state with
  | nil => simp [runChecks]
  | cons check rest induction =>
      rw [List.forall_mem_cons] at explain
      rw [runChecks]
      rcases outcome : check req cfg outside state with ⟨result, after⟩
      rcases result with exn | msg | msg
      · exact ⟨policyError_explains, rfl⟩
      · exact induction after explain.2
      · refine ⟨iff_of_false ?_ reject_ne_accept, rfl⟩
        exact explain.1 req cfg outside state msg (congrArg Prod.fst outcome)

/-- What a reply says about a request. -/
structure Answers (tables : Unicode) (loads : Str → Except Exn Value)
    (cfg : Cfg Secs) (request : PolicyRequest Secs)
    (state : PluginState Secs) (reply : Reply) : Prop where
  accepts : reply.action = .accept ↔ ∃ req, loads request.line = .ok req ∧
    Accepts tables req cfg request.outside state
  id : ∀ req fields, loads request.line = .ok req → HasEvent req fields →
    reply.id = eventIdOf fields
  noId : (∀ req fields, loads request.line = .ok req → ¬ HasEvent req fields) →
    reply.id = []
  explains : reply.msg = [] ↔ reply.action = .accept

theorem decide_answers {req : Value} {outside : Outside Secs} {reply : Reply}
    (decided : (decide tables req cfg outside state).1 = .ok reply) :
    (reply.action = .accept ↔ Accepts tables req cfg outside state) ∧
      (∀ fields, HasEvent req fields → reply.id = eventIdOf fields) ∧
      ((∀ fields, ¬ HasEvent req fields) → reply.id = []) ∧
      (reply.msg = [] ↔ reply.action = .accept) := by
  refine ⟨?_, ?_⟩
  · unfold Accepts
    rw [decided]
    constructor
    · exact fun accept => ⟨reply, rfl, accept⟩
    · rintro ⟨other, same, accept⟩
      rwa [Except.ok.inj same]
  · unfold Plugin.decide at decided
    unfold HasEvent
    cases got : req.get (str "event") with
    | error exn =>
        rw [got] at decided
        cases decided
    | ok value =>
        rw [got] at decided
        cases value with
        | dict fields =>
            obtain ⟨explains, isId⟩ := runChecks_explains (eventIdOf fields)
              req cfg outside state (@checks_explain _ _ _ _ tables)
            rw [← Except.ok.inj decided]
            refine ⟨?_, fun none => absurd rfl (none fields), explains⟩
            rintro other ⟨⟩
            exact isId
        | _ =>
            cases decided
            exact ⟨nofun, fun _ => rfl,
              iff_of_false (by decide) reject_ne_accept⟩

theorem PolicyRequest.answer_answers (request : PolicyRequest Secs)
    (state : PluginState Secs) :
    Answers tables loads cfg request state
      (request.answer tables loads cfg state).1 := by
  unfold PolicyRequest.answer Plugin.answer
  cases loaded : loads request.line with
  | error exn =>
      have none : ∀ req, loads request.line ≠ .ok req :=
        fun req isReq => nomatch loaded.symm.trans isReq
      constructor
      · exact ⟨nofun, fun ⟨req, isReq, _⟩ => absurd isReq (none req)⟩
      · exact fun req fields isReq _ => absurd isReq (none req)
      · exact fun _ => rfl
      · exact policyError_explains
  | ok req =>
      have only : ∀ other, loads request.line = .ok other → other = req :=
        fun other isOther => Except.ok.inj (isOther.symm.trans loaded)
      dsimp only
      rcases decided : decide tables req cfg request.outside state with
        ⟨exn | reply, after⟩
      · have undecided : ∀ reply,
            (decide tables req cfg request.outside state).1 ≠ .ok reply := by
          rw [decided]
          exact nofun
        constructor
        · refine ⟨nofun, ?_⟩
          rintro ⟨other, isReq, reply, replied, -⟩
          cases only other isReq
          exact absurd replied (undecided reply)
        · intro other fields isReq event
          cases only other isReq
          unfold Plugin.decide at undecided
          rw [event] at undecided
          exact absurd rfl (undecided _)
        · exact fun _ => rfl
        · exact policyError_explains
      · obtain ⟨accepts, id, noId, explains⟩ :=
          decide_answers (congrArg Prod.fst decided)
        constructor
        · rw [accepts]
          constructor
          · exact fun accepted => ⟨req, loaded, accepted⟩
          · rintro ⟨other, isReq, accepted⟩
            cases only other isReq
            exact accepted
        · intro other fields isReq event
          cases only other isReq
          exact id fields event
        · exact fun none => noId fun fields event => none req fields loaded event
        · exact explains

theorem PolicyRequest.answer_state (request : PolicyRequest Secs)
    (state : PluginState Secs) :
    (request.answer tables loads cfg state).2 =
      match request.call loads with
      | some call => call.after tables cfg state
      | none => state := by
  unfold PolicyRequest.answer Plugin.answer PolicyRequest.call
  cases loads request.line with
  | error exn => rfl
  | ok req =>
      dsimp only [Except.toOption, Option.map_some, Call.after]
      rcases decide tables req cfg request.outside state with
        ⟨exn | reply, after⟩
      · rfl
      · rfl

/-- The decisions that some requests ask for are served in a row. -/
theorem stateAfter_serves {asked : List (PolicyRequest Secs)}
    (onward : asked.Pairwise fun earlier later =>
      earlier.outside.now ≤ later.outside.now) :
    Serves tables cfg (asked.filterMap (PolicyRequest.call loads))
      (stateAfter tables loads cfg asked .initial) := by
  induction asked using List.reverseRecOn with
  | nil => exact .start
  | append_singleton asked request induction =>
      obtain ⟨earlier, -, later⟩ := List.pairwise_append.mp onward
      have served := induction earlier
      rw [stateAfter, List.foldl_concat, ← stateAfter,
        PolicyRequest.answer_state, List.filterMap_append]
      cases isCall : request.call loads with
      | none =>
          rw [List.filterMap_cons_none isCall, List.filterMap_nil,
            List.append_nil]
          exact served
      | some call =>
          rw [List.filterMap_cons_some isCall, List.filterMap_nil]
          refine served.call call fun before member => ?_
          obtain ⟨first, isFirst, asks⟩ := List.mem_filterMap.mp member
          have outside : ∀ {one : PolicyRequest Secs} {its : Call Secs},
              one.call loads = some its → its.outside = one.outside := by
            intro one its isIts
            obtain ⟨req, -, rfl⟩ := Option.map_eq_some_iff.mp isIts
            rfl
          rw [outside isCall, outside asks]
          exact later first isFirst request List.mem_cons_self

/-! ## The conversation -/

/-- The line is the reply, in printable ASCII that can be read back. -/
structure Conveys (line : List Char) (reply : Reply) : Prop where
  printable : Printable line
  reads : readObject line = some (reply.members.map (Prod.map utf16 utf16))

theorem Reply.toJson_conveys (reply : Reply) : Conveys reply.toJson reply :=
  ⟨printable_dumps _, readObject_dumps (List.cons_ne_nil _ _)⟩

section Samples

/-- A request of the relay with its line feed. -/
def noticeLine : Str := str "\x7b\"event\": \x7b\"id\": \"aé\", \"kind\": 7\x7d\x7d\n"

def noticeValue : Value :=
  .dict [(str "event", .dict [(str "id", .str (str "aé")),
    (str "kind", .int 7)])]

/-- A parser that knows this line. -/
def loadsNotice (line : Str) : Except Exn Value :=
  if line = strip noticeLine then .ok noticeValue else .error .other

def noticeTurns : List (Turn Nat) :=
  [⟨.ok (str " \n"), unreachable 1⟩, ⟨.ok (str "ping\n"), unreachable 2⟩,
    ⟨.ok noticeLine, unreachable 3⟩, ⟨.ok [], unreachable 4⟩]

example : (serve Unicode.basic loadsNotice defaultCfg noticeTurns .initial).1 =
    ("\x7b\"id\": \"\", \"action\": \"reject\", \"msg\": \"policy error\"\x7d\n" ++
      "\x7b\"id\": \"a\\u00e9\", \"action\": \"accept\", \"msg\": \"\"\x7d\n").toList := by
  decide +kernel

end Samples

end Floonet.Plugin
