import Floonet.Client
import Floonet.Runs

/-!
# Ownership of names

Registration, release and the claim transaction read the owner of a name and
write its row in separate steps.  The row is guarded by the primary key, the
partial index on active keys and the owner check of the claim transaction; the
release has no such guard.
-/

namespace Floonet

open Concurrent System

variable {ext : Extern} {cfg : Config}
  {permitted : Permission World Request Op Op.Ans Response}

/-! ## Taking a name away -/

/-- The request whose step took a name from `owner` was entitled to. -/
def TakenRightfully (pool : FloonetPool) (label : Label World Request Op Op.Ans)
    (owner : String) : Prop :=
  ∃ index taken thread, label = .act index taken ∧
    pool.threads[index]? = some thread ∧
    ((∃ raw headers, thread.request = .unregister raw headers ∧
        headers.signer = some owner) ∨
      ∃ headers body offer excessHex kernelHeight now,
        thread.request = .claim headers body ∧
          taken.op =
            .db (.runClaimTxn offer excessHex kernelHeight now) ∧
          ∃ stored ∈ pool.state.db.offers.rows,
            stored.offerId = offer.offerId ∧ stored.sellerPubkey = owner)

/-- A release is past its ownership check and has not written yet. -/
def Releasing (thread : FloonetThread) (name : String) : Prop :=
  thread.program.nextOp = some (.db (.releaseName name))

instance (thread : FloonetThread) (name : String) :
    Decidable (Releasing thread name) :=
  inferInstanceAs (Decidable (_ = _))

/-- Every name that a move takes away was taken rightfully; in particular a
release only hits a name of the key that authenticated it. -/
def OwnersRespected (pool : FloonetPool)
    (label : Label World Request Op Op.Ans) (later : FloonetPool) : Prop :=
  (∀ name owner, pool.state.db.lookup name = some owner →
    later.state.db.lookup name ≠ some owner →
      TakenRightfully pool label owner) ∧
  ∀ index taken thread name owner, label = .act index taken →
    pool.threads[index]? = some thread → Releasing thread name →
    pool.state.db.lookup name = some owner →
      thread.request.signer = some owner

/-- A move makes a key the owner of a name only while no release of that name
by another key is on its way from the check to the write. -/
def releasesSettled : Permission World Request Op Op.Ans Response :=
  fun pool _ later => ∀ name owner,
    later.state.db.lookup name = some owner →
    pool.state.db.lookup name ≠ some owner →
    ∀ thread ∈ pool.threads, Releasing thread name →
      thread.request.signer = some owner

/-- A thread that is about to release a name has just looked it up. -/
theorem Releasing.leads {pool : FloonetPool} {thread : FloonetThread}
    {name : String}
    (reachable : (server ext cfg).Reachable permitted pool)
    (member : thread ∈ pool.threads) (releasing : Releasing thread name) :
    ∃ raw headers authPubkey, thread.request = .unregister raw headers ∧
      headers.signer = some authPubkey ∧
      History.EndsWith thread.events (.db (.lookup name))
        (some authPubkey) := by
  obtain ⟨next, pending⟩ := Program.nextOp_eq_some.mp releasing
  have leads := Reachable.leads reachable member pending
  generalize thread.request = request at leads
  cases leads with
  | silent silent => cases silent
  | unregister signed owner => exact ⟨_, _, _, rfl, signed, owner⟩

/-- While a release is on its way, its name is inactive or still belongs to
the key that asked for the release. -/
theorem releasing_owner {pool : FloonetPool}
    (reachable : (server ext cfg).Reachable releasesSettled pool) :
    ∀ thread ∈ pool.threads, ∀ name, Releasing thread name →
      ∀ owner, pool.state.db.lookup name = some owner →
        thread.request.signer = some owner := by
  refine Reachable.localInvariant (fun thread world =>
    ∀ name, Releasing thread name → ∀ owner,
      world.db.lookup name = some owner → thread.request.signer = some owner)
    ?arrive ?own ?others reachable
  case arrive =>
    intro pool request before name releasing owner owned
    have arrived := before.step (.arrive pool request)
      (fun name owner gained kept => absurd gained kept)
    obtain ⟨_, _, _, _, _, earlier, ended⟩ := releasing.leads arrived
      (List.mem_append_right pool.threads List.mem_cons_self)
    have length := congrArg List.length ended
    simp [fresh, Thread.events] at length
  case own =>
    intro pool later thread op next env before after member pending sameState
      newMember _ name releasing owner owned
    obtain ⟨raw, headers, authPubkey, isRequest, signed, earlier, ended⟩ :=
      releasing.leads after newMember
    rw [Thread.advance_events] at ended
    have lookedUp := List.singleton_inj.mp (List.append_inj' ended rfl).2
    obtain ⟨rfl, answer⟩ := taken_eq lookedUp
    have unchanged : later.state.db = pool.state.db := by
      rw [sameState]
      rfl
    have isOwner : some authPubkey = some owner := by
      rw [← owned, unchanged]
      exact answer
    rw [Thread.advance_request] at isRequest ⊢
    rw [isRequest, ← isOwner]
    exact signed
  case others =>
    intro pool later label index thread before move allowed found _ induction
      name releasing owner owned
    by_cases kept : pool.state.db.lookup name = some owner
    · exact induction name releasing owner kept
    · exact allowed name owner owned kept thread
        (List.mem_of_getElem? found) releasing

/-- As long as names change hands only while no foreign release is on its way,
nobody loses a name to a stranger. -/
theorem owners_respected {pool later : FloonetPool}
    {label : Label World Request Op Op.Ans}
    (reachable : (server ext cfg).Reachable releasesSettled pool)
    (step : (server ext cfg).Step pool label later) :
    OwnersRespected pool label later := by
  have releases := releasing_owner reachable
  constructor
  · intro name owner owned lost
    cases step with
    | arrive => exact absurd owned lost
    | tick => exact absurd owned lost
    | @act index thread op next env found pending =>
        have member := List.mem_of_getElem? found
        have leads := Reachable.leads reachable member pending
        refine ⟨index, _, thread, rfl, found, ?_⟩
        rcases (op.exec_effect env pool.state).loses owned lost with
          rfl | ⟨offer, excessHex, kernelHeight, now, rfl, named, seller⟩
        · left
          have releasing : Releasing thread name :=
            Program.nextOp_eq_some.mpr ⟨next, pending⟩
          obtain ⟨raw, headers, -, isRequest, -⟩ :=
            releasing.leads reachable member
          have signed := releases thread member name releasing owner owned
          rw [isRequest] at signed
          exact ⟨raw, headers, isRequest, signed⟩
        · right
          generalize isRequest : thread.request = request at leads
          cases leads with
          | silent silent => cases silent
          | claim _ _ seen =>
              obtain ⟨sameId, stored, storedMember, evolves⟩ :=
                Reachable.sawOfferId reachable member seen
              exact ⟨_, _, offer, _, _, _, rfl, rfl, stored, storedMember,
                evolves.offerId, evolves.sellerPubkey.trans seller⟩
  · intro index taken thread name owner _ found releasing owned
    exact releases thread (List.mem_of_getElem? found) name releasing owner
      owned

section Schedules

open Sample

def noRelease (pool : FloonetPool) : Bool :=
  pool.threads.all fun thread => match thread.program.nextOp with
    | some (.db (.releaseName _)) => false
    | _ => true

theorem releasesSettled_of_noRelease {pool later : FloonetPool}
    {label : Label World Request Op Op.Ans} (none : noRelease pool = true) :
    releasesSettled pool label later := by
  intro name owner _ _ thread member releasing
  have quiet := List.all_eq_true.mp none thread member
  rw [releasing] at quiet
  cases quiet

/-- Register a name and start its release, up to the write. -/
def releaseAlice : List Market.Move :=
  Market.alone registerSeller 0 (node 100 100) 10 ++
    Market.alone release 1 (node 100 100) 6

theorem owners_respected_release : ∃ pool label later,
    Market.Reachable releasesSettled pool ∧ Market.Step pool label later ∧
      pool.state.db.lookup "alice" = some seller ∧
      OwnersRespected pool label later := by
  have reached : ∃ pool, Market.Reachable releasesSettled pool ∧
      (pool.state.db.lookup "alice" = some seller ∧
        (pool.threads[1]?.any
          fun thread => decide (Releasing thread "alice")) = true) :=
    play_reaches (fun pool _ _ => noRelease pool)
      (fun _ _ _ => releasesSettled_of_noRelease) world_initial releaseAlice
      (by decide +kernel)
  obtain ⟨pool, reachable, owned, releasing⟩ := reached
  obtain ⟨thread, found, releasing⟩ := (Option.any_eq_true _ _).mp releasing
  obtain ⟨next, pending⟩ :=
    Program.nextOp_eq_some.mp (of_decide_eq_true releasing)
  have step : Market.Step pool _ _ := .act (node 100 100) found pending
  exact ⟨pool, _, _, reachable, step, owned, owners_respected reachable step⟩

/-- Two releases by the seller overlap; between them the rival registers the
name. -/
def strangerSchedule : List Market.Move :=
  releaseAlice ++ Market.alone releaseAgain 2 (node 100 100) 8 ++
    Market.alone registerRival 3 (node 100 100) 10

/-- The release that is left over takes the name from the rival. -/
theorem stranger_released : ∃ pool label later,
    Market.Reachable anyMove pool ∧ Market.Step pool label later ∧
      pool.state.db.lookup "alice" = some rival ∧
      ¬ OwnersRespected pool label later := by
  have reached : ∃ pool, Market.Reachable anyMove pool ∧
      (pool.state.db.lookup "alice" = some rival ∧
        (pool.threads[1]?.any fun thread =>
          decide (Releasing thread "alice") &&
            decide (thread.request.signer = some seller)) = true) :=
    play_reaches (fun _ _ _ => true) (fun _ _ _ _ => trivial) world_initial
      strangerSchedule (by decide +kernel)
  obtain ⟨pool, reachable, owned, pending⟩ := reached
  obtain ⟨thread, found, pending⟩ := (Option.any_eq_true _ _).mp pending
  simp only [Bool.and_eq_true, decide_eq_true_iff] at pending
  obtain ⟨releasing, signed⟩ := pending
  obtain ⟨next, pending⟩ := Program.nextOp_eq_some.mp releasing
  refine ⟨pool, _, _, reachable, .act (node 100 100) found pending, owned,
    fun respected => ?_⟩
  have signedByRival :=
    respected.2 1 _ thread "alice" rival rfl found releasing owned
  rw [signed] at signedByRival
  revert signedByRival
  decide +kernel

end Schedules

/-- The condition of `owners_respected` cannot be relaxed: a move after which
every next move respects the owners has met it. -/
theorem settled_of_respected (env : Env) {pool later : FloonetPool}
    {label : Label World Request Op Op.Ans}
    (step : (server ext cfg).Step pool label later)
    (respected : ∀ next last, (server ext cfg).Step later next last →
      OwnersRespected later next last) :
    releasesSettled pool label later := by
  intro name owner owned gained thread member releasing
  obtain ⟨index, found⟩ := List.getElem?_of_mem member
  obtain ⟨next, pending⟩ := Program.nextOp_eq_some.mp releasing
  have kept : later.threads[index]? = some thread := by
    cases step with
    | arrive request =>
        exact List.getElem?_append_left
          (List.getElem?_eq_some_iff.mp found).1 ▸ found
    | tick elapsed => exact found
    | @act acting actor op rest env actorFound actorPending =>
        by_cases same : acting = index
        · subst same
          rw [found] at actorFound
          cases actorFound
          rw [pending] at actorPending
          cases actorPending
          rcases pool.state.db.releaseName_cases name
            pool.state.unixTime.seconds with
            ⟨done, -⟩ | ⟨names, old, done, -, reassigned⟩
          · simp only [server, Op.exec, DbOp.exec, done] at owned
            exact absurd owned gained
          · simp only [server, Op.exec, DbOp.exec, done] at owned
            rw [reassigned name, if_pos rfl] at owned
            cases owned
        · rw [List.getElem?_set_ne same]
          exact found
  have release := respected _ _ (.act env kept pending)
  exact release.2 index _ thread name owner rfl kept releasing owned

end Floonet
