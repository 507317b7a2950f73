import Floonet.Client
import Floonet.Runs

/-!
# The table of names

Whatever the interleaving, `lookup` and `name_of` are inverse to each other,
active names are valid names of valid keys, and the responses 201 and 409 of
registrations and claims tell what happened to the names.
-/

namespace Floonet

open Concurrent System Validation

variable {ext : Extern} {cfg : Config}
  {permitted : Permission World Request Op Op.Ans Response}

/-! ## Valid names and keys -/

structure ValidName (cfg : Config) (name : String) : Prop where
  valid : validName name cfg.nameMin cfg.nameMax = true
  unreserved : isReserved name cfg.extraReserved = false

theorem registerRequest_valid {authPubkey name pubkey : String} {body : Bytes}
    (accepted : registerRequest ext cfg authPubkey body = .ok (name, pubkey)) :
    ValidName cfg name ∧ validPubkeyHex pubkey = true := by
  simp only [registerRequest, bind_eq_ok, require_eq_ok, demand_eq_ok,
    pure_eq_ok] at accepted
  obtain ⟨req, -, -, validKey, -, -, -, valid, -, unreserved, same⟩ := accepted
  cases same
  rw [Bool.not_eq_true'] at unreserved
  exact ⟨⟨valid, unreserved⟩, validKey⟩

theorem lodgeRequest_buyer {authPubkey : String} {body : Bytes}
    {lodgement : Lodgement}
    (accepted : lodgeRequest ext cfg authPubkey body = .ok lodgement) :
    validPubkeyHex lodgement.buyer = true := by
  simp only [lodgeRequest, bind_eq_ok, require_eq_ok, demand_eq_ok,
    pure_eq_ok] at accepted
  obtain ⟨_, _, _, _, _, _, _, _, _, _, _, _, _, _, _, _, _, _, _, validKey, _,
    _, _, _, _, _, rfl⟩ := accepted
  exact validKey

/-- Names in use are valid and owned by valid keys, and so are the keys that
may acquire a name by a claim. -/
structure Db.WellNamed (cfg : Config) (db : Db) : Prop where
  names : ∀ name owner, db.lookup name = some owner →
    ValidName cfg name ∧ validPubkeyHex owner = true
  buyers : ∀ row ∈ db.offers.rows, validPubkeyHex row.buyerPubkey = true

theorem Db.WellNamed.empty : Db.empty.WellNamed cfg where
  names _ _ owned := nomatch owned
  buyers _ member := nomatch member

theorem Db.WellNamed.reassigned {before after : Db} {changed : String}
    {newOwner : Option String} (wellNamed : before.WellNamed cfg)
    (reassigned : before.Reassigned after changed newOwner)
    (valid : ∀ owner ∈ newOwner,
      ValidName cfg changed ∧ validPubkeyHex owner = true)
    (name owner : String) (owned : after.lookup name = some owner) :
    ValidName cfg name ∧ validPubkeyHex owner = true := by
  rw [reassigned name] at owned
  by_cases same : name = changed
  · rw [if_pos same] at owned
    rw [same]
    exact valid owner owned
  · rw [if_neg same] at owned
    exact wellNamed.names name owner owned

theorem Effect.wellNamed {request : Request} {past : History} {now : Int}
    {before after : Db} {op : Op} {answer : op.Ans}
    (effect : Effect now before after op answer)
    (leads : Leads ext cfg request past op)
    (seen : ∀ offerId offer, past.SawOffer offerId offer →
      ∃ current ∈ before.offers.rows, offer.Evolves current)
    (wellNamed : before.WellNamed cfg) : after.WellNamed cfg := by
  have names : after.names = before.names → ∀ name owner,
      after.lookup name = some owner →
        ValidName cfg name ∧ validPubkeyHex owner = true := by
    intro same name owner owned
    rw [Db.lookup_congr same] at owned
    exact wellNamed.names name owner owned
  constructor
  · cases effect with
    | kept _ same => exact names same.names
    | registered _ _ reassigned _ _ =>
        apply wellNamed.reassigned reassigned
        rintro owner ⟨⟩
        cases leads with
        | silent silent => cases silent
        | register _ accepted => exact registerRequest_valid accepted
    | released _ reassigned _ _ =>
        exact wellNamed.reassigned reassigned nofun
    | lodged _ same _ _ => exact names same
    | died _ _ _ same _ _ => exact names same
    | revised same _ _ => exact names same
    | claimed claimed =>
        apply wellNamed.reassigned claimed.reassigned
        rintro owner ⟨⟩
        refine ⟨(wellNamed.names _ _ claimed.owned).1, ?_⟩
        cases leads with
        | silent silent => cases silent
        | claim _ _ saw =>
            obtain ⟨current, member, evolves⟩ := seen _ _ saw
            rw [← evolves.buyerPubkey]
            exact wellNamed.buyers current member
  · intro row member
    rcases effect.offer_origin member with ⟨old, oldMember, evolves⟩ | lodged
    · rw [evolves.buyerPubkey]
      exact wellNamed.buyers old oldMember
    · obtain ⟨rfl, -⟩ := lodged
      cases leads with
      | silent silent => cases silent
      | lodge _ accepted => exact lodgeRequest_buyer accepted

theorem Reachable.wellNamed {pool : FloonetPool}
    (reachable : (server ext cfg).Reachable permitted pool) :
    pool.state.db.WellNamed cfg := by
  apply Reachable.invariant (fun world => world.db.WellNamed cfg) ?start ?act
    ?tick reachable
  case start =>
    intro world initial
    rw [initial.db]
    exact .empty
  case act =>
    intro pool index thread op next env before induction found pending _
    have member := List.mem_of_getElem? found
    exact (op.exec_effect env pool.state).wellNamed
      (Reachable.leads before member pending)
      (fun _ _ saw => (Reachable.sawOfferId before member saw).2) induction
  case tick => exact fun _ _ induction => induction

/-! ## Responses -/

/-- The thread has made `name` active for `key`, and changed no other name in
that step. -/
def Acquired (thread : FloonetThread) (name key : String) : Prop :=
  ∃ taken ∈ thread.past, taken.op.reassigns taken.answer = true ∧
    taken.before.db.Reassigned taken.after.db name (some key)

/-- The pair of name and key that the request of the thread asks for became
active. -/
def AcquiredOwn (ext : Extern) (cfg : Config) (pool : FloonetPool)
    (thread : FloonetThread) : Prop :=
  match thread.request with
  | .register headers body => ∃ authPubkey name pubkey,
      headers.signer = some authPubkey ∧
        registerRequest ext cfg authPubkey body = .ok (name, pubkey) ∧
        Acquired thread name pubkey
  | .claim headers body => ∃ offerId proof, ∃ offer ∈ pool.state.db.offers.rows,
      claimRequest ext body = .ok (offerId, proof) ∧ offer.offerId = offerId ∧
        headers.signer = some offer.buyerPubkey ∧
        Acquired thread offer.name offer.buyerPubkey
  | _ => True

/-- The thread left the names alone if it serves a registration or a claim. -/
def KeptNames (thread : FloonetThread) : Prop :=
  match thread.request with
  | .register _ _ | .claim _ _ => ∀ taken ∈ thread.past,
      taken.after.db.names = taken.before.db.names
  | _ => True

section Responses

variable {pool : FloonetPool} {thread : FloonetThread}

theorem History.KeepsNames.keptNames
    (reachable : (server ext cfg).Reachable permitted pool)
    (member : thread ∈ pool.threads)
    (keeps : History.KeepsNames thread.events) :
    ∀ taken ∈ thread.past, taken.after.db.names = taken.before.db.names := by
  intro taken takenMember
  have effect := Reachable.takenEffect reachable member takenMember
  have isEvent : taken.toEvent ∈ thread.events :=
    Thread.mem_events.mpr ⟨taken, takenMember, rfl⟩
  exact effect.names (keeps taken.toEvent isEvent)

theorem acquired_of_insertName
    (reachable : (server ext cfg).Reachable permitted pool)
    (member : thread ∈ pool.threads) {name pubkey : String} {count : Nat}
    (saw : History.Saw thread.events (.db (.insertName name pubkey))
      (.ok (count + 1))) : Acquired thread name pubkey := by
  obtain ⟨taken, takenMember, isEvent⟩ := Thread.mem_events.mp saw
  have effect := Reachable.takenEffect reachable member takenMember
  obtain ⟨⟨op, answer⟩, before, after⟩ := taken
  cases isEvent
  refine ⟨_, takenMember, rfl, ?_⟩
  cases effect with
  | kept silent => cases silent
  | registered _ _ reassigned _ _ => exact reassigned

theorem acquired_of_runClaimTxn
    (reachable : (server ext cfg).Reachable permitted pool)
    (member : thread ∈ pool.threads) {offer : OfferRow} {excessHex : String}
    {kernelHeight : Option Int} {now : Int}
    (saw : History.Saw thread.events
      (.db (.runClaimTxn offer excessHex kernelHeight now)) (.ok ())) :
    Acquired thread offer.name offer.buyerPubkey := by
  obtain ⟨taken, takenMember, isEvent⟩ := Thread.mem_events.mp saw
  have effect := Reachable.takenEffect reachable member takenMember
  obtain ⟨⟨op, answer⟩, before, after⟩ := taken
  cases isEvent
  refine ⟨_, takenMember, rfl, ?_⟩
  cases effect with
  | kept silent => cases silent
  | claimed claimed => exact claimed.reassigned

theorem acquiredOwn_of_created
    (reachable : (server ext cfg).Reachable permitted pool)
    (member : thread ∈ pool.threads) {response : Response}
    (finished : thread.program = .done response)
    (created : response.status = .created) :
    AcquiredOwn ext cfg pool thread := by
  have answered := Reachable.answered reachable member finished
  unfold AcquiredOwn
  cases isRequest : thread.request with
  | register headers body =>
      rw [isRequest] at answered
      obtain ⟨authPubkey, name, pubkey, count, signed, accepted, saw⟩ :=
        answered.1 created
      exact ⟨authPubkey, name, pubkey, signed, accepted,
        acquired_of_insertName reachable member saw⟩
  | claim headers body =>
      rw [isRequest] at answered
      obtain ⟨offerId, proof, offer, _, _, signed, accepted, seen, saw⟩ :=
        answered.1 created
      obtain ⟨sameId, current, currentMember, evolves⟩ :=
        Reachable.sawOfferId reachable member seen
      refine ⟨offerId, proof, current, currentMember, accepted,
        evolves.offerId.trans sameId, ?_, ?_⟩
      · rw [evolves.buyerPubkey]
        exact signed
      · rw [evolves.name, evolves.buyerPubkey]
        exact acquired_of_runClaimTxn reachable member saw
  | _ => trivial

theorem keptNames_of_conflict
    (reachable : (server ext cfg).Reachable permitted pool)
    (member : thread ∈ pool.threads) {response : Response}
    (finished : thread.program = .done response)
    (conflict : response.status = .conflict) : KeptNames thread := by
  have answered := Reachable.answered reachable member finished
  unfold KeptNames
  cases isRequest : thread.request with
  | register headers body =>
      rw [isRequest] at answered
      exact (answered.2 conflict).keptNames reachable member
  | claim headers body =>
      rw [isRequest] at answered
      exact (answered.2 conflict).keptNames reachable member
  | _ => trivial

end Responses

/-- The names in every reachable state. -/
theorem names_consistent {pool : FloonetPool}
    (reachable : (server ext cfg).Reachable anyMove pool) :
    (∀ name key, pool.state.db.lookup name = some key ↔
      pool.state.db.nameOf key = some name) ∧
    (∀ name key, pool.state.db.lookup name = some key →
      validName name cfg.nameMin cfg.nameMax = true ∧
        isReserved name cfg.extraReserved = false ∧
        validPubkeyHex key = true) ∧
    ∀ thread ∈ pool.threads, ∀ response, thread.program = .done response →
      (response.status = .created → AcquiredOwn ext cfg pool thread) ∧
        (response.status = .conflict → KeptNames thread) := by
  refine ⟨fun name key => Db.lookup_eq_some_iff_nameOf, fun name key owned => ?_,
    fun thread member response finished => ⟨?_, ?_⟩⟩
  · obtain ⟨named, validKey⟩ :=
      (Reachable.wellNamed reachable).names name key owned
    exact ⟨named.valid, named.unreserved, validKey⟩
  · exact acquiredOwn_of_created reachable member finished
  · exact keptNames_of_conflict reachable member finished

section Schedules

open Sample

/-- The thread has answered 201. -/
def answersCreated (thread : FloonetThread) : Bool :=
  match thread.program with
  | .done response => decide (response.status = .created)
  | .step _ _ => false

theorem answersCreated_iff {thread : FloonetThread} :
    answersCreated thread = true ↔ ∃ response,
      thread.program = .done response ∧ response.status = .created := by
  unfold answersCreated
  cases thread.program with
  | done response => simp
  | step op next => simp

/-- Is the request a claim? -/
def Request.claims : Request → Bool
  | .claim _ _ => true
  | _ => false

theorem names_consistent_sale : ∃ pool, Market.Reachable anyMove pool ∧
    pool.state.db.lookup "alice" = some buyer ∧
      pool.state.db.nameOf buyer = some "alice" ∧
      validPubkeyHex buyer = true ∧
      ∃ thread ∈ pool.threads, thread.request.claims = true ∧
        answersCreated thread = true ∧ AcquiredOwn host config pool thread := by
  have reached : ∃ pool, Market.Reachable anyMove pool ∧
      pool.state.db.lookup "alice" = some buyer ∧
        (pool.threads.any fun thread =>
          thread.request.claims && answersCreated thread) = true :=
    play_reaches (fun _ _ _ => true) (fun _ _ _ _ => trivial) world_initial
      sale (by decide +kernel)
  obtain ⟨pool, reachable, owned, sold⟩ := reached
  obtain ⟨thread, member, sold⟩ := List.any_eq_true.mp sold
  obtain ⟨claims, created⟩ := Bool.and_eq_true_iff.mp sold
  obtain ⟨response, finished, isCreated⟩ := answersCreated_iff.mp created
  obtain ⟨inverse, valid, responses⟩ := names_consistent reachable
  exact ⟨pool, reachable, owned, (inverse _ _).mp owned,
    (valid _ _ owned).2.2, thread, member, claims, created,
    (responses thread member response finished).1 isCreated⟩

end Schedules

end Floonet
