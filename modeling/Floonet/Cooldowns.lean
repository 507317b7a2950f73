import Floonet.Client
import Floonet.PaidOnce
import Floonet.RateRecords

/-!
# Name-change cooldowns

A release or a sale of a name records the instant under the seller's key, and
a registration looks it up.  The record survives until the cooldown is over,
unless a cleanup of the shared map with a shorter window drops it.
-/

namespace Floonet

open Concurrent Program System SlidingWindow

variable {ext : Extern} {cfg : Config}
  {permitted : Permission World Request Op Op.Ans Response}
  {pool later : FloonetPool} {thread : FloonetThread} {pubkey : String}

/-! ## Records that last -/

/-- The entry that holds the name changes of a key. -/
def changesOf (pubkey : String) : String := RateMap.key "namechange" pubkey

/-- The record of a name change at `since` lasts as long as its cooldown. -/
structure Armed (cfg : Config) (pubkey : String) (since : Instant)
    (world : World) : Prop where
  past : since ≤ world.instant
  stored : world.instant < since + cfg.nameChangeCooldown →
    since ∈ world.rate.hits (changesOf pubkey)

/-- The step cleans the map up and drops the record of a name change within
the cooldown. -/
def Op.forgets (cfg : Config) (pubkey : String) (world : World) : Op → Prop
  | .allow bucket ip max window now =>
      world.rate.forgets bucket ip max window now (changesOf pubkey)
        cfg.nameChangeCooldown
  | _ => False

/-- No cleanup drops a name change of the key within the cooldown. -/
def keepsCooldown (cfg : Config) (pubkey : String) :
    Permission World Request Op Op.Ans Response :=
  fun pool label _ => ∀ index taken, label = .act index taken →
    ¬ taken.op.forgets cfg pubkey pool.state

theorem armed_iff {since : Instant} {world : World} :
    Armed cfg pubkey since world ↔
      Lasts "namechange" pubkey cfg.nameChangeCooldown since world :=
  ⟨fun armed => ⟨armed.past, armed.stored⟩,
    fun lasts => ⟨lasts.past, lasts.stored⟩⟩

theorem namechange_cooldown (cfg : Config) :
    Cooldown cfg "namechange" cfg.nameChangeCooldown :=
  .inl ⟨rfl, rfl⟩

theorem Op.forgets_iff {op : Op} {world : World} :
    op.forgets cfg pubkey world ↔
      op.drops "namechange" pubkey cfg.nameChangeCooldown world := by
  cases op <;> exact Iff.rfl

/-! ## What the responses say about the cooldown -/

variable (ext cfg) in
/-- A registration goes through after the cooldown was found inactive; a
release and a sale end with recording it. -/
def Cooled : Request → History → Response → Prop
  | .register headers _, past, response => response.status = .created →
      ∀ pubkey, headers.signer = some pubkey → ∃ now,
        past.Saw (.cooldownActive "namechange" pubkey cfg.nameChangeCooldown
          now) false
  | .unregister _ headers, past, response => response.status = .ok →
      ∀ pubkey, headers.signer = some pubkey →
        past.EndsWith (.recordOp "namechange" pubkey) ()
  | .claim _ body, past, response => response.status = .created →
      ∃ offerId proof offer, claimRequest ext body = .ok (offerId, proof) ∧
        past.SawOffer offerId offer ∧
        past.EndsWith (.recordOp "namechange" offer.sellerPubkey) ()
  | _, _, _ => True

/-- A claim that answers 201 ends with recording the sale. -/
def Sells (offerId : String) (past : History) (response : Response) : Prop :=
  response.status = .created → ∃ offer, past.SawOffer offerId offer ∧
    past.EndsWith (.recordOp "namechange" offer.sellerPubkey) ()

section Histories

variable {past : History} {offerId : String} {offer : OfferRow}

theorem sells_of_refused {response : Response}
    (refused : response.status ≠ .created) : Sells offerId past response :=
  fun created => absurd created refused

theorem executeClaim_sells (seen : past.SawOffer offerId offer)
    (excessHex : String) (kernelHeight : Option Int) (now : Int) :
    (executeClaim cfg offer excessHex kernelHeight now).Every
      (fun _ _ => True) (Sells offerId) past := by
  unfold executeClaim
  refine every_perform_bind.mpr ⟨trivial, fun outcome => ?_⟩
  split
  · refine every_perform_bind.mpr ⟨trivial, fun _ _ => ?_⟩
    exact ⟨offer, (seen.append _).append _, _, rfl⟩
  all_goals exact sells_of_refused nofun

theorem claimPaid_sells (seen : past.SawOffer offerId offer)
    (excessHex : String) (deadEndHeight : Option Int) (now : Int) :
    (claimPaid cfg offer excessHex deadEndHeight now).Every
      (fun _ _ => True) (Sells offerId) past := by
  unfold claimPaid
  refine every_bind.mpr ((every_extends _ past).mono (fun _ _ _ _ => trivial)
    fun past' kernel _ extended => ?_)
  obtain ⟨new, rfl⟩ := extended
  split
  · rename_i refusal refused
    exact sells_of_refused (kernelGate_refuses cfg offer _ kernel refusal
      refused)
  refine every_perform_bind.mpr ⟨trivial, fun used => ?_⟩
  split
  · exact sells_of_refused nofun
  refine every_perform_bind.mpr ⟨trivial, fun existing => ?_⟩
  split
  · exact sells_of_refused nofun
  · exact executeClaim_sells (((seen.append new).append _).append _) _ _ _

theorem claimOffer_sells (seen : past.SawOffer offerId offer)
    (authPubkey : String) (payment : Payment) (now : Int) :
    (claimOffer cfg authPubkey offerId payment offer now).Every
      (fun _ _ => True) (Sells offerId) past := by
  unfold claimOffer
  split
  · exact (claimRetry_silent cfg offerId _ past).mono
      (fun _ _ _ _ => trivial) fun _ _ _ refused => sells_of_refused refused
  split
  · rename_i refusal refused
    exact sells_of_refused (deathGate_refuses cfg offer now refusal refused)
  split
  · exact sells_of_refused nofun
  refine every_perform_bind.mpr ⟨trivial, fun owner => ?_⟩
  split
  · exact sells_of_refused nofun
  split
  · rename_i refusal refused
    exact sells_of_refused (proofGate_refuses offer payment refusal refused)
  · exact claimPaid_sells (seen.append _) _ _ _

theorem claim_cooled (headers : Headers) (body : Bytes) :
    (claim ext cfg headers body).Every (fun _ _ => True)
      (Cooled ext cfg (.claim headers body)) [] := by
  unfold claim
  refine every_bind.mpr ((authorize_silent ext cfg "transfer" headers .post _
    body []).mono (fun _ _ _ _ => trivial) fun past result _ authorized => ?_)
  rcases result with refusal | authPubkey
  · exact fun created =>
      absurd created (authorized.status_ne nofun nofun)
  dsimp only
  split
  · rename_i refusal refused
    exact fun created =>
      absurd created (claimRequest_refuses ext body refusal refused)
  rename_i offerId proof accepted
  have sold : ∀ past' response, Sells offerId past' response →
      Cooled ext cfg (.claim headers body) past' response := by
    intro past' response sells created
    obtain ⟨offer, seen, ends⟩ := sells created
    exact ⟨offerId, proof, offer, accepted, seen, ends⟩
  unfold claimById
  refine every_perform_bind.mpr ⟨trivial, fun stored => ?_⟩
  split
  · exact sold _ _ (sells_of_refused nofun)
  rename_i offer
  have seen := History.saw_last past (.db (.getOffer offerId)) (some offer)
  refine every_perform_bind.mpr ⟨trivial, fun now => ?_⟩
  have clock := History.saw_last (past ++
    [⟨.db (.getOffer offerId), some offer⟩]) .unixNow now
  have settles : (settleExpiry cfg offer now).Every
      (Leads ext cfg (.claim headers body)) _ _ :=
    settleExpiry_leads ext cfg (seen.append _) clock
  refine every_bind.mpr (settles.mono (fun _ _ _ _ => trivial) ?_)
  rintro past' settled - ⟨new, -, -, settledSeen⟩
  exact (claimOffer_sells settledSeen authPubkey _ now).mono
    (fun _ _ _ _ => trivial) fun past' response _ sells => sold _ _ sells

theorem unregister_cooled (name : String) (headers : Headers) :
    (unregister ext cfg name headers).Every (fun _ _ => True)
      (Cooled ext cfg (.unregister name headers)) [] := by
  have refused : ∀ {past : History} {response : Response},
      response.status ≠ .ok →
        Cooled ext cfg (.unregister name headers) past response :=
    fun other released => absurd released other
  unfold unregister
  refine every_bind.mpr ((authorize_silent ext cfg "unreg" headers .delete _
    [] []).mono (fun _ _ _ _ => trivial) fun past result _ authorized => ?_)
  rcases result with refusal | authPubkey
  · exact refused (authorized.status_ne nofun nofun)
  dsimp only
  unfold unregisterName
  refine every_perform_bind.mpr ⟨trivial, fun owner => ?_⟩
  split
  · exact refused nofun
  split
  · exact refused nofun
  refine every_perform_bind.mpr ⟨trivial, fun released => ?_⟩
  split
  · refine every_perform_bind.mpr ⟨trivial, fun _ _ pubkey signed => ?_⟩
    cases authorized.symm.trans signed
    exact ⟨_, rfl⟩
  · exact refused nofun

theorem register_cooled (headers : Headers) (body : Bytes) :
    (register ext cfg headers body).Every (fun _ _ => True)
      (Cooled ext cfg (.register headers body)) [] := by
  unfold register App.cooldownActive
  refine every_bind.mpr ((authorize_silent ext cfg "reg" headers .post _ body
    []).mono (fun _ _ _ _ => trivial) fun past result _ authorized => ?_)
  rcases result with refusal | authPubkey
  · exact fun created =>
      absurd created (authorized.status_ne nofun nofun)
  refine every_perform_bind.mpr ⟨trivial, fun now => ?_⟩
  refine every_perform_bind.mpr ⟨trivial, fun active => ?_⟩
  split
  · exact nofun
  rename_i inactive
  rw [Bool.not_eq_true] at inactive
  subst inactive
  refine (every_extends _ _).mono (fun _ _ _ _ => trivial) ?_
  intro past' response _ extended created pubkey signed
  cases authorized.symm.trans signed
  exact ⟨now, extended.subset (List.mem_append_right _ List.mem_cons_self)⟩

end Histories

variable (ext cfg) in
theorem routes_cooled (request : Request) :
    (routes ext cfg request).Every (fun _ _ => True) (Cooled ext cfg request)
      [] := by
  cases request with
  | register headers body => exact register_cooled headers body
  | unregister name headers => exact unregister_cooled name headers
  | claim headers body =>
      simp only [routes, transferRoute]
      split
      · exact claim_cooled headers body
      · exact nofun
  | _ =>
      exact (every_extends _ _).mono (fun _ _ _ _ => trivial)
        fun _ _ _ _ => trivial

theorem Reachable.cooled
    (reachable : (server ext cfg).Reachable permitted pool)
    (member : thread ∈ pool.threads) {response : Response}
    (finished : thread.program = .done response) :
    Cooled ext cfg thread.request thread.events response := by
  have every := reachable.every (routes_cooled ext cfg) member
  rw [finished] at every
  exact every

/-! ## Runs -/

theorem Armed.step {since : Instant} {label : Label World Request Op Op.Ans}
    (armed : Armed cfg pubkey since pool.state)
    (reachable : (server ext cfg).Reachable permitted pool)
    (step : (server ext cfg).Step pool label later)
    (kept : keepsCooldown cfg pubkey pool label later) :
    Armed cfg pubkey since later.state := by
  rw [armed_iff] at armed ⊢
  apply armed.step (namechange_cooldown cfg) reachable step
  intro index taken isAct drops
  exact kept index taken isAct (Op.forgets_iff.mpr drops)

theorem Reachable.armed
    (reachable : (server ext cfg).Reachable (keepsCooldown cfg pubkey) pool) :
    ∀ thread ∈ pool.threads, ∀ taken ∈ thread.past,
      taken.op = .recordOp "namechange" pubkey →
        Armed cfg pubkey taken.after.instant pool.state := by
  refine Reachable.induct (motive := fun pool => ∀ thread ∈ pool.threads,
    ∀ taken ∈ thread.past, taken.op = .recordOp "namechange" pubkey →
      Armed cfg pubkey taken.after.instant pool.state) ?start ?step reachable
  case start => simp
  case step =>
    intro pool label later before induction step kept thread member taken
      takenMember records
    obtain ⟨index, found⟩ := List.getElem?_of_mem member
    rcases step.thread_cases found with
      ⟨request, -, rfl⟩ | ⟨old, op, next, env, oldFound, -, -, after, rfl⟩ |
      ⟨same, -⟩
    · cases takenMember
    · rw [Thread.advance_past, List.mem_append, List.mem_singleton]
        at takenMember
      rcases takenMember with earlier | rfl
      · exact (induction old (List.mem_of_getElem? oldFound) taken earlier
          records).step before step kept
      · have isRecord : op = .recordOp "namechange" pubkey := records
        subst isRecord
        rw [after]
        exact armed_iff.mpr (.recorded _ _ _ env pool.state)
    · exact (induction thread (List.mem_of_getElem? same) taken takenMember
        records).step before step kept

/-- The steps of requests that arrive later are taken while the record
lasts. -/
theorem Steps.armed {first : FloonetPool} {since : Instant}
    (reachable : (server ext cfg).Reachable (keepsCooldown cfg pubkey) first)
    (steps : (server ext cfg).Steps (keepsCooldown cfg pubkey) first later)
    (armed : Armed cfg pubkey since first.state) :
    Armed cfg pubkey since later.state ∧
      ∀ index thread, first.threads.length ≤ index →
        later.threads[index]? = some thread → ∀ taken ∈ thread.past,
          Armed cfg pubkey since taken.before ∧
            ∀ now, taken.op.timed = some now →
              now ≤ taken.before.instant := by
  induction steps with
  | refl =>
      refine ⟨armed, fun index thread beyond found => ?_⟩
      rw [List.getElem?_eq_none beyond] at found
      cases found
  | @tail middle last label steps step kept induction =>
      obtain ⟨armedMiddle, pastMiddle⟩ := induction
      have before := reachable.steps steps
      refine ⟨armedMiddle.step before step kept, ?_⟩
      intro index thread beyond found taken takenMember
      rcases step.thread_cases found with
        ⟨request, -, rfl⟩ |
        ⟨old, op, next, env, oldFound, pending, -, -, rfl⟩ | ⟨same, -⟩
      · cases takenMember
      · rw [Thread.advance_past, List.mem_append, List.mem_singleton]
          at takenMember
        rcases takenMember with earlier | rfl
        · exact pastMiddle index old beyond oldFound taken earlier
        · exact ⟨armedMiddle, fun now timed => Reachable.timed before
            (List.mem_of_getElem? oldFound) pending timed⟩
      · exact pastMiddle index thread beyond same taken takenMember

/-- The instant of the last step of a thread. -/
def answeredAt (thread : FloonetThread) : Instant :=
  (thread.past.getLast?.map fun taken => taken.after.instant).getD 0

theorem answeredAt_of_endsWith {op : Op} {answer : op.Ans}
    (ends : History.EndsWith thread.events op answer) :
    ∃ taken ∈ thread.past, taken.toEvent = ⟨op, answer⟩ ∧
      answeredAt thread = taken.after.instant := by
  obtain ⟨earlier, isEvents⟩ := ends
  obtain ⟨before, last, isPast, -, isLast⟩ :=
    List.map_eq_append_iff.mp isEvents
  obtain ⟨taken, rest, rfl, isEvent, isNil⟩ := List.map_eq_cons_iff.mp isLast
  rw [List.map_eq_nil_iff] at isNil
  subst isNil
  refine ⟨taken, ?_, isEvent, ?_⟩
  · rw [isPast]
    exact List.mem_append_right _ List.mem_cons_self
  · simp [answeredAt, isPast]

theorem le_answeredAt
    (reachable : (server ext cfg).Reachable permitted pool)
    (member : thread ∈ pool.threads) {taken : Taken World Op Op.Ans}
    (takenMember : taken ∈ thread.past) :
    taken.before.instant ≤ answeredAt thread := by
  have ordered := reachable.pastOrdered instant_evolution thread member
  have still : ∀ taken ∈ thread.past,
      taken.after.instant = taken.before.instant := by
    intro taken takenMember
    obtain ⟨env, executed⟩ := reachable.executed thread member taken takenMember
    rw [executed]
    exact taken.op.exec_instant env taken.before
  unfold answeredAt
  rcases List.eq_nil_or_concat thread.past with none | ⟨before, last, isPast⟩
  · rw [none] at takenMember
    cases takenMember
  rw [List.concat_eq_append] at isPast
  rw [isPast] at ordered takenMember still
  rw [isPast, List.getLast?_concat, Option.map_some, Option.getD_some,
    still last (by simp)]
  rcases List.mem_append.mp takenMember with earlier | isLast
  · rw [← still taken takenMember]
    exact (List.pairwise_append.mp ordered).2.2 taken earlier last (by simp)
  · exact Nat.le_of_eq (by rw [List.mem_singleton.mp isLast])

/-- The response frees a name of the key: a release signed by it, or the
claim of an offer of which it is the seller. -/
def Frees (ext : Extern) (pool : FloonetPool) (thread : FloonetThread)
    (response : Response) (pubkey : String) : Prop :=
  match thread.request with
  | .unregister _ headers =>
      headers.signer = some pubkey ∧ response.status = .ok
  | .claim _ body => response.status = .created ∧
      ∃ offerId proof, ∃ offer ∈ pool.state.db.offers.rows,
        claimRequest ext body = .ok (offerId, proof) ∧
          offer.offerId = offerId ∧ offer.sellerPubkey = pubkey
  | _ => False

theorem Frees.ends
    (reachable : (server ext cfg).Reachable permitted pool)
    (member : thread ∈ pool.threads) {response : Response}
    (finished : thread.program = .done response)
    (frees : Frees ext pool thread response pubkey) :
    History.EndsWith thread.events (.recordOp "namechange" pubkey) () := by
  have cooled := Reachable.cooled reachable member finished
  unfold Frees at frees
  cases isRequest : thread.request with
  | unregister name headers =>
      rw [isRequest] at frees cooled
      exact cooled frees.2 pubkey frees.1
  | claim headers body =>
      rw [isRequest] at frees cooled
      obtain ⟨created, offerId, proof, offer, stored, accepted, isOffer,
        rfl⟩ := frees
      obtain ⟨offerId', proof', read, accepted', seen, ends⟩ := cooled created
      cases accepted.symm.trans accepted'
      obtain ⟨isRead, current, currentStored, evolves⟩ :=
        Reachable.sawOfferId reachable member seen
      have same : current = offer := pool.state.db.offers.eq_of_key
        currentStored stored ((evolves.offerId.trans isRead).trans
          isOffer.symm)
      rw [← same, evolves.sellerPubkey]
      exact ends
  | _ =>
      rw [isRequest] at frees
      exact frees.elim

/-- As long as no cleanup drops the record, a key that has given up a name
registers no other before the cooldown is over. -/
theorem cooldown_respected {first : FloonetPool}
    (reachable : (server ext cfg).Reachable (keepsCooldown cfg pubkey) first)
    (steps : (server ext cfg).Steps (keepsCooldown cfg pubkey) first later)
    {former : FloonetThread} (member : former ∈ first.threads)
    {freed : Response} (finished : former.program = .done freed)
    (frees : Frees ext first former freed pubkey) {index : Nat}
    (arrivesLater : first.threads.length ≤ index)
    (found : later.threads[index]? = some thread) {headers : Headers}
    {body : Bytes} (request : thread.request = .register headers body)
    (signed : headers.signer = some pubkey) {response : Response}
    (done : thread.program = .done response)
    (created : response.status = .created) :
    answeredAt former + cfg.nameChangeCooldown ≤ answeredAt thread := by
  have reached := reachable.steps steps
  have threadMember := List.mem_of_getElem? found
  obtain ⟨recorded, recordedMember, isRecord, answered⟩ :=
    answeredAt_of_endsWith (frees.ends reachable member finished)
  have armed := Reachable.armed reachable former member recorded recordedMember
    (congrArg Concurrent.Event.op isRecord)
  have cooled := Reachable.cooled reached threadMember done
  rw [request] at cooled
  obtain ⟨now, saw⟩ := cooled created pubkey signed
  obtain ⟨taken, takenMember, isLookup⟩ := Thread.mem_events.mp saw
  obtain ⟨armedThen, timed⟩ := (Steps.armed reachable steps armed).2 index
    thread arrivesLater found taken takenMember
  have bound := le_answeredAt reached threadMember takenMember
  obtain ⟨env, executed⟩ := reached.executed thread threadMember taken
    takenMember
  rw [executed] at isLookup
  obtain ⟨isOp, inactive⟩ := taken_eq isLookup
  have onward : now ≤ taken.before.instant := timed now (by rw [isOp]; rfl)
  rw [answered]
  exact Nat.le_trans
    ((armed_iff.mp armedThen).elapsed onward inactive.symm) bound

section Schedules

open Sample

theorem registerAlice_accepted : registerRequest host config seller
    (registerBody "alice" seller) = .ok ("alice", seller) := by
  rw [← Validation.toOption_eq_some]
  decide +kernel

/-- The seller registers `alice` at a later time. -/
def registerAt (id : String) (createdAt : Nat)
    (validId : validPubkeyHex id = true) : Prepared where
  request := .register (signed id seller createdAt .post "/api/v1/register"
    (registerBody "alice" seller)) (registerBody "alice" seller)
  program := served "reg" createdAt id (registering seller "alice")
  serves := by
    have accepted := registerAlice_accepted
    rw [← Bytes32.toHex_ofHex seller_valid] at accepted
    have serves := register_signRequest host config (.ofHex id)
      (.ofHex seller) (.ofNat createdAt) accepted
    rw [Bytes32.toHex_ofHex validId, Bytes32.toHex_ofHex seller_valid] at serves
    exact serves

/-- A registration ten minutes after `start`. -/
def registerAfterCooldown : Prepared :=
  registerAt "563d9bd07c5f43f5265066c1683beca1ed14a9f689d1cc2b8fd010378a6e358a"
    (start + 600) (by decide +kernel)

/-- A registration two seconds after `start`. -/
def registerSoon : Prepared :=
  registerAt "d231b9b0068d7b258cacbaf528a93aace54826f1efb4c94458f8bfcdb50164e4"
    (start + 2) thirdBuy_id

/-- The map is far from being full. -/
def fewKeys (pool : FloonetPool) (_ : Label World Request Op Op.Ans)
    (_ : FloonetPool) : Bool :=
  decide (pool.state.rate.length < 1000)

theorem RateMap.set_length_le (map : RateMap) (key : String)
    (times : List Instant) : (map.set key times).length ≤ map.length + 1 := by
  unfold set
  split <;> simp

theorem Op.not_drops_of_fewKeys {label : Label World Request Op Op.Ans}
    (few : fewKeys pool label later = true) {op : Op} {bucket key : String}
    {span : Duration} : ¬ op.drops bucket key span pool.state := by
  intro drops
  have few := of_decide_eq_true few
  cases op with
  | allow limit ip max window now =>
      have many := drops.1.2
      have bound := pool.state.rate.set_length_le (RateMap.key limit ip) []
      omega
  | _ => exact drops

theorem keepsCooldown_of_fewKeys {label : Label World Request Op Op.Ans}
    (few : fewKeys pool label later = true) :
    keepsCooldown cfg pubkey pool label later := by
  intro index taken _ forgets
  exact Op.not_drops_of_fewKeys few (Op.forgets_iff.mp forgets)

/-- The seller registers a name and releases it. -/
def giveBack : List Market.Move :=
  Market.alone registerSeller 0 (node 100 100) 10 ++
    Market.alone release 1 (node 100 100) 8

/-- The server waits for the cooldown and serves another registration. -/
def waitAndRegister : List Market.Move :=
  .tick ⟨600, 600000000000, 10⟩ ::
    Market.alone registerAfterCooldown 2 (node 100 100) 10

def Request.unregisters : Request → Bool
  | .unregister _ _ => true
  | _ => false

/-- The thread has released a name of the key. -/
def releasedFor (pubkey : String) (thread : FloonetThread) : Bool :=
  thread.request.unregisters &&
    decide (thread.request.signer = some pubkey) &&
    thread.program.result?.any fun response => decide (response.status = .ok)

theorem frees_of_releasedFor
    (released : releasedFor pubkey thread = true) :
    ∃ response, thread.program = .done response ∧
      Frees ext pool thread response pubkey := by
  simp only [releasedFor, Bool.and_eq_true, decide_eq_true_iff] at released
  obtain ⟨⟨unregisters, signed⟩, answered⟩ := released
  obtain ⟨response, finished, ok⟩ := (Option.any_eq_true _ _).mp answered
  refine ⟨response, result?_eq_some.mp finished, ?_⟩
  unfold Frees
  cases isRequest : thread.request with
  | unregister name headers =>
      rw [isRequest] at signed
      exact ⟨signed, of_decide_eq_true ok⟩
  | _ =>
      rw [isRequest] at unregisters
      cases unregisters

theorem cooldown_respected_release : ∃ first later : FloonetPool,
    Market.Reachable (keepsCooldown config seller) first ∧
      Market.Steps (keepsCooldown config seller) first later ∧
      ∃ former thread : FloonetThread, first.threads[1]? = some former ∧
        later.threads[2]? = some thread ∧
          releasedFor seller former = true ∧
          registeredFor seller thread = true ∧
          answeredAt former + config.nameChangeCooldown ≤
            answeredAt thread := by
  obtain ⟨first, later, reachable, steps, few, released, registered⟩ :
      ∃ first later, Market.Reachable (keepsCooldown config seller) first ∧
        Market.Steps (keepsCooldown config seller) first later ∧
        (first.threads.length ≤ 2 ∧
          first.threads[1]?.any (releasedFor seller) = true ∧
          later.threads[2]?.any (registeredFor seller) = true) :=
    play_continues fewKeys (fun _ _ _ => keepsCooldown_of_fewKeys)
      world_initial giveBack waitAndRegister (by decide +kernel)
  obtain ⟨former, found, released⟩ := (Option.any_eq_true _ _).mp released
  obtain ⟨thread, found', registered⟩ := (Option.any_eq_true _ _).mp registered
  obtain ⟨freed, finished, frees⟩ : ∃ freed, former.program = .done freed ∧
      Frees host first former freed seller := frees_of_releasedFor released
  obtain ⟨headers, body, response, request, signed, done, created⟩ :=
    request_of_registeredFor registered
  exact ⟨first, later, reachable, steps, former, thread, found, found',
    released, registered, cooldown_respected reachable steps
      (List.mem_of_getElem? found) finished frees few found' request signed
      done created⟩

/-- A request for the NIP-05 document from an address. -/
def visit (ip : String) : Request := .wellKnown none ⟨.missing, some ip⟩

theorem visit_after (env : Env) (ip : String) (state : World) :
    (Market.exchange env (visit ip) state).after =
      { state with rate := (state.rate.allow "read" ip config.readRateMax
          config.readRateWindow state.instant).2 } := by
  have served : (Market.handler (visit ip)).run (Op.exec env) state =
      (wellKnown host config none ⟨.missing, some ip⟩).run (Op.exec env)
        state := rfl
  refine (congrArg Prod.snd served).trans ?_
  unfold wellKnown App.allowRead App.allow
  have isIp : clientIp ⟨.missing, some ip⟩ = ip := rfl
  simp only [perform_bind, step_bind, run_step, Op.exec, App.instantNow, isIp]
  generalize state.rate.allow "read" ip config.readRateMax
    config.readRateWindow state.instant = outcome
  obtain ⟨allowed, rate⟩ := outcome
  cases allowed <;> rfl

/-- The world with another rate map. -/
def World.withRate (world : World) (rate : RateMap) : World :=
  { world with rate }

theorem World.tick_withRate (world : World) (rate new : RateMap)
    (elapsed : Tick) : ((world.withRate rate).tick elapsed).withRate new =
      (world.tick elapsed).withRate new := rfl

/-- Visits from as many new addresses as the map can hold. -/
theorem SerialRun.visits {log : List FloonetExchange} {state : World}
    (run : Market.SerialRun log state) (env : Env)
    (unflooded : state.rate.Unflooded "read") {count : Nat}
    (small : state.rate.length + count ≤ 50000) :
    ∃ visits, Market.SerialRun (log ++ visits)
      (state.withRate (state.rate.flooded "read" state.instant count)) := by
  induction count with
  | zero => exact ⟨[], by simpa [RateMap.flooded, World.withRate] using run⟩
  | succ count induction =>
      obtain ⟨visits, before⟩ := induction (Nat.le_of_succ_le small)
      have next := before.serve env (visit (toString count))
      rw [visit_after, World.withRate, RateMap.allow_flooded (by decide)
        unflooded (by decide) small, List.append_assoc] at next
      exact ⟨_, next⟩

/-- A visit that finds the map full of older visits empties it. -/
theorem visit_stale (env : Env) {ip : String} {state : World}
    (absent : state.rate.lookup (RateMap.key "read" ip) = none)
    (many : 50000 ≤ state.rate.length)
    (stale : ∀ entry ∈ state.rate,
      recent config.readRateWindow state.instant entry.2 = []) :
    (Market.exchange env (visit ip) state).after =
      state.withRate [(RateMap.key "read" ip, [state.instant])] := by
  rw [visit_after,
    RateMap.allow_stale absent (by decide) many stale (by decide)]
  rfl

/-- The seller registers a name and releases it, in one second. -/
def giveBackTurns : List Market.Turn :=
  [.serve (node 100 100) registerSeller, .serve (node 100 100) release]

/-- The world after that. -/
def givenBack : World := (Market.conduct giveBackTurns world).2

theorem givenBack_rate : givenBack.rate =
    [(RateMap.key "reg" "unknown", [0]), (RateMap.key "unreg" "unknown", [0]),
      (RateMap.key "namechange" seller, [0])] := by
  decide +kernel

theorem givenBack_unflooded : givenBack.rate.Unflooded "read" := by
  intro n
  rw [givenBack_rate, List.lookup_eq_none_iff]
  have others : ∀ bucket ip, ':' ∉ bucket.toList → "read" ≠ bucket →
      (RateMap.key "read" (toString n) != RateMap.key bucket ip) = true := by
    intro bucket ip plain different
    rw [bne_iff_ne]
    exact fun same => different (RateMap.key_inj (by decide) plain same).1
  simp only [List.forall_mem_cons]
  exact ⟨others _ _ (by decide) (by decide), others _ _ (by decide) (by decide),
    others _ _ (by decide) (by decide), fun _ member => nomatch member⟩

/-- A minute passes. -/
def minute : Tick := ⟨61, 61000000000, 1⟩

/-- The map is full of visits of the past minute. -/
def full : World :=
  givenBack.withRate (givenBack.rate.flooded "read" 0 49997)

/-- The world after one more visit. -/
def forgetful : World :=
  (givenBack.tick minute).withRate
    [(RateMap.key "read" (toString 49997), [61000000000])]

theorem givenBack_instant : givenBack.instant = 0 := by decide +kernel

theorem full_visited (env : Env) :
    (Market.exchange env (visit (toString 49997)) (full.tick minute)).after =
      forgetful := by
  have instant : (full.tick minute).instant = 61000000000 := by
    decide +kernel
  have sameRate : (full.tick minute).rate =
      givenBack.rate.flooded "read" 0 49997 := rfl
  have absent : (full.tick minute).rate.lookup
      (RateMap.key "read" (toString 49997)) = none :=
    RateMap.flooded_lookup (by decide) givenBack_unflooded
  have many : 50000 ≤ (full.tick minute).rate.length := by
    rw [sameRate, RateMap.flooded_length, givenBack_rate]
    decide
  have stale : ∀ entry ∈ (full.tick minute).rate,
      recent config.readRateWindow (full.tick minute).instant entry.2 = [] := by
    rw [instant]
    refine RateMap.flooded_stale ?_ (by decide +kernel)
    rw [givenBack_rate]
    decide +kernel
  rw [visit_stale env absent many stale, instant, full, World.tick_withRate]
  rfl

theorem signed_signer (id : String) (createdAt : Nat) (method : Method)
    (urlPath : String) (body : Bytes) :
    (signed id seller createdAt method urlPath body).signer = some seller :=
  congrArg some (Bytes32.toHex_ofHex seller_valid)

/-- Fifty thousand visits after a release, the seller registers again within
the cooldown. -/
theorem cooldown_forgotten : ∃ log state before released between again,
    Market.SerialRun log state ∧
      log = before ++ [released] ++ between ++ [again] ∧
      (∃ name headers, released.request = .unregister name headers ∧
        headers.signer = some seller ∧ released.response.status = .ok) ∧
      (∃ headers body, again.request = .register headers body ∧
        headers.signer = some seller ∧ again.response.status = .created) ∧
      again.before.instant <
        released.after.instant + config.nameChangeCooldown := by
  have early : Market.SerialRun _ givenBack :=
    SerialRun.conduct (.start world_initial) giveBackTurns
  have small : givenBack.rate.length + 49997 ≤ 50000 := by
    rw [givenBack_rate]
    decide
  obtain ⟨visits, visited⟩ :=
    SerialRun.visits early (node 100 100) givenBack_unflooded small
  rw [givenBack_instant] at visited
  let last := Market.exchange (node 100 100) (visit (toString 49997))
    (full.tick minute)
  have later : Market.SerialRun (_ ++ [last]) last.after :=
    (visited.tick minute).serve (node 100 100) (visit (toString 49997))
  have forgotten : Market.SerialRun _ forgetful :=
    full_visited (node 100 100) ▸ later
  have again := forgotten.serveBy (node 100 100) registerSoon
  let first := registerSeller.exchange (node 100 100) world
  let released := release.exchange (node 100 100) first.after
  have isLog : (Market.conduct giveBackTurns world).1 = [first, released] := rfl
  have freed : released.response.status = .ok ∧
      released.after.instant = 0 := by
    decide +kernel
  have created : (registerSoon.exchange (node 100 100)
      forgetful).response.status = .created := by
    decide +kernel
  rw [isLog] at again
  refine ⟨_, _, [first], released, visits ++ [last], _, again, ?_,
    ⟨_, _, rfl, signed_signer .., freed.1⟩,
    ⟨_, _, rfl, signed_signer .., created⟩, ?_⟩
  · simp only [List.nil_append, List.append_assoc, List.cons_append]
  · rw [freed.2]
    decide +kernel

end Schedules

end Floonet
