import Floonet.ClaimOutcome

/-!
# The grace window

A dead offer can be claimed for a while.  The window is counted from the time
at which the server settles the death, which for an expiration is when some
request looks at the offer.
-/

namespace Floonet

open Concurrent MachineInt Program System Validation

variable {ext : Extern} {cfg : Config} {env : Env} {world : World}

/-! ## Deaths that were settled -/

/-- The offer is stored and is not live any more. -/
def Db.DeadOffer (db : Db) (offerId : String) : Prop :=
  ∃ row ∈ db.offers.rows, row.offerId = offerId ∧ row.status ≠ .live

theorem Db.Revised.deadOffer {before after : Db} {offer : OfferRow}
    {change : OfferRow → OfferRow}
    (revised : before.Revised after offer.offerId change)
    (member : offer ∈ before.offers.rows)
    (keepsId : (change offer).offerId = offer.offerId)
    (dead : (change offer).status ≠ .live) : after.DeadOffer offer.offerId := by
  refine ⟨change offer, (revised _).mpr ⟨offer, member, ?_⟩, keepsId, dead⟩
  rw [if_pos rfl]

theorem revoke_run (enabled : cfg.allowTransfers = true) {offer : OfferRow}
    (member : offer ∈ world.db.offers.rows) :
    ((revoke cfg offer).run (Op.exec env) world).2.db.DeadOffer
      offer.offerId := by
  unfold revoke
  have clock : Op.exec env .unixNow world =
    (world.unixTime.seconds, world) := rfl
  rw [App.unixNow, run_perform_bind _ clock]
  by_cases live : offer.status = .live
  · rw [if_pos live, run_bind, deathHeight_run enabled]
    rcases world.db.markOfferDead_cases offer.offerId .revoked env.recordedTip
        world.unixTime.seconds with
      ⟨-, none⟩ | ⟨offers, old, done, -, -, -, revised⟩
    · exact absurd live (none offer member rfl)
    · simp only [App.markOfferDead, perform_bind, run_step, Op.exec, DbOp.exec,
        done]
      exact revised.deadOffer member rfl (by simp)
  · rw [if_neg live]
    obtain ⟨offers, count, done, revised⟩ :=
      world.db.setOfferStatus_cases offer.offerId .revoked
    simp only [App.reviseRevoked, perform_bind, run_step, Op.exec, DbOp.exec,
      done]
    exact revised.deadOffer member rfl (by simp)

theorem revokeById_run (enabled : cfg.allowTransfers = true)
    {authPubkey offerId : String}
    (granted : ((revokeById cfg authPubkey offerId).run (Op.exec env)
      world).1.status = .ok) :
    ((revokeById cfg authPubkey offerId).run (Op.exec env)
      world).2.db.DeadOffer offerId := by
  unfold revokeById at granted ⊢
  cases found : world.db.getOffer offerId with
  | none =>
      have asked : Op.exec env (.db (.getOffer offerId)) world =
        (none, world) := congrArg (·, world) found
      rw [App.getOffer, run_perform_bind _ asked] at granted
      cases granted
  | some offer =>
      have asked : Op.exec env (.db (.getOffer offerId)) world =
        (some offer, world) := congrArg (·, world) found
      obtain ⟨member, rfl⟩ := Db.getOffer_eq_some.mp found
      rw [App.getOffer, run_perform_bind _ asked] at granted ⊢
      dsimp only at granted ⊢
      by_cases key : authPubkey ≠ offer.sellerPubkey
      · rw [if_pos key] at granted
        cases granted
      rw [if_neg key] at granted ⊢
      by_cases consumed : offer.status = .consumed
      · rw [if_pos consumed] at granted
        cases granted
      rw [if_neg consumed]
      by_cases already : offer.status = .revoked
      · rw [if_pos already]
        refine ⟨offer, member, rfl, ?_⟩
        rw [already]
        exact nofun
      · rw [if_neg already, run_bind]
        exact revoke_run enabled member

/-- Reading an offer past its expiration leaves it dead. -/
theorem readOffer_run (enabled : cfg.allowTransfers = true) {offerId : String}
    {headers : Headers}
    (answered : ((readOffer ext cfg offerId headers).run (Op.exec env)
      world).1.status = .ok) {offer : OfferRow}
    (member : offer ∈ world.db.offers.rows) (isOffer : offer.offerId = offerId)
    (late : offer.expiration < world.unixTime.seconds) :
    ((readOffer ext cfg offerId headers).run (Op.exec env)
      world).2.db.DeadOffer offerId := by
  subst isOffer
  unfold readOffer at answered ⊢
  obtain ⟨allowed, later, allows, sameDb, sameTime⟩ : ∃ allowed later,
      (App.allowRead cfg (clientIp headers)).run (Op.exec env) world =
        (allowed, later) ∧ later.db = world.db ∧
          later.unixTime = world.unixTime := ⟨_, _, rfl, rfl, rfl⟩
  rw [run_bind, allows] at answered ⊢
  rw [← sameDb] at member
  rw [← sameTime] at late
  cases allowed with
  | false => cases answered
  | true =>
      have found : later.db.getOffer offer.offerId = some offer :=
        Db.getOffer_eq_some.mpr ⟨member, rfl⟩
      have asked : Op.exec env (.db (.getOffer offer.offerId)) later =
        (some offer, later) := congrArg (·, later) found
      have clock : Op.exec env .unixNow later =
        (later.unixTime.seconds, later) := rfl
      obtain ⟨db, settles, settledAt⟩ :=
        settleExpiry_run env later.unixTime.seconds enabled member
      simp only [Bool.not_true, Bool.false_eq_true, if_false]
      rw [App.getOffer, run_perform_bind _ asked]
      dsimp only
      rw [App.unixNow, run_perform_bind _ clock, run_bind, settles]
      apply settledAt.offers.deadOffer member (settled_offerId _ _ offer)
      unfold settled
      by_cases live : offer.status = .live
      · rw [if_pos ⟨live, late⟩]
        exact nofun
      · rw [if_neg fun dying => live dying.1]
        exact live

/-- A request that the router serves, by its own program. -/
theorem enabled_of_found {handler : Handler Response} {status : StatusCode}
    (answered : ((transferRoute cfg handler).run (Op.exec env) world).1.status =
      status) (found : status ≠ .notFound) : cfg.allowTransfers = true := by
  cases enabled : cfg.allowTransfers with
  | true => rfl
  | false =>
      rw [transferRoute, enabled] at answered
      exact absurd answered.symm found

theorem transferRoute_enabled (enabled : cfg.allowTransfers = true)
    (handler : Handler Response) : transferRoute cfg handler = handler :=
  if_pos enabled

theorem revokeOffer_run (offerId : String) (headers : Headers)
    (granted : ((routes ext cfg (.revokeOffer offerId headers)).run
      (Op.exec env) world).1.status = .ok) :
    ((routes ext cfg (.revokeOffer offerId headers)).run (Op.exec env)
      world).2.db.DeadOffer offerId := by
  have enabled : cfg.allowTransfers = true := enabled_of_found granted nofun
  have isRoute : routes ext cfg (.revokeOffer offerId headers) =
      revokeOffer ext cfg offerId headers := transferRoute_enabled enabled _
  rw [isRoute] at granted ⊢
  unfold revokeOffer at granted ⊢
  rw [run_bind] at granted ⊢
  cases outcome : ((authorize ext cfg "transfer" headers .delete
      s!"/api/v1/transfer/offer/{offerId}" []).run (Op.exec env) world).1 with
  | error refusal =>
      rw [outcome] at granted
      exact absurd granted ((authorize_refusal outcome).status_ne nofun nofun)
  | ok authPubkey =>
      rw [outcome] at granted
      exact revokeById_run enabled granted

/-! ## The claims that are answered by 201 -/

theorem claimOffer_open {authPubkey offerId : String} {payment : Payment}
    {offer : OfferRow} {now : Int}
    (created : ((claimOffer cfg authPubkey offerId payment offer now).run
      (Op.exec env) world).1.status = .created) :
    offer.status ≠ .consumed ∧
      ∃ deadEndHeight, deathGate cfg offer now = .ok deadEndHeight := by
  unfold claimOffer at created
  by_cases consumed : offer.status = .consumed
  · rw [if_pos consumed] at created
    exact absurd created (claimRetry_run offerId payment.excessHex).1
  · refine ⟨consumed, ?_⟩
    rw [if_neg consumed] at created
    cases gate : deathGate cfg offer now with
    | error refusal =>
        rw [gate] at created
        exact absurd created (deathGate_refuses cfg offer now refusal gate)
    | ok deadEndHeight => exact ⟨deadEndHeight, rfl⟩

/-- What the answer 201 says about the stored offer. -/
def OpenAt (cfg : Config) (env : Env) (world : World) (offerId : String) :
    Prop :=
  ∃ offer ∈ world.db.offers.rows, offer.offerId = offerId ∧
    (settled env.recordedTip world.unixTime.seconds offer).status ≠ .consumed ∧
    ∃ deadEndHeight, deathGate cfg
      (settled env.recordedTip world.unixTime.seconds offer)
      world.unixTime.seconds = .ok deadEndHeight

theorem claimById_open (enabled : cfg.allowTransfers = true)
    {authPubkey offerId : String} {payment : Payment}
    (created : ((claimById cfg authPubkey offerId payment).run (Op.exec env)
      world).1.status = .created) : OpenAt cfg env world offerId := by
  cases found : world.db.getOffer offerId with
  | none =>
      rw [claimById_unknown found] at created
      cases created
  | some offer =>
      obtain ⟨member, rfl⟩ := Db.getOffer_eq_some.mp found
      obtain ⟨db, -, isRun⟩ :=
        claimById_run enabled authPubkey payment member
      rw [isRun] at created
      exact ⟨offer, member, rfl, claimOffer_open created⟩

/-- A response 200 or 201. -/
def Response.Succeeds (response : Response) : Prop :=
  response.status = .ok ∨ response.status = .created

theorem Response.fails_of_status {response : Response} {status : StatusCode}
    (answered : response.status = status) (notOk : status ≠ .ok)
    (notCreated : status ≠ .created) : ¬response.Succeeds := by
  rintro (ok | created)
  · exact notOk (answered.symm.trans ok)
  · exact notCreated (answered.symm.trans created)

theorem Response.TurnsAway.fails {response : Response}
    (away : response.TurnsAway) : ¬response.Succeeds := by
  rcases away with status | status
  · exact Response.fails_of_status status nofun nofun
  · exact Response.fails_of_status status nofun nofun

theorem claim_authorized {headers : Headers} {body : Bytes}
    (succeeds : ((routes ext cfg (.claim headers body)).run (Op.exec env)
      world).1.Succeeds) :
    cfg.allowTransfers = true ∧
      routes ext cfg (.claim headers body) = claim ext cfg headers body ∧
      ∃ authPubkey, ((authorize ext cfg "transfer" headers .post
        "/api/v1/transfer/claim" body).run (Op.exec env) world).1 =
          .ok authPubkey := by
  have enabled : cfg.allowTransfers = true := by
    rcases succeeds with answered | answered
    · exact enabled_of_found answered nofun
    · exact enabled_of_found answered nofun
  have isRoute : routes ext cfg (.claim headers body) =
      claim ext cfg headers body := transferRoute_enabled enabled _
  refine ⟨enabled, isRoute, ?_⟩
  cases outcome : ((authorize ext cfg "transfer" headers .post
      "/api/v1/transfer/claim" body).run (Op.exec env) world).1 with
  | error refusal =>
      rw [isRoute, claim, run_bind, outcome] at succeeds
      exact absurd succeeds (authorize_refusal outcome).fails
  | ok authPubkey => exact ⟨authPubkey, rfl⟩

theorem claim_open {headers : Headers} {body : Bytes} {offerId : String}
    {proof : ParsedPaymentProof} (isBody : ClaimBody ext body offerId proof)
    (created : ((routes ext cfg (.claim headers body)).run (Op.exec env)
      world).1.status = .created) : OpenAt cfg env world offerId := by
  obtain ⟨enabled, isRoute, authPubkey, authorized⟩ :=
    claim_authorized (.inr created)
  obtain ⟨admitted, sameDb, sameTime, isRun⟩ := claim_run authorized isBody
  rw [isRoute, isRun] at created
  have open_ := claimById_open enabled created
  unfold OpenAt at open_ ⊢
  rwa [sameDb, sameTime] at open_

/-! ## Serial runs -/

/-- The time at which a request is handled. -/
def handledAt (served : FloonetExchange) : Int :=
  served.before.unixTime.seconds

/-- A claim that is answered by 201 comes within the grace window of every
earlier request that left its offer dead. -/
theorem claim_after_death {before after : List FloonetExchange}
    {claimed earlier : FloonetExchange}
    (run : (server ext cfg).SerialRun (before ++ claimed :: after) world)
    (member : earlier ∈ before) {offerId : String}
    (open_ : OpenAt cfg claimed.env claimed.before offerId)
    (dead : earlier.after.db.DeadOffer offerId) :
    handledAt claimed ≤ handledAt earlier + cfg.transferClaimGrace := by
  obtain ⟨beforeRun, -⟩ := run.split rfl
  obtain ⟨sooner, later, rfl⟩ := List.append_of_mem member
  obtain ⟨soonerRun, isEarlier⟩ := beforeRun.split rfl
  obtain ⟨offer, stored, isOffer, open_, deadEndHeight, gate⟩ := open_
  obtain ⟨row, rowMember, isRow, rowDead⟩ := dead
  have sameTime : earlier.after.unixTime = earlier.before.unixTime := by
    rw [isEarlier]
    exact run_clock earlier.env _ earlier.before
  have rowRecorded : row.DeathRecorded (handledAt earlier) := by
    have recorded := (SerialRun.tables
      (soonerRun.serve earlier.env earlier.request)).2
    rw [← isEarlier, sameTime] at recorded
    exact recorded row rowMember
  have offerRecorded := (SerialRun.tables beforeRun).2 offer stored
  have evolves := beforeRun.evolved server_evolution earlier member
  obtain ⟨current, currentMember, rowEvolves⟩ := evolves.db.offers row rowMember
  have same : current = offer := claimed.before.db.offers.eq_of_key
    currentMember stored (rowEvolves.offerId.trans (isRow.trans isOffer.symm))
  subst same
  obtain ⟨currentDead, -, sameChange⟩ := rowEvolves.dead rowDead
  rw [settled, if_neg fun dying => currentDead dying.1] at open_ gate
  have died : current.status = .revoked ∨ current.status = .expired := by
    cases status : current.status with
    | live => exact absurd status currentDead
    | consumed => exact absurd status open_
    | revoked => exact .inl rfl
    | expired => exact .inr rfl
  obtain ⟨changed, endHeight, known, inWindow, -⟩ :=
    (deathGate_eq_ok offerRecorded claimed.before.unixTime.bounded died).mp gate
  have noticed := (rowRecorded.past changed (by rw [← sameChange, known]; rfl)).2
  unfold handledAt at *
  omega

/-- If a claim is answered by 201, then it was handled within the grace window
of every earlier request that left its offer dead, and so of every
acknowledged revocation and every reading past the expiration. -/
theorem claims_within_grace {before after : List FloonetExchange}
    {claimed : FloonetExchange}
    (run : (server ext cfg).SerialRun (before ++ claimed :: after) world)
    {headers : Headers} {body : Bytes} {offerId : String}
    {proof : ParsedPaymentProof}
    (isClaim : claimed.request = .claim headers body)
    (isBody : ClaimBody ext body offerId proof)
    (created : claimed.response.status = .created) :
    (∀ earlier ∈ before, earlier.after.db.DeadOffer offerId →
      handledAt claimed ≤ handledAt earlier + cfg.transferClaimGrace) ∧
    (∀ earlier ∈ before, ∀ signed,
      earlier.request = .revokeOffer offerId signed →
      earlier.response.status = .ok →
        handledAt claimed ≤ handledAt earlier + cfg.transferClaimGrace) ∧
    ∀ earlier ∈ before, ∀ sent,
      earlier.request = .readOffer offerId sent →
      earlier.response.status = .ok →
      ∀ offer ∈ earlier.before.db.offers.rows, offer.offerId = offerId →
        offer.expiration < handledAt earlier →
        handledAt claimed ≤ handledAt earlier + cfg.transferClaimGrace := by
  have isExchange := (run.split rfl).2
  have open_ : OpenAt cfg claimed.env claimed.before offerId := by
    rw [isExchange, isClaim] at created
    exact claim_open isBody created
  have parts : ∀ earlier ∈ before, earlier = (server ext cfg).exchange
      earlier.env earlier.request earlier.before := by
    intro earlier member
    obtain ⟨sooner, later, rfl⟩ := List.append_of_mem member
    exact ((run.split rfl).1.split rfl).2
  have within : ∀ earlier ∈ before, earlier.after.db.DeadOffer offerId →
      handledAt claimed ≤ handledAt earlier + cfg.transferClaimGrace :=
    fun earlier member => claim_after_death run member open_
  refine ⟨within, ?_, ?_⟩
  · intro earlier member signed isRevocation granted
    apply within earlier member
    rw [parts earlier member, isRevocation] at granted ⊢
    exact revokeOffer_run offerId signed granted
  · intro earlier member sent isReading answered offer stored isOffer late
    apply within earlier member
    rw [parts earlier member, isReading] at answered ⊢
    have enabled : cfg.allowTransfers = true :=
      enabled_of_found answered nofun
    have isRoute : routes ext cfg (.readOffer offerId sent) =
        readOffer ext cfg offerId sent := transferRoute_enabled enabled _
    unfold System.exchange server at answered ⊢
    dsimp only at answered ⊢
    rw [isRoute] at answered ⊢
    exact readOffer_run enabled answered stored isOffer late

section Schedules

open Sample

theorem claimBody_isBody : ∃ proof,
    ClaimBody host claimBody firstOffer.id proof := by
  obtain ⟨proof, accepted, -⟩ := claimBody_accepted
  exact ⟨proof, claimRequest_eq_ok.mp accepted⟩

/-- The buyer claims an offer that was revoked after the payment. -/
theorem claims_within_grace_revoked : ∃ before claimed earlier final,
    Market.SerialRun (before ++ [claimed]) final ∧
      claimed.response.status = .created ∧ earlier ∈ before ∧
      earlier.request = revokeNow.request ∧
      earlier.response.status = .ok ∧
      handledAt claimed ≤ handledAt earlier + config.transferClaimGrace := by
  have lodged := ((SerialRun.start world_initial).serveBy (node 100 100)
    registerSeller).serveBy (node 100 100) lodgeFirst
  have run := (lodged.serveBy (node 100 100) revokeNow).serveBy (node 100 100)
    claimNow
  obtain ⟨proof, isBody⟩ := claimBody_isBody
  refine ⟨_, _, _, _, run, ?created,
    List.mem_append_right _ List.mem_cons_self, rfl, ?granted, ?within⟩
  case created => decide +kernel
  case granted => decide +kernel
  case within =>
    exact (claims_within_grace run rfl isBody (by decide +kernel)).2.1 _
      (List.mem_append_right _ List.mem_cons_self) _ rfl (by decide +kernel)

/-- Nobody looks at the offer for more than the grace window after its
expiration; then the buyer claims it. -/
theorem claim_after_grace : ∃ before claimed final headers,
    Market.SerialRun (before ++ [claimed]) final ∧
      claimed.request = .claim headers claimBody ∧
      claimed.response.status = .created ∧
      ∃ offer ∈ claimed.before.db.offers.rows,
        offer.offerId = firstOffer.id ∧
          offer.expiration + config.transferClaimGrace < handledAt claimed := by
  have lodged := ((SerialRun.start world_initial).serveBy (node 100 100)
    registerSeller).serveBy (node 100 100) lodgeFirst
  have run := (lodged.tick ⟨3600 + 86400 + 100, 0, 0⟩).serveBy (node 100 100)
    claimStale
  refine ⟨_, _, _, _, run, rfl, ?created, ?stale⟩
  case created => decide +kernel
  case stale =>
    obtain ⟨offer, member, stale⟩ := List.any_eq_true.mp
      (show ((lodgeFirst.exchange (node 100 100) (registerSeller.exchange
        (node 100 100) world).after).after.db.offers.rows.any fun offer =>
          decide (offer.offerId = firstOffer.id ∧
            offer.expiration + config.transferClaimGrace <
              start + 3600 + 86400 + 100)) = true by decide +kernel)
    exact ⟨offer, member, of_decide_eq_true stale⟩

end Schedules

end Floonet
