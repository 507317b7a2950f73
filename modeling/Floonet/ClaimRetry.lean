import Floonet.GraceWindow
import Floonet.Payments

/-!
# Retries of a claim

A claim of a consumed offer is answered from the transfer that consumed it, to
whoever asks.  The transfer is never changed, so the answer stays what it was.
-/

namespace Floonet

open Concurrent MachineInt Program Relational System Text Validation

variable {ext : Extern} {cfg : Config} {env : Env} {world : World}

/-! ## Answers from a transfer -/

theorem Db.transferForOffer_eq_some {db : Db}
    {offerId excess name buyer : String} :
    db.transferForOffer offerId = some (excess, name, buyer) ↔
      ∃ transfer ∈ db.transfers.rows, transfer.offerId = offerId ∧
        transfer.kernelExcess = excess ∧ transfer.name = name ∧
          transfer.buyerPubkey = buyer := by
  have byKey : ∀ {row : TransferRow},
      (db.transfers.select fun row => decide (row.offerId = offerId)) =
        some row ↔ row ∈ db.transfers.rows ∧ row.offerId = offerId :=
    Table.select_key
  simp only [transferForOffer, Option.map_eq_some_iff, byKey, Prod.mk.injEq,
    and_assoc]

/-- The transfer of an offer, if it was paid with a given kernel. -/
def Db.PaidWith (db : Db) (offerId excessHex : String)
    (transfer : TransferRow) : Prop :=
  transfer ∈ db.transfers.rows ∧ transfer.offerId = offerId ∧
    transfer.kernelExcess = excessHex

theorem claimRetry_paid {offerId excessHex : String} {transfer : TransferRow}
    (paid : world.db.PaidWith offerId excessHex transfer) :
    (claimRetry cfg offerId excessHex).run (Op.exec env) world =
      (⟨.ok, claimSuccess transfer.name cfg.domain transfer.buyerPubkey⟩,
        world) := by
  obtain ⟨member, isOffer, isExcess⟩ := paid
  have found := Db.transferForOffer_eq_some.mpr
    ⟨transfer, member, isOffer, isExcess, rfl, rfl⟩
  have asked : Op.exec env (.db (.transferForOffer offerId)) world =
    (some (excessHex, transfer.name, transfer.buyerPubkey), world) :=
      congrArg (·, world) found
  rw [claimRetry, App.transferForOffer, run_perform_bind _ asked]
  simp

theorem claimRetry_succeeds {offerId excessHex : String}
    (succeeds : ((claimRetry cfg offerId excessHex).run (Op.exec env)
      world).1.Succeeds) :
    ∃ transfer, world.db.PaidWith offerId excessHex transfer := by
  cases found : world.db.transferForOffer offerId with
  | none =>
      have asked : Op.exec env (.db (.transferForOffer offerId)) world =
        (none, world) := congrArg (·, world) found
      rw [claimRetry, App.transferForOffer, run_perform_bind _ asked]
        at succeeds
      exact absurd succeeds (Response.fails_of_status rfl nofun nofun)
  | some recorded =>
      obtain ⟨excess, name, buyer⟩ := recorded
      have asked : Op.exec env (.db (.transferForOffer offerId)) world =
        (some (excess, name, buyer), world) := congrArg (·, world) found
      rw [claimRetry, App.transferForOffer, run_perform_bind _ asked]
        at succeeds
      dsimp only at succeeds
      by_cases same : excess = excessHex
      · obtain ⟨transfer, member, isOffer, isExcess, -⟩ :=
          Db.transferForOffer_eq_some.mp found
        exact ⟨transfer, member, isOffer, isExcess.trans same⟩
      · rw [if_neg same] at succeeds
        exact absurd succeeds (Response.fails_of_status rfl nofun nofun)

/-! ## Who is answered -/

/-- An unsold offer is sold to its buyer only. -/
theorem claimOffer_stranger {authPubkey offerId : String} {payment : Payment}
    {offer : OfferRow} {now : Int} (unsold : offer.status ≠ .consumed)
    (stranger : authPubkey ≠ offer.buyerPubkey) :
    ¬((claimOffer cfg authPubkey offerId payment offer now).run (Op.exec env)
      world).1.Succeeds := by
  rw [claimOffer, if_neg unsold]
  cases gate : deathGate cfg offer now with
  | error refusal =>
      exact Response.fails_of_status
        (deathGate_gone cfg offer now refusal gate) nofun nofun
  | ok deadEndHeight =>
      dsimp only
      rw [if_pos stranger]
      exact Response.fails_of_status rfl nofun nofun

/-- The claim of a consumed offer is answered from its transfer. -/
theorem claimById_consumed (authPubkey : String) (payment : Payment)
    {offer : OfferRow} (member : offer ∈ world.db.offers.rows)
    (consumed : offer.status = .consumed) :
    (claimById cfg authPubkey offer.offerId payment).run (Op.exec env) world =
      (claimRetry cfg offer.offerId payment.excessHex).run (Op.exec env)
        world := by
  have found := Db.getOffer_eq_some.mpr ⟨member, rfl⟩
  have asked : Op.exec env (.db (.getOffer offer.offerId)) world =
    (some offer, world) := congrArg (·, world) found
  have clock : Op.exec env .unixNow world =
    (world.unixTime.seconds, world) := rfl
  have notLive : offer.status ≠ .live := by
    rw [consumed]
    exact nofun
  rw [claimById, App.getOffer, run_perform_bind _ asked]
  dsimp only
  rw [App.unixNow, run_perform_bind _ clock, settleExpiry,
    if_pos (.inl notLive), pure_eq_done, done_bind, claimOffer,
    if_pos consumed]

/-- An offer consumed by a payment with a given excess, and a key that is not
its buyer's. -/
structure RetriedByOther (db : Db) (authPubkey offerId excessHex : String)
    (offer : OfferRow) : Prop where
  stored : offer ∈ db.offers.rows
  isOffer : offer.offerId = offerId
  consumed : offer.status = .consumed
  paid : ∃ transfer, db.PaidWith offerId excessHex transfer
  stranger : authPubkey ≠ offer.buyerPubkey

theorem claimById_succeeds (enabled : cfg.allowTransfers = true)
    {authPubkey offerId : String} {payment : Payment}
    (succeeds : ((claimById cfg authPubkey offerId payment).run (Op.exec env)
      world).1.Succeeds) :
    ∃ offer ∈ world.db.offers.rows, offer.offerId = offerId ∧
      (authPubkey = offer.buyerPubkey ∨ RetriedByOther world.db authPubkey
        offerId payment.excessHex offer) := by
  cases found : world.db.getOffer offerId with
  | none =>
      rw [claimById_unknown found] at succeeds
      exact absurd succeeds (Response.fails_of_status rfl nofun nofun)
  | some offer =>
      obtain ⟨member, rfl⟩ := Db.getOffer_eq_some.mp found
      refine ⟨offer, member, rfl, ?_⟩
      by_cases buyer : authPubkey = offer.buyerPubkey
      · exact .inl buyer
      by_cases consumed : offer.status = .consumed
      · rw [claimById_consumed authPubkey payment member consumed] at succeeds
        exact .inr ⟨member, rfl, consumed, claimRetry_succeeds succeeds, buyer⟩
      · obtain ⟨db, -, isRun⟩ :=
          claimById_run enabled authPubkey payment member
        rw [isRun] at succeeds
        refine absurd succeeds (claimOffer_stranger ?_ ?_)
        · rwa [ne_eq, settled_consumed]
        · rwa [settled_buyerPubkey]

/-- A claim is authorized, for a key that retries the paid claim of another. -/
def ClaimRetriedByOther (ext : Extern) (cfg : Config) (env : Env)
    (headers : Headers) (body : Bytes) (world : World) : Prop :=
  cfg.allowTransfers = true ∧ ∃ authPubkey offerId proof offer,
    ((authorize ext cfg "transfer" headers .post "/api/v1/transfer/claim"
      body).run (Op.exec env) world).1 = .ok authPubkey ∧
    ClaimBody ext body offerId proof ∧
    RetriedByOther world.db authPubkey offerId proof.excessHex offer

/-- The key that signed the claim is the buyer of the offer it names. -/
def ClaimedByBuyer (ext : Extern) (headers : Headers) (body : Bytes)
    (world : World) : Prop :=
  ∃ offerId proof, ClaimBody ext body offerId proof ∧
    ∃ offer ∈ world.db.offers.rows, offer.offerId = offerId ∧
      headers.signer = some offer.buyerPubkey

/-- A claim succeeds for the buyer, or as a retry by somebody else. -/
theorem claimRequest_fails {body : Bytes} {refusal : Response}
    (refused : claimRequest ext body = .error refusal) : ¬refusal.Succeeds :=
  Response.fails_of_status
    (claimRequest_badRequest ext body refusal refused) nofun nofun

theorem claim_succeeds {headers : Headers} {body : Bytes}
    (succeeds : ((routes ext cfg (.claim headers body)).run (Op.exec env)
      world).1.Succeeds) :
    ClaimedByBuyer ext headers body world ∨
      ClaimRetriedByOther ext cfg env headers body world := by
  obtain ⟨enabled, isRoute, authPubkey, authorized⟩ :=
    claim_authorized succeeds
  rw [isRoute] at succeeds
  cases request : claimRequest ext body with
  | error refusal =>
      have fails := claimRequest_fails request
      rw [claim, run_bind, authorized] at succeeds
      simp only [request] at succeeds
      exact absurd succeeds fails
  | ok accepted =>
      obtain ⟨offerId, proof⟩ := accepted
      have isBody := claimRequest_eq_ok.mp request
      obtain ⟨admitted, sameDb, -, isRun⟩ := claim_run authorized isBody
      rw [isRun] at succeeds
      obtain ⟨offer, member, isOffer, buyer | retried⟩ :=
        claimById_succeeds enabled succeeds
      · rw [sameDb] at member
        refine .inl ⟨offerId, proof, isBody, offer, member, isOffer, ?_⟩
        rw [← buyer]
        exact authorize_signer authorized
      · rw [sameDb] at retried
        exact .inr ⟨enabled, authPubkey, offerId, proof, offer, authorized,
          isBody, retried⟩

/-- An authorized claim of a consumed offer with the excess of its transfer is
answered by that transfer and changes no table. -/
theorem claim_consumed (enabled : cfg.allowTransfers = true)
    {headers : Headers} {body : Bytes} {authPubkey offerId : String}
    {proof : ParsedPaymentProof} {offer : OfferRow} {transfer : TransferRow}
    (authorized : ((authorize ext cfg "transfer" headers .post
      "/api/v1/transfer/claim" body).run (Op.exec env) world).1 =
        .ok authPubkey)
    (isBody : ClaimBody ext body offerId proof)
    (member : offer ∈ world.db.offers.rows) (isOffer : offer.offerId = offerId)
    (consumed : offer.status = .consumed)
    (paid : world.db.PaidWith offerId proof.excessHex transfer) :
    ((routes ext cfg (.claim headers body)).run (Op.exec env) world).1 =
        ⟨.ok, claimSuccess transfer.name cfg.domain transfer.buyerPubkey⟩ ∧
      ((routes ext cfg (.claim headers body)).run (Op.exec env) world).2.db =
        world.db := by
  have isRoute : routes ext cfg (.claim headers body) =
      claim ext cfg headers body := transferRoute_enabled enabled _
  obtain ⟨admitted, sameDb, -, isRun⟩ := claim_run authorized isBody
  subst isOffer
  rw [← sameDb] at member paid
  rw [isRoute, isRun, claimById_consumed authPubkey _ member consumed]
  have answered : (claimRetry cfg offer.offerId (proof.payment ext).excessHex).run
      (Op.exec env) admitted = _ := claimRetry_paid paid
  rw [answered]
  exact ⟨rfl, sameDb⟩

theorem claim_by_buyer_iff (headers : Headers) (body : Bytes) :
    (((routes ext cfg (.claim headers body)).run (Op.exec env)
        world).1.Succeeds → ClaimedByBuyer ext headers body world) ↔
      ¬ClaimRetriedByOther ext cfg env headers body world := by
  constructor
  · rintro byBuyer ⟨enabled, authPubkey, offerId, proof, offer, authorized,
      isBody, retried⟩
    obtain ⟨transfer, paid⟩ := retried.paid
    obtain ⟨answered, -⟩ := claim_consumed enabled authorized isBody
      retried.stored retried.isOffer retried.consumed paid
    have succeeds : ((routes ext cfg (.claim headers body)).run (Op.exec env)
        world).1.Succeeds := by
      rw [answered]
      exact .inl rfl
    obtain ⟨otherId, otherProof, otherBody, other, member, isOther, signed⟩ :=
      byBuyer succeeds
    have sameBody : (otherId, otherProof) = (offerId, proof) :=
      Except.ok.inj ((claimRequest_eq_ok.mpr otherBody).symm.trans
        (claimRequest_eq_ok.mpr isBody))
    obtain ⟨rfl, rfl⟩ := Prod.mk.inj sameBody
    have same := world.db.offers.eq_of_key member retried.stored
      (isOther.trans retried.isOffer.symm)
    subst same
    rw [authorize_signer authorized] at signed
    exact retried.stranger (Option.some.inj signed)
  · intro notRetried succeeds
    rcases claim_succeeds succeeds with byBuyer | retried
    · exact byBuyer
    · exact absurd retried notRetried

/-- A claim that a serial run has handled succeeds only for the buyer of the
offer it names, unless it is a retry by another key. -/
theorem claims_by_buyer_iff {log : List FloonetExchange}
    (run : (server ext cfg).SerialRun log world) :
    ∀ served ∈ log, ∀ headers body, served.request = .claim headers body →
      ((served.response.Succeeds →
          ClaimedByBuyer ext headers body served.before) ↔
        ¬ClaimRetriedByOther ext cfg served.env headers body
          served.before) := by
  intro served member headers body isClaim
  obtain ⟨before, after, rfl⟩ := List.append_of_mem member
  have isExchange := (run.split rfl).2
  have answered : served.response = ((routes ext cfg (.claim headers body)).run
      (Op.exec served.env) served.before).1 := by
    rw [isExchange, isClaim]
    rfl
  rw [answered]
  exact claim_by_buyer_iff headers body

/-! ## The answer of a retry -/

/-- An answer that can be read off the transfer of an offer. -/
def Db.Answers (db : Db) (cfg : Config) (offerId excessHex : String)
    (answer : Json) : Prop :=
  ∃ transfer, db.PaidWith offerId excessHex transfer ∧
    answer = claimSuccess transfer.name cfg.domain transfer.buyerPubkey

theorem executeClaim_created {offer : OfferRow} {excessHex : String}
    {kernelHeight : Option Int} {now : Int}
    (created : ((executeClaim cfg offer excessHex kernelHeight now).run
      (Op.exec env) world).1.status = .created) :
    ((executeClaim cfg offer excessHex kernelHeight now).run (Op.exec env)
      world).2.db.Answers cfg offer.offerId excessHex
        ((executeClaim cfg offer excessHex kernelHeight now).run (Op.exec env)
          world).1.body := by
  rcases world.db.runClaimTxn_cases offer excessHex kernelHeight now with
    ⟨error, done, -⟩ | ⟨after, done, claimed⟩
  · have asked : Op.exec env (.db (.runClaimTxn offer excessHex kernelHeight
        now)) world = (.error error, world) := by
      simp only [Op.exec, DbOp.exec, done]
    rw [executeClaim, App.runClaimTxn, run_perform_bind _ asked] at created
    cases error <;> cases created
  · have asked : Op.exec env (.db (.runClaimTxn offer excessHex kernelHeight
        now)) world = (.ok (), { world with db := after }) := by
      simp only [Op.exec, DbOp.exec, done]
    rw [executeClaim, App.runClaimTxn, run_perform_bind _ asked]
    have recorded : claimedTransfer offer excessHex kernelHeight now ∈
        after.transfers.rows := by
      rw [claimed.transfers]
      exact List.mem_append_right _ List.mem_cons_self
    exact ⟨_, ⟨recorded, rfl, rfl⟩, rfl⟩

theorem claimPaid_created (enabled : cfg.allowTransfers = true)
    {offer : OfferRow} {excessHex : String} {deadEndHeight : Option Int}
    {now : Int}
    (created : ((claimPaid cfg offer excessHex deadEndHeight now).run
      (Op.exec env) world).1.status = .created) :
    ((claimPaid cfg offer excessHex deadEndHeight now).run (Op.exec env)
      world).2.db.Answers cfg offer.offerId excessHex
        ((claimPaid cfg offer excessHex deadEndHeight now).run (Op.exec env)
          world).1.body := by
  unfold claimPaid at created ⊢
  rw [run_bind, nodeKernel_run enabled] at created ⊢
  dsimp only at created ⊢
  cases gate : kernelGate cfg offer deadEndHeight (env.kernel excessHex) with
  | error refusal =>
      rw [gate] at created
      exact absurd created
        (kernelGate_refuses cfg offer deadEndHeight _ refusal gate)
  | ok kernelHeight =>
      rw [gate] at created
      have asked : Op.exec env (.db (.excessUsed excessHex)) world =
        (world.db.excessUsed excessHex, world) := rfl
      have lookedUp : Op.exec env (.db (.nameOf offer.buyerPubkey)) world =
        (world.db.nameOf offer.buyerPubkey, world) := rfl
      dsimp only at created ⊢
      rw [App.excessUsed, run_perform_bind _ asked] at created ⊢
      cases used : world.db.excessUsed excessHex with
      | true =>
          rw [used] at created
          cases created
      | false =>
          rw [used, if_neg nofun, App.nameOf, run_perform_bind _ lookedUp]
            at created
          rw [if_neg nofun, App.nameOf, run_perform_bind _ lookedUp]
          cases named : world.db.nameOf offer.buyerPubkey with
          | some existing =>
              rw [named] at created
              cases created
          | none =>
              rw [named] at created
              exact executeClaim_created created

theorem claimOffer_created (enabled : cfg.allowTransfers = true)
    {authPubkey offerId : String} {payment : Payment} {offer : OfferRow}
    {now : Int}
    (created : ((claimOffer cfg authPubkey offerId payment offer now).run
      (Op.exec env) world).1.status = .created) :
    payment.verified = true ∧
      ((claimOffer cfg authPubkey offerId payment offer now).run (Op.exec env)
        world).2.db.Answers cfg offer.offerId payment.excessHex
          ((claimOffer cfg authPubkey offerId payment offer now).run
            (Op.exec env) world).1.body := by
  obtain ⟨unsold, deadEndHeight, gate⟩ := claimOffer_open created
  unfold claimOffer at created ⊢
  rw [if_neg unsold, gate] at created ⊢
  dsimp only at created ⊢
  by_cases buyer : authPubkey = offer.buyerPubkey
  · have asked : Op.exec env (.db (.lookup offer.name)) world =
      (world.db.lookup offer.name, world) := rfl
    rw [if_neg (not_not_intro buyer), App.lookup, run_perform_bind _ asked]
      at created ⊢
    by_cases owner : world.db.lookup offer.name = some offer.sellerPubkey
    · rw [if_neg (not_not_intro owner)] at created ⊢
      cases paid : proofGate offer payment with
      | error refusal =>
          rw [paid] at created
          exact absurd created (proofGate_refuses offer payment refusal paid)
      | ok _ =>
          rw [paid] at created
          exact ⟨(proofGate_eq_ok.mp paid).1, claimPaid_created enabled created⟩
    · rw [if_pos owner] at created
      cases created
  · rw [if_pos buyer] at created
    cases created

theorem claimById_created (enabled : cfg.allowTransfers = true)
    {authPubkey offerId : String} {payment : Payment}
    (created : ((claimById cfg authPubkey offerId payment).run (Op.exec env)
      world).1.status = .created) :
    payment.verified = true ∧
      ((claimById cfg authPubkey offerId payment).run (Op.exec env)
        world).2.db.Answers cfg offerId payment.excessHex
          ((claimById cfg authPubkey offerId payment).run (Op.exec env)
            world).1.body := by
  cases found : world.db.getOffer offerId with
  | none =>
      rw [claimById_unknown found] at created
      cases created
  | some offer =>
      obtain ⟨member, rfl⟩ := Db.getOffer_eq_some.mp found
      obtain ⟨db, -, isRun⟩ :=
        claimById_run enabled authPubkey payment member
      rw [isRun] at created ⊢
      have sold := claimOffer_created enabled created
      rwa [settled_offerId] at sold

theorem claim_created {headers : Headers} {body : Bytes} {offerId : String}
    {proof : ParsedPaymentProof} (isBody : ClaimBody ext body offerId proof)
    (created : ((routes ext cfg (.claim headers body)).run (Op.exec env)
      world).1.status = .created) :
    verifySignatures ext proof = true ∧
      ((routes ext cfg (.claim headers body)).run (Op.exec env)
        world).2.db.Answers cfg offerId proof.excessHex
          ((routes ext cfg (.claim headers body)).run (Op.exec env)
            world).1.body := by
  obtain ⟨enabled, isRoute, authPubkey, authorized⟩ :=
    claim_authorized (.inr created)
  obtain ⟨admitted, -, -, isRun⟩ := claim_run authorized isBody
  rw [isRoute, isRun] at created ⊢
  exact claimById_created enabled created

/-! ## The bytes of an excess -/

/-- The excess of an accepted claim is the text of the bytes it denotes. -/
theorem ClaimBody.excess_canonical {body : Bytes} {offerId : String}
    {proof : ParsedPaymentProof} (isBody : ClaimBody ext body offerId proof)
    {bytes : List UInt8} (decoded : hexDecode proof.excessHex = some bytes) :
    hexEncode bytes = proof.excessHex := by
  obtain ⟨-, -, proofVal, -, -, -, -, parsed, -⟩ := isBody
  exact hexEncode_hexDecode decoded (parsePaymentProof_lower parsed)

theorem ClaimBody.excess_eq {body otherBody : Bytes}
    {offerId otherId : String} {proof otherProof : ParsedPaymentProof}
    (isBody : ClaimBody ext body offerId proof)
    (isOther : ClaimBody ext otherBody otherId otherProof)
    (verified : verifySignatures ext proof = true)
    (sameBytes : hexDecode otherProof.excessHex = hexDecode proof.excessHex) :
    otherProof.excessHex = proof.excessHex := by
  have decoded : ∃ bytes, hexDecode proof.excessHex = some bytes := by
    cases denoted : hexDecode proof.excessHex with
    | some bytes => exact ⟨bytes, rfl⟩
    | none =>
        simp only [verifySignatures, paymentProofMessage, denoted] at verified
        split at verified
        · cases verified
        · split at verified <;> cases verified
  obtain ⟨bytes, decoded⟩ := decoded
  rw [← isBody.excess_canonical decoded,
    ← isOther.excess_canonical (sameBytes.trans decoded)]

/-! ## Retries in a serial run -/

theorem Db.Answers.evolves {before after : Db} (evolves : before.Evolves after)
    {offerId excessHex : String} {answer : Json}
    (answers : before.Answers cfg offerId excessHex answer) :
    after.Answers cfg offerId excessHex answer := by
  obtain ⟨transfer, ⟨member, isOffer, isExcess⟩, read⟩ := answers
  exact ⟨transfer, ⟨evolves.transfers transfer member, isOffer, isExcess⟩, read⟩

/-- After a claim was answered by 201, whatever requests have been handled
since, an authorized claim of the same offer with the same excess is answered
by 200 with the same body, and changes no table. -/
theorem claim_idempotent {log : List FloonetExchange}
    (run : (server ext cfg).SerialRun log world) {first : FloonetExchange}
    (member : first ∈ log) {headers : Headers} {body : Bytes}
    (isClaim : first.request = .claim headers body) {offerId : String}
    {proof : ParsedPaymentProof} (isBody : ClaimBody ext body offerId proof)
    (created : first.response.status = .created) {retryHeaders : Headers}
    {retryBody : Bytes} {retryProof : ParsedPaymentProof}
    {authPubkey : String}
    (authorized : ((authorize ext cfg "transfer" retryHeaders .post
      "/api/v1/transfer/claim" retryBody).run (Op.exec env) world).1 =
        .ok authPubkey)
    (isRetry : ClaimBody ext retryBody offerId retryProof)
    (sameBytes : hexDecode retryProof.excessHex = hexDecode proof.excessHex) :
    let retry := (server ext cfg).exchange env
      (.claim retryHeaders retryBody) world
    retry.response = ⟨.ok, first.response.body⟩ ∧
      retry.after.db = world.db := by
  intro retry
  obtain ⟨before, after, rfl⟩ := List.append_of_mem member
  obtain ⟨-, isExchange⟩ := run.split rfl
  have isFirst : (first.response, first.after) =
      (routes ext cfg (.claim headers body)).run (Op.exec first.env)
        first.before := by
    rw [isExchange, isClaim]
    rfl
  have firstCreated : ((routes ext cfg (.claim headers body)).run
      (Op.exec first.env) first.before).1.status = .created := by
    rw [← isFirst]
    exact created
  have enabled : cfg.allowTransfers = true :=
    enabled_of_found firstCreated nofun
  obtain ⟨verified, sold⟩ := claim_created isBody firstCreated
  rw [← isFirst] at sold
  have evolved := run.evolved server_evolution first member
  obtain ⟨transfer, paid, read⟩ := sold.evolves evolved.db
  obtain ⟨settled, -⟩ := SerialRun.tables run
  obtain ⟨offer, stored, sameId, consumed⟩ :=
    settled.delivered transfer paid.1
  have isOffer : offer.offerId = offerId := sameId.trans paid.2.1
  rw [← isBody.excess_eq isRetry verified sameBytes] at paid
  obtain ⟨answered, unchanged⟩ := claim_consumed enabled authorized isRetry
    stored isOffer consumed paid
  refine ⟨?_, unchanged⟩
  rw [read]
  exact answered

section Schedules

open Sample

/-- The rival sends the body of the buyer's claim. -/
def claimRival : Prepared :=
  Sample.claim
    "e30c3ab63ae58d30b76bcd146fc64c32ef20fe5a66da2bfee567f41dcddbf0ad" rival
    start claimBody firstOffer.id firstPayment (by decide +kernel) rival_valid
    claimBody_accepted

/-! The registration, the lodging and the claim of a sale. -/

def saleRegistration : FloonetExchange :=
  registerSeller.exchange (node 100 100) Sample.world

def saleLodging : FloonetExchange :=
  lodgeFirst.exchange (node 100 100) saleRegistration.after

def saleClaim : FloonetExchange :=
  claimNow.exchange (node 100 100) saleLodging.after

theorem sale_run : Market.SerialRun [saleRegistration, saleLodging, saleClaim]
    saleClaim.after :=
  (((SerialRun.start world_initial).serveBy (node 100 100)
    registerSeller).serveBy (node 100 100) lodgeFirst).serveBy (node 100 100)
      claimNow

theorem saleClaim_created : saleClaim.response.status = .created := by
  decide +kernel

/-- The buyer's own claim. -/
theorem claims_by_buyer_iff_sale : ∃ headers,
    Market.SerialRun [saleRegistration, saleLodging, saleClaim]
        saleClaim.after ∧
      saleClaim.request = .claim headers claimBody ∧
      saleClaim.response.Succeeds ∧
      ClaimedByBuyer host headers claimBody saleClaim.before := by
  have outcome := claims_by_buyer_iff sale_run saleClaim (by simp) _ _ rfl
  refine ⟨_, sale_run, rfl, .inr saleClaim_created,
    outcome.mpr ?fresh (.inr saleClaim_created)⟩
  case fresh =>
    rintro ⟨-, _, _, _, offer, -, -, retried⟩
    have live : (saleLodging.after.db.offers.rows.all fun offer =>
        decide (offer.status = .live)) = true := by decide +kernel
    have isLive := of_decide_eq_true
      (List.all_eq_true.mp live offer retried.stored)
    rw [retried.consumed] at isLive
    cases isLive

/-- The rival sends the body of the buyer's claim. -/
def rivalClaim : FloonetExchange :=
  claimRival.exchange (node 100 100) saleClaim.after

/-- The rival's claim is answered by 200. -/
theorem claim_by_rival : ∃ headers,
    Market.SerialRun ([saleRegistration, saleLodging, saleClaim] ++
        [rivalClaim]) rivalClaim.after ∧
      rivalClaim.request = .claim headers claimBody ∧
      rivalClaim.response.Succeeds ∧
      ¬ClaimedByBuyer host headers claimBody rivalClaim.before := by
  refine ⟨_, sale_run.serveBy (node 100 100) claimRival, rfl, .inl ?ok,
    ?stranger⟩
  case ok => decide +kernel
  case stranger =>
    rintro ⟨-, -, -, offer, member, -, signed⟩
    have others : (saleClaim.after.db.offers.rows.all fun offer =>
        decide (offer.buyerPubkey ≠ rival)) = true := by decide +kernel
    have isRival : some (Bytes32.ofHex rival).toHex =
      some offer.buyerPubkey := signed
    rw [Bytes32.toHex_ofHex rival_valid] at isRival
    exact of_decide_eq_true (List.all_eq_true.mp others offer member)
      (Option.some.inj isRival).symm

/-- The id of the event that authorizes `claimLate`. -/
def claimLateId : String :=
  "a3ea7afd40ee7a0df6fa308f61a6d0da8208b92a6936eddbab2262a6318957ab"

/-- An hour later, after a reading of the offer, the buyer claims again, with
the headers of `claimLate`. -/
theorem claim_idempotent_sale : ∃ log final headers,
    Market.SerialRun log final ∧ saleClaim ∈ log ∧
      (Market.exchange (node 100 100) (.claim headers claimBody)
        final).response = ⟨.ok, saleClaim.response.body⟩ ∧
      (Market.exchange (node 100 100) (.claim headers claimBody)
        final).after.db = final.db := by
  have reached : ∃ log final, Market.SerialRun log final ∧ saleClaim ∈ log ∧
      ((served "transfer" (expiration + 100) (Bytes32.ofHex claimLateId).toHex
        (return ⟨.created, .null⟩)).run (Op.exec (node 100 100))
          final).1.status = .created :=
    ⟨_, _, (sale_run.tick ⟨3700, 0, 0⟩).serveBy (node 100 100) Sample.read,
      List.mem_append_left _ (by simp), by decide +kernel⟩
  obtain ⟨log, final, run, member, admitted⟩ := reached
  have authorized : ((authorize host config "transfer"
      (signed claimLateId buyer (expiration + 100) .post
        "/api/v1/transfer/claim" claimBody) .post "/api/v1/transfer/claim"
      claimBody).run (Op.exec (node 100 100)) final).1 =
        .ok (Bytes32.ofHex buyer).toHex := authorize_signed admitted
  obtain ⟨proof, isBody⟩ := claimBody_isBody
  obtain ⟨answered, unchanged⟩ := claim_idempotent run member rfl isBody
    saleClaim_created authorized isBody rfl
  exact ⟨log, final, _, run, member, answered, unchanged⟩

end Schedules

end Floonet
