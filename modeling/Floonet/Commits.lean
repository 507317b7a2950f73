import Floonet.LodgedOffers
import Floonet.Restarts

/-!
# One effective write for each request

A request has at most one step that takes effect on the names, the offers and
the transfers, the expiry of offers it comes across apart.  A request that
creates something answers 201 exactly if this step has committed, so that a
client that is refused has changed nothing.
-/

namespace Floonet

open Concurrent Program System Validation

/-! ## Effective steps -/

/-- The step has created a name, an offer or a transfer. -/
def Op.commits : (op : Op) → op.Ans → Bool
  | .db (.insertName _ _), answer => changedRows answer
  | .db (.insertOffer _), answer =>
      match answer with
      | .ok _ => true
      | .error _ => false
  | .db (.runClaimTxn _ _ _ _), answer =>
      match answer with
      | .ok _ => true
      | .error _ => false
  | _, _ => false

/-- The step has released a name or revoked an offer. -/
def Op.withdraws : (op : Op) → op.Ans → Bool
  | .db (.releaseName _), answer => changedRows answer
  | .db (.markOfferDead _ status _ _), answer =>
      decide (status ≠ .expired) && changedRows answer
  | .db (.reviseRevoked _), _ => true
  | _, _ => false

/-- The expiry of an offer past its expiration. -/
def Op.Expires (op : Op) : Prop :=
  ∃ offerId endHeight now, op = .db (.markOfferDead offerId .expired endHeight now)

/-- Neither a commit nor a withdrawal. -/
def Op.Idle (op : Op) (answer : op.Ans) : Prop :=
  op.commits answer = false ∧ op.withdraws answer = false

theorem Op.Expires.uncommitted {op : Op} (expires : op.Expires)
    (answer : op.Ans) : op.commits answer = false := by
  obtain ⟨offerId, endHeight, now, rfl⟩ := expires
  rfl

theorem Op.idle_of_silent {op : Op} (silent : op.silent = true)
    (answer : op.Ans) : op.Idle answer := by
  cases op with
  | db op => cases op <;> first | exact ⟨rfl, rfl⟩ | cases silent
  | _ => exact ⟨rfl, rfl⟩

/-- A step that leaves the market alone, or lets an offer expire. -/
theorem Effect.idle {now : Int} {before after : Db} {op : Op} {answer : op.Ans}
    (effect : Effect now before after op answer) (idle : op.Idle answer) :
    before.SameMarket after ∨ op.Expires := by
  obtain ⟨uncommitted, kept⟩ := idle
  cases effect with
  | kept _ same => exact .inl same
  | @died offerId status endHeight changedAt _ =>
      have expired : status = .expired := by
        simpa [Op.withdraws, changedRows] using kept
      subst expired
      exact .inr ⟨offerId, endHeight, changedAt, rfl⟩
  | registered => cases uncommitted
  | released => cases kept
  | lodged => cases uncommitted
  | revised => cases kept
  | claimed => cases uncommitted

/-- A commit does change the market. -/
theorem Op.exec_commits (env : Env) (op : Op) (world : World)
    (commits : op.commits (op.exec env world).1 = true) :
    ¬ world.db.SameMarket (op.exec env world).2.db := by
  intro same
  cases op with
  | db op =>
      cases op with
      | insertName name pubkey =>
          simp only [exec, DbOp.exec] at commits same
          rcases world.db.insertName_cases name pubkey world.unixTime.seconds
            with ⟨done, -⟩ | ⟨done, -⟩ | ⟨names, done, free, -, rows⟩
          · rw [done] at commits
            cases commits
          · rw [done] at commits
            cases commits
          · rw [done] at same
            have unchanged : names = world.db.names := same.names
            have stored := (rows _).mpr (.inl rfl)
            rw [unchanged] at stored
            have inactive := Db.lookup_eq_none.mp free _ stored rfl
            cases inactive
      | insertOffer row =>
          simp only [exec, DbOp.exec] at commits same
          rcases world.db.insertOffer_cases row
            with ⟨done, -⟩ | ⟨offers, done, -, rows⟩
          · rw [done] at commits
            cases commits
          · rw [done] at same
            have unchanged : offers = world.db.offers := same.offers
            rw [unchanged] at rows
            simp at rows
      | runClaimTxn offer excessHex kernelHeight now =>
          simp only [exec, DbOp.exec] at commits same
          rcases world.db.runClaimTxn_cases offer excessHex kernelHeight now
            with ⟨error, done, -⟩ | ⟨after, done, claimed⟩
          · rw [done] at commits
            cases commits
          · rw [done] at same
            have rows := claimed.transfers
            rw [same.transfers] at rows
            simp at rows
      | _ => cases commits
  | _ => cases commits

/-! ## Histories -/

def History.Idle (past : History) : Prop :=
  ∀ event ∈ past, event.op.Idle event.answer

namespace History.Idle

variable {past new : History}

theorem nil : History.Idle [] :=
  fun _ member => nomatch member

theorem append (idle : past.Idle) (newIdle : new.Idle) :
    History.Idle (past ++ new) := by
  intro event member
  rcases List.mem_append.mp member with old | fresh
  · exact idle event old
  · exact newIdle event fresh

theorem snoc (idle : past.Idle) (op : Op) (answer : op.Ans)
    (last : op.Idle answer) : History.Idle (past ++ [⟨op, answer⟩]) := by
  refine idle.append fun event member => ?_
  rw [List.mem_singleton.mp member]
  exact last

theorem of_silent (silent : ∀ event ∈ new, event.op.silent = true) :
    new.Idle :=
  fun event member => Op.idle_of_silent (silent event member) event.answer

end History.Idle

def Request.creates : Request → Bool
  | .register _ _ | .lodgeOffer _ _ | .claim _ _ => true
  | _ => false

/-- What a request has done when it answers. -/
inductive Outcome (request : Request) : History → Response → Prop where
  | nothing {past : History} {response : Response} (idle : past.Idle)
      (uncreated : request.creates = true → response.status ≠ .created) :
      Outcome request past response
  | committed {earlier new : History} {op : Op} {answer : op.Ans}
      {response : Response} (before : earlier.Idle)
      (commits : op.commits answer = true) (after : new.Idle)
      (created : response.status = .created) :
      Outcome request (earlier ++ [⟨op, answer⟩] ++ new) response
  | withdrawn {earlier new : History} {op : Op} {answer : op.Ans}
      {response : Response} (other : request.creates = false)
      (before : earlier.Idle) (after : new.Idle)
      (accepted : response.status = .ok) :
      Outcome request (earlier ++ [⟨op, answer⟩] ++ new) response

namespace Outcome

variable {request : Request} {past : History} {op : Op} {answer : op.Ans}
  {response : Response}

theorem committed_last (idle : past.Idle) (commits : op.commits answer = true)
    (created : response.status = .created) :
    Outcome request (past ++ [⟨op, answer⟩]) response := by
  have outcome : Outcome request (past ++ [⟨op, answer⟩] ++ []) response :=
    .committed idle commits .nil created
  rwa [List.append_nil] at outcome

theorem withdrawn_last (other : request.creates = false) (idle : past.Idle)
    (accepted : response.status = .ok) :
    Outcome request (past ++ [⟨op, answer⟩]) response := by
  have outcome : Outcome request (past ++ [⟨op, answer⟩] ++ []) response :=
    .withdrawn other idle .nil accepted
  rwa [List.append_nil] at outcome

end Outcome

variable (ext : Extern) (cfg : Config)

/-- Programs without a write of their own, after an idle history. -/
theorem idle_program {request : Request} {program : Handler Response}
    {past : History} (idle : past.Idle)
    (silent : SilentProgram program
      (fun _ response => request.creates = true → response.status ≠ .created)
      past) :
    program.Every (fun _ _ => True) (Outcome request) past := by
  refine silent.grows.mono (fun _ _ _ _ => trivial) ?_
  rintro past' response - ⟨⟨new, rfl, quiet⟩, uncreated⟩
  exact .nothing (idle.append (.of_silent quiet)) uncreated

/-! ## Registration -/

theorem acquireName_outcome {headers : Headers} {body : Bytes}
    {authPubkey name pubkey : String} {past : History} (idle : past.Idle) :
    (acquireName cfg authPubkey name pubkey).Every (fun _ _ => True)
      (Outcome (.register headers body)) past := by
  unfold acquireName
  refine every_perform_bind.mpr ⟨trivial, fun answer => ?_⟩
  rcases answer with error | count
  · have kept := idle.snoc (.db (.insertName name pubkey))
      (.error error) ⟨rfl, rfl⟩
    cases error with
    | constraintViolation => exact .nothing kept nofun
    | other => exact .nothing kept nofun
  · cases count with
    | zero => exact .nothing (idle.snoc _ _ ⟨rfl, rfl⟩) nofun
    | succ count =>
        have commits : (Op.db (.insertName name pubkey)).commits
            (.ok (count + 1)) = true :=
          decide_eq_true (Nat.succ_pos count)
        dsimp only
        split
        · refine every_perform_bind.mpr ⟨trivial, fun done => ?_⟩
          exact .committed idle commits (.snoc .nil _ _ ⟨rfl, rfl⟩) rfl
        · exact .committed_last idle commits rfl

theorem registerName_outcome {headers : Headers} {body : Bytes}
    {authPubkey name pubkey : String} {past : History} (idle : past.Idle) :
    (registerName cfg authPubkey name pubkey).Every (fun _ _ => True)
      (Outcome (.register headers body)) past := by
  unfold registerName
  refine every_perform_bind.mpr ⟨trivial, fun owner => ?_⟩
  replace idle := idle.snoc (.db (.lookup name)) owner
    ⟨rfl, rfl⟩
  split
  · split
    · exact .nothing idle nofun
    · exact .nothing idle nofun
  refine every_perform_bind.mpr ⟨trivial, fun existing => ?_⟩
  replace idle := idle.snoc (.db (.nameOf pubkey)) existing
    ⟨rfl, rfl⟩
  split
  · exact .nothing idle nofun
  refine (registerPayment_silent cfg authPubkey _).quiet_bind
    (fun _ _ _ => trivial) fun new payment silent refused => ?_
  replace idle := idle.append (.of_silent silent)
  cases payment with
  | some refusal => exact .nothing idle fun _ => refused refusal rfl
  | none => exact acquireName_outcome cfg idle

theorem register_outcome (headers : Headers) (body : Bytes) :
    (register ext cfg headers body).Every (fun _ _ => True)
      (Outcome (.register headers body)) [] := by
  unfold register
  refine (authorize_silent ext cfg "reg" headers .post "/api/v1/register" body
    []).quiet_bind (fun _ _ _ => trivial) fun past result silent authorized => ?_
  have idle : History.Idle ([] ++ past) := .of_silent silent
  rcases result with refusal | authPubkey
  · exact .nothing idle fun _ => authorized.status_ne nofun nofun
  refine (cooldownActive_silent "namechange" authPubkey
    cfg.nameChangeCooldown _).quiet_bind (fun _ _ _ => trivial)
    fun new cooling silent _ => ?_
  replace idle := idle.append (.of_silent silent)
  split
  · exact .nothing idle nofun
  split
  · rename_i refusal refused
    exact .nothing idle fun _ => registerRequest_refuses ext cfg .created
      nofun nofun nofun authPubkey body refusal refused
  · exact registerName_outcome cfg idle

theorem unregister_outcome (raw : String) (headers : Headers) :
    (unregister ext cfg raw headers).Every (fun _ _ => True)
      (Outcome (.unregister raw headers)) [] := by
  unfold unregister
  refine (authorize_silent ext cfg "unreg" headers .delete _ []
    []).quiet_bind (fun _ _ _ => trivial) fun past result silent _ => ?_
  have idle : History.Idle ([] ++ past) := .of_silent silent
  rcases result with refusal | authPubkey
  · exact .nothing idle nofun
  dsimp only
  unfold unregisterName
  refine every_perform_bind.mpr ⟨trivial, fun owner => ?_⟩
  replace idle := idle.snoc
    (.db (.lookup (ext.cases.toLowercase raw))) owner
    ⟨rfl, rfl⟩
  split
  · exact .nothing idle nofun
  split
  · exact .nothing idle nofun
  refine every_perform_bind.mpr ⟨trivial, fun released => ?_⟩
  rcases released with error | count
  · exact .nothing (idle.snoc _ _ ⟨rfl, rfl⟩) nofun
  refine every_perform_bind.mpr ⟨trivial, fun done => ?_⟩
  exact .withdrawn rfl idle (.snoc .nil _ _ ⟨rfl, rfl⟩) rfl

/-! ## Offers -/

theorem lodgeOffer_outcome (headers : Headers) (body : Bytes) :
    (lodgeOffer ext cfg headers body).Every (fun _ _ => True)
      (Outcome (.lodgeOffer headers body)) [] := by
  unfold lodgeOffer
  refine (authorize_silent ext cfg "transfer" headers .post _ body
    []).quiet_bind (fun _ _ _ => trivial) fun past result silent authorized => ?_
  have idle : History.Idle ([] ++ past) := .of_silent silent
  rcases result with refusal | authPubkey
  · exact .nothing idle fun _ => authorized.status_ne nofun nofun
  dsimp only
  split
  · rename_i refusal refused
    refine .nothing idle fun _ => ?_
    exact lodgeRequest_refuses authPubkey body refusal refused
  rename_i lodgement accepted
  unfold lodge
  refine every_perform_bind.mpr ⟨trivial, fun now => ?_⟩
  replace idle := idle.snoc .unixNow now ⟨rfl, rfl⟩
  split
  · exact .nothing idle nofun
  refine every_perform_bind.mpr ⟨trivial, fun owner => ?_⟩
  replace idle := idle.snoc (.db (.lookup lodgement.name))
    owner ⟨rfl, rfl⟩
  split
  · exact .nothing idle nofun
  refine every_perform_bind.mpr ⟨trivial, fun taken => ?_⟩
  replace idle := idle.snoc (.db (.liveOfferForName lodgement.name now))
    taken ⟨rfl, rfl⟩
  split
  · exact .nothing idle nofun
  refine every_perform_bind.mpr ⟨trivial, fun bound => ?_⟩
  replace idle := idle.snoc
    (.db (.liveOfferBinding lodgement.proofAddress now))
    bound ⟨rfl, rfl⟩
  split
  · exact .nothing idle nofun
  refine every_perform_bind.mpr ⟨trivial, fun inserted => ?_⟩
  rcases inserted with error | count
  · have kept := idle.snoc (.db (.insertOffer (lodgement.row now)))
      (.error error) ⟨rfl, rfl⟩
    cases error with
    | constraintViolation => exact .nothing kept nofun
    | other => exact .nothing kept nofun
  · have commits : (Op.db (.insertOffer (lodgement.row now))).commits
        (.ok count) = true := rfl
    exact .committed_last idle commits rfl

/-- Settling an offer is idle: at most it expires. -/
theorem settleExpiry_idle (offer : OfferRow) (now : Int) {past : History}
    (idle : past.Idle) :
    (settleExpiry cfg offer now).Every (fun _ _ => True)
      (fun past' _ => History.Idle past') past := by
  unfold settleExpiry
  split
  · exact idle
  refine (deathHeight_silent cfg past).quiet_bind (fun _ _ _ => trivial)
    fun new endHeight silent _ => ?_
  replace idle := idle.append (.of_silent silent)
  refine every_perform_bind.mpr ⟨trivial, fun marked => ?_⟩
  exact every_perform_bind.mpr ⟨trivial, fun stored =>
    (idle.snoc _ _ ⟨rfl, rfl⟩).snoc _ _ ⟨rfl, rfl⟩⟩

theorem readOffer_outcome (offerId : String) (headers : Headers) :
    (readOffer ext cfg offerId headers).Every (fun _ _ => True)
      (Outcome (.readOffer offerId headers)) [] := by
  unfold readOffer
  refine (allow_silent "read" (clientIp headers) cfg.readRateMax
    cfg.readRateWindow []).quiet_bind (fun _ _ _ => trivial)
    fun past allowed silent _ => ?_
  have idle : History.Idle ([] ++ past) := .of_silent silent
  split
  · exact .nothing idle nofun
  refine every_perform_bind.mpr ⟨trivial, fun stored => ?_⟩
  replace idle := idle.snoc (.db (.getOffer offerId)) stored
    ⟨rfl, rfl⟩
  cases stored with
  | none => exact .nothing idle nofun
  | some offer =>
      refine every_perform_bind.mpr ⟨trivial, fun now => ?_⟩
      refine every_bind.mpr ((settleExpiry_idle cfg offer now
        (idle.snoc _ _ ⟨rfl, rfl⟩)).mono (fun _ _ _ _ => trivial) ?_)
      exact fun _ _ _ idle => .nothing idle nofun

theorem revokeOffer_outcome (offerId : String) (headers : Headers) :
    (revokeOffer ext cfg offerId headers).Every (fun _ _ => True)
      (Outcome (.revokeOffer offerId headers)) [] := by
  unfold revokeOffer
  refine (authorize_silent ext cfg "transfer" headers .delete _ []
    []).quiet_bind (fun _ _ _ => trivial) fun past result silent _ => ?_
  have idle : History.Idle ([] ++ past) := .of_silent silent
  rcases result with refusal | authPubkey
  · exact .nothing idle nofun
  dsimp only
  unfold revokeById
  refine every_perform_bind.mpr ⟨trivial, fun stored => ?_⟩
  replace idle := idle.snoc (.db (.getOffer offerId)) stored
    ⟨rfl, rfl⟩
  cases stored with
  | none => exact .nothing idle nofun
  | some offer =>
      dsimp only
      split
      · exact .nothing idle nofun
      split
      · exact .nothing idle nofun
      split
      · exact .nothing idle nofun
      unfold revoke
      refine every_perform_bind.mpr ⟨trivial, fun now => ?_⟩
      replace idle := idle.snoc .unixNow now ⟨rfl, rfl⟩
      split
      · refine every_bind.mpr ((deathHeight_silent cfg _).quiet_bind
          (fun _ _ _ => trivial) fun new endHeight silent _ => ?_)
        replace idle := idle.append (.of_silent silent)
        refine every_perform_bind.mpr ⟨trivial, fun marked => ?_⟩
        exact .withdrawn_last rfl idle rfl
      · exact every_perform_bind.mpr ⟨trivial, fun revised =>
          .withdrawn_last rfl idle rfl⟩

/-! ## Claims -/

theorem claimPaid_outcome {headers : Headers} {body : Bytes} {past : History}
    (idle : past.Idle) (offer : OfferRow) (excessHex : String)
    (deadEndHeight : Option Int) (now : Int) :
    (claimPaid cfg offer excessHex deadEndHeight now).Every (fun _ _ => True)
      (Outcome (.claim headers body)) past := by
  unfold claimPaid
  refine (nodeKernel_silent cfg excessHex past).quiet_bind
    (fun _ _ _ => trivial) fun new kernel silent _ => ?_
  replace idle := idle.append (.of_silent silent)
  split
  · rename_i refusal refused
    exact .nothing idle fun _ =>
      kernelGate_refuses cfg offer deadEndHeight kernel refusal refused
  refine every_perform_bind.mpr ⟨trivial, fun used => ?_⟩
  replace idle := idle.snoc (.db (.excessUsed excessHex))
    used ⟨rfl, rfl⟩
  split
  · exact .nothing idle (by simp [err])
  refine every_perform_bind.mpr ⟨trivial, fun existing => ?_⟩
  replace idle := idle.snoc (.db (.nameOf offer.buyerPubkey))
    existing ⟨rfl, rfl⟩
  split
  · exact .nothing idle (by simp)
  rename_i kernelHeight _ _ _
  unfold executeClaim
  refine every_perform_bind.mpr ⟨trivial, fun outcome => ?_⟩
  rcases outcome with error | done
  · have kept := idle.snoc
      (.db (.runClaimTxn offer excessHex kernelHeight now)) (.error error)
      ⟨rfl, rfl⟩
    cases error <;> exact .nothing kept (by simp [err])
  · have commits : (Op.db (.runClaimTxn offer excessHex kernelHeight
        now)).commits (.ok done) = true := rfl
    exact every_perform_bind.mpr ⟨trivial, fun _ =>
      .committed idle commits (.snoc .nil _ _ ⟨rfl, rfl⟩) rfl⟩

theorem claimOffer_outcome {headers : Headers} {body : Bytes} {past : History}
    (idle : past.Idle) (authPubkey offerId : String) (payment : Payment)
    (offer : OfferRow) (now : Int) :
    (claimOffer cfg authPubkey offerId payment offer now).Every
      (fun _ _ => True) (Outcome (.claim headers body)) past := by
  unfold claimOffer
  split
  · exact idle_program idle ((claimRetry_silent cfg offerId payment.excessHex
      past).mono (fun _ _ _ silent => silent)
      fun _ _ _ uncreated _ => uncreated)
  split
  · rename_i refusal refused
    exact .nothing idle fun _ => deathGate_refuses cfg offer now refusal refused
  split
  · exact .nothing idle nofun
  refine every_perform_bind.mpr ⟨trivial, fun owner => ?_⟩
  replace idle := idle.snoc (.db (.lookup offer.name)) owner
    ⟨rfl, rfl⟩
  split
  · exact .nothing idle nofun
  split
  · rename_i refusal refused
    exact .nothing idle fun _ => proofGate_refuses offer payment refusal refused
  · exact claimPaid_outcome cfg idle offer payment.excessHex _ now

theorem claim_outcome (headers : Headers) (body : Bytes) :
    (claim ext cfg headers body).Every (fun _ _ => True)
      (Outcome (.claim headers body)) [] := by
  unfold claim
  refine (authorize_silent ext cfg "transfer" headers .post _ body
    []).quiet_bind (fun _ _ _ => trivial) fun past result silent authorized => ?_
  have idle : History.Idle ([] ++ past) := .of_silent silent
  rcases result with refusal | authPubkey
  · exact .nothing idle fun _ => authorized.status_ne nofun nofun
  dsimp only
  split
  · rename_i refusal refused
    exact .nothing idle fun _ => claimRequest_refuses ext body refusal refused
  rename_i offerId proof accepted
  unfold claimById
  refine every_perform_bind.mpr ⟨trivial, fun stored => ?_⟩
  replace idle := idle.snoc (.db (.getOffer offerId)) stored
    ⟨rfl, rfl⟩
  cases stored with
  | none => exact .nothing idle nofun
  | some offer =>
      refine every_perform_bind.mpr ⟨trivial, fun now => ?_⟩
      refine every_bind.mpr ((settleExpiry_idle cfg offer now
        (idle.snoc _ _ ⟨rfl, rfl⟩)).mono (fun _ _ _ _ => trivial) ?_)
      exact fun _ settled _ idle => claimOffer_outcome cfg idle authPubkey
        offerId (proof.payment ext) settled now

/-! ## All endpoints -/

theorem transferRoute_outcome {request : Request} {handler : Handler Response}
    (outcome : handler.Every (fun _ _ => True) (Outcome request) []) :
    (transferRoute cfg handler).Every (fun _ _ => True) (Outcome request)
      [] := by
  unfold transferRoute
  split
  · exact outcome
  · exact .nothing .nil nofun

theorem routes_outcome (request : Request) :
    (routes ext cfg request).Every (fun _ _ => True) (Outcome request) [] := by
  have ofSilent : ∀ {handler : Handler Response}, request.creates = false →
      SilentProgram handler (fun _ _ => True) [] →
        handler.Every (fun _ _ => True) (Outcome request) [] := by
    intro handler creates silent
    refine idle_program .nil (silent.mono (fun _ _ _ silent => silent) ?_)
    intro _ _ _ _ other
    rw [creates] at other
    cases other
  cases request with
  | wellKnown name headers =>
      exact ofSilent rfl (wellKnown_silent ext cfg name headers)
  | availability name headers =>
      exact ofSilent rfl (availability_silent ext cfg name headers)
  | register headers body => exact register_outcome ext cfg headers body
  | unregister name headers => exact unregister_outcome ext cfg name headers
  | profile name headers =>
      exact ofSilent rfl (profile_silent ext cfg name headers)
  | byPubkey pubkey headers =>
      exact ofSilent rfl (byPubkey_silent ext cfg pubkey headers)
  | paidStatus pubkey headers =>
      exact ofSilent rfl (paidStatus_silent ext cfg pubkey headers)
  | quote headers body => exact ofSilent rfl (quote_silent ext cfg headers body)
  | goblinpayWebhook signature body =>
      exact ofSilent rfl (goblinpayWebhook_silent ext cfg signature body)
  | lodgeOffer headers body =>
      exact transferRoute_outcome cfg (lodgeOffer_outcome ext cfg headers body)
  | readOffer offerId headers =>
      exact transferRoute_outcome cfg
        (readOffer_outcome ext cfg offerId headers)
  | revokeOffer offerId headers =>
      exact transferRoute_outcome cfg
        (revokeOffer_outcome ext cfg offerId headers)
  | claim headers body =>
      exact transferRoute_outcome cfg (claim_outcome ext cfg headers body)

/-! ## Every thread -/

/-- At most one step of the history was effective. -/
def History.Single (past : History) : Prop :=
  past.Pairwise fun first second =>
    first.op.Idle first.answer ∨ second.op.Idle second.answer

theorem History.Idle.single {past : History} (idle : past.Idle) :
    past.Single :=
  List.pairwise_of_forall_mem_list fun first member _ _ =>
    .inl (idle first member)

/-- One event between idle histories. -/
theorem History.single_around {earlier new : History} (before : earlier.Idle)
    (after : new.Idle) (event : Concurrent.Event Op Op.Ans) :
    History.Single (earlier ++ [event] ++ new) := by
  refine List.pairwise_append.mpr ⟨?_, after.single, fun _ _ second member =>
    .inr (after second member)⟩
  exact List.pairwise_append.mpr ⟨before.single, List.pairwise_singleton _ _,
    fun first member _ _ => .inl (before first member)⟩

theorem Outcome.single {request : Request} {past : History}
    {response : Response} (outcome : Outcome request past response) :
    past.Single := by
  cases outcome with
  | nothing idle _ => exact idle.single
  | committed before _ after _ => exact History.single_around before after _
  | withdrawn _ before after _ => exact History.single_around before after _

theorem Op.nonempty_ans (op : Op) : Nonempty op.Ans := by
  cases op with
  | db op =>
      cases op <;>
        first
        | exact ⟨none⟩ | exact ⟨false⟩ | exact ⟨()⟩ | exact ⟨.error .other⟩
        | exact ⟨.error .db⟩
  | unixNow => exact ⟨(0 : Int)⟩
  | instantNow => exact ⟨(0 : Instant)⟩
  | allow | cooldownActive | authEventFresh => exact ⟨false⟩
  | recordOp => exact ⟨()⟩
  | tipHeight | kernel | createInvoice | invoiceStatus => exact ⟨.error ""⟩

/-- A request that is still under way could come to its end, so that what
every end says about its history is true of it by now. -/
theorem single_of_outcome {request : Request} {program : Handler Response}
    {past : History}
    (every : program.Every (fun _ _ => True) (Outcome request) past) :
    past.Single := by
  induction program generalizing past with
  | done response => exact Outcome.single every
  | step op next induction =>
      obtain ⟨answer⟩ := op.nonempty_ans
      exact (List.pairwise_append.mp (induction answer (every.2 answer))).1

/-- The step has changed the names, the offers or the transfers, and is not the
expiry of an offer. -/
def Changes (taken : Taken World Op Op.Ans) : Prop :=
  ¬ taken.before.db.SameMarket taken.after.db ∧ ¬ taken.op.Expires

section Atomic

variable {ext cfg} {permitted : Permission World Request Op Op.Ans Response}
  {pool : FloonetPool} {thread : FloonetThread}

theorem Durable.idle_of_taken
    (reachable : (durable ext cfg).Reachable permitted pool)
    (member : thread ∈ pool.threads) {taken : Taken World Op Op.Ans}
    (takenMember : taken ∈ thread.past)
    (idle : taken.op.Idle taken.answer) : ¬ Changes taken := by
  obtain ⟨env, executed⟩ := reachable.executed thread member taken takenMember
  rw [executed] at idle ⊢
  rintro ⟨changed, lasting⟩
  rcases (taken.op.exec_effect env taken.before).idle idle with same | expires
  · exact changed same
  · exact lasting expires

theorem Durable.changes_of_commit
    (reachable : (durable ext cfg).Reachable permitted pool)
    (member : thread ∈ pool.threads) {taken : Taken World Op Op.Ans}
    (takenMember : taken ∈ thread.past)
    (commits : taken.op.commits taken.answer = true) : Changes taken := by
  obtain ⟨env, executed⟩ := reachable.executed thread member taken takenMember
  rw [executed] at commits ⊢
  refine ⟨taken.op.exec_commits env taken.before commits, fun expires => ?_⟩
  have uncommitted := expires.uncommitted ((durable ext cfg).taken env taken.op
    taken.before).answer
  rw [commits] at uncommitted
  cases uncommitted

/-- Every request is atomic: in any interleaving and whatever crashes there
are, at most one of its steps changes the market, expiries apart; a
registration, a lodging or a claim answers 201 if and only if one has, and a
request that fails has changed nothing. -/
theorem requests_atomic
    (reachable : (durable ext cfg).Reachable permitted pool)
    (member : thread ∈ pool.threads) :
    (thread.past.Pairwise fun first second =>
      ¬ (Changes first ∧ Changes second)) ∧
    ∀ response, thread.program = .done response →
      (thread.request.creates = true →
        (response.status = .created ↔
          ∃ taken ∈ thread.past, Changes taken)) ∧
      (response.status ≠ .ok → response.status ≠ .created →
        ∀ taken ∈ thread.past, ¬ Changes taken) := by
  have idle := @Durable.idle_of_taken ext cfg permitted pool thread reachable
    member
  have every : thread.program.Every (fun _ _ => True)
      (Outcome thread.request) thread.events :=
    reachable.every (routes_outcome ext cfg) member
  constructor
  · have single := single_of_outcome every
    rw [History.Single, Thread.events, List.pairwise_map] at single
    refine single.imp_of_mem ?_
    rintro first second firstMember secondMember (firstIdle | secondIdle)
    · exact fun changes => idle firstMember firstIdle changes.1
    · exact fun changes => idle secondMember secondIdle changes.2
  · intro response finished
    rw [finished] at every
    have outcome : Outcome thread.request thread.events response := every
    generalize isPast : thread.events = past at outcome
    cases outcome with
    | nothing allIdle uncreated =>
        have unchanged : ∀ taken ∈ thread.past, ¬ Changes taken := by
          intro taken takenMember
          apply idle takenMember
          apply allIdle taken.toEvent
          rw [← isPast]
          exact List.mem_map_of_mem takenMember
        refine ⟨fun creates => ⟨fun created => ?_, ?_⟩, fun _ _ => unchanged⟩
        · exact absurd created (uncreated creates)
        · rintro ⟨taken, takenMember, changes⟩
          exact absurd changes (unchanged taken takenMember)
    | @committed earlier new op answer _ _ commits _ created =>
        refine ⟨fun _ => ⟨fun _ => ?_, fun _ => created⟩,
          fun _ uncreated => absurd created uncreated⟩
        have seen : (⟨op, answer⟩ : Concurrent.Event Op Op.Ans) ∈
            thread.events := by
          rw [isPast]
          exact List.mem_append_left _ (List.mem_append_right _
            List.mem_cons_self)
        obtain ⟨taken, takenMember, isEvent⟩ := Thread.mem_events.mp seen
        refine ⟨taken, takenMember,
          Durable.changes_of_commit reachable member takenMember ?_⟩
        show taken.toEvent.op.commits taken.toEvent.answer = true
        rw [isEvent]
        exact commits
    | withdrawn other _ _ accepted =>
        refine ⟨fun creates => ?_, fun failed => absurd accepted failed⟩
        rw [creates] at other
        cases other

end Atomic

section Schedules

open Sample

/-- The three requests of the sale have each changed the market once. -/
theorem requests_atomic_sale :
    ∃ pool, (durable host config).Reachable anyMove pool ∧
      pool.threads.length = 3 ∧ ∀ thread ∈ pool.threads,
        (thread.past.Pairwise fun first second =>
          ¬ (Changes first ∧ Changes second)) ∧
        ∃ taken ∈ thread.past, Changes taken := by
  have reached : ∃ pool, Market.Reachable anyMove pool ∧
      (pool.threads.length = 3 ∧ (pool.threads.all fun thread =>
        thread.request.creates && thread.program.result?.any fun response =>
          decide (response.status = .created)) = true) :=
    play_reaches (fun _ _ _ => true) (fun _ _ _ _ => trivial) world_initial
      sale (by decide +kernel)
  obtain ⟨pool, reachable, three, created⟩ := reached
  refine ⟨pool, Reachable.durable reachable, three, fun thread member => ?_⟩
  have holds := List.all_eq_true.mp created thread member
  rw [Bool.and_eq_true] at holds
  obtain ⟨creates, created⟩ := holds
  obtain ⟨response, finished, created⟩ := (Option.any_eq_true _ _).mp created
  obtain ⟨single, ended⟩ :=
    requests_atomic (Reachable.durable reachable) member
  obtain ⟨iff, -⟩ := ended response (Program.result?_eq_some.mp finished)
  exact ⟨single, (iff creates).mp (of_decide_eq_true created)⟩

end Schedules

end Floonet
