import Floonet.History

/-!
# What the endpoints touch

The limits under which the endpoints use the in-memory maps, and the endpoints
that deal with the paid layer.
-/

namespace Floonet

open Concurrent Program

/-- The buckets of the write endpoints. -/
def writeBuckets : List String := ["reg", "unreg", "quote", "transfer"]

/-- Steps of the paid layer. -/
def Op.charges : Op → Bool
  | .db (.grant _ _) => true
  | .db (.putPendingGrant _ _ _ _) => true
  | .db (.markGrantPaid _) => true
  | .db (.grantByInvoice _) => true
  | .db (.consumeGrant _ _) => true
  | .createInvoice _ _ _ => true
  | .invoiceStatus _ => true
  | _ => false

def Request.charges : Request → Bool
  | .register _ _ | .quote _ _ | .paidStatus _ _ | .goblinpayWebhook _ _ => true
  | _ => false

variable (ext : Extern) (cfg : Config)

/-- How the endpoints use the in-memory maps. -/
def Op.limited : Op → Prop
  | .allow bucket _ max window _ =>
      bucket = "read" ∧ max = cfg.readRateMax ∧ window = cfg.readRateWindow ∨
        bucket ∈ writeBuckets ∧ max = cfg.writeRateMax ∧
          window = cfg.writeRateWindow
  | .cooldownActive bucket _ window _ =>
      bucket = "namechange" ∧ window = cfg.nameChangeCooldown ∨
        bucket = "paidpoll" ∧ window = cfg.paidPollInterval
  | .recordOp bucket _ => bucket = "namechange" ∨ bucket = "paidpoll"
  | .authEventFresh _ window _ => window = cfg.authWindow
  | _ => True

/-- The instant that a step is given. -/
def Op.timed : Op → Option Instant
  | .allow _ _ _ _ now => some now
  | .cooldownActive _ _ _ now => some now
  | .authEventFresh _ _ now => some now
  | _ => none

/-- The auth event that is presented. -/
def Headers.authEvent (headers : Headers) : Option Event :=
  match headers.authorization with
  | .signed event => some event
  | _ => none

def Request.authEvent : Request → Option Event
  | .register headers _ | .unregister _ headers | .quote headers _
  | .lodgeOffer headers _ | .revokeOffer _ headers | .claim headers _ =>
      headers.authEvent
  | _ => none

/-- The age of an auth event in seconds, as `verify_nip98` computes it. -/
def Event.age (event : Event) (now : Int) : Int :=
  MachineInt.wrapI64 (now - MachineInt.asI64 event.createdAt.toNat)

/-- The ages at which an auth event is accepted. -/
def Event.timely (event : Event) (now : Int) : Prop :=
  -5 ≤ event.age now ∧ event.age now ≤ cfg.authMaxAgeSecs

/-- The auth event with this id has been presented in time. -/
def History.Presented (past : History) (auth : Option Event)
    (eventId : String) : Prop :=
  ∃ event now, auth = some event ∧ eventId = event.id.toHex ∧
    past.Saw .unixNow now ∧ event.timely cfg now

/-- An id is only looked up among the used ones once it has been presented. -/
def Op.vouched (auth : Option Event) (past : History) : Op → Prop
  | .authEventFresh eventId _ _ => History.Presented cfg past auth eventId
  | _ => True

/-- The steps that an endpoint takes.  Those that are given an instant have
just read the clock. -/
structure Op.Within (paying : Bool) (auth : Option Event) (past : History)
    (op : Op) : Prop where
  limited : op.limited cfg
  timed : ∀ now, op.timed = some now → past.EndsWith .instantNow now
  charged : op.charges = true → paying = true
  vouched : op.vouched cfg auth past

variable {paying : Bool} {auth : Option Event}

theorem Op.vouched_untimed {op : Op} (untimed : op.timed = none)
    (past : History) : op.vouched cfg auth past := by
  cases op with
  | authEventFresh => cases untimed
  | _ => trivial

theorem Op.within_plain {op : Op} (limited : op.limited cfg)
    (free : op.charges = false) (untimed : op.timed = none)
    (past : History) : op.Within cfg paying auth past where
  limited := limited
  timed now timed := by simp [untimed] at timed
  charged charged := by simp [free] at charged
  vouched := op.vouched_untimed cfg untimed past

/-- A step of the paid layer that is not given an instant. -/
theorem Op.within_paid {op : Op} (limited : op.limited cfg)
    (untimed : op.timed = none) (past : History) :
    op.Within cfg true auth past where
  limited := limited
  timed now timed := by simp [untimed] at timed
  charged _ := rfl
  vouched := op.vouched_untimed cfg untimed past

/-- A step that is given the instant that was just read. -/
theorem Op.within_timed {op : Op} {now : Instant} (limited : op.limited cfg)
    (free : op.charges = false) (timed : op.timed = some now)
    {past : History}
    (vouched : op.vouched cfg auth (past ++ [⟨.instantNow, now⟩])) :
    op.Within cfg paying auth (past ++ [⟨.instantNow, now⟩]) where
  limited := limited
  timed time isTime := by
    rw [timed] at isTime
    cases isTime
    exact ⟨past, rfl⟩
  charged charged := by simp [free] at charged
  vouched := vouched

theorem Op.within_instantNow :
    ∀ past : History, Op.Within cfg paying auth past .instantNow :=
  Op.within_plain cfg trivial rfl rfl

theorem allow_uses {bucket ip : String} {max : Nat} {window : Duration}
    (limited : ∀ now, (Op.allow bucket ip max window now).limited cfg) :
    (App.allow bucket ip max window).Uses (Op.Within cfg paying auth) := by
  intro past
  refine every_perform_bind.mpr
    ⟨Op.within_instantNow cfg past, fun now => ?_⟩
  exact every_perform.mpr
    ⟨Op.within_timed cfg (limited now) rfl rfl trivial, fun _ => trivial⟩

theorem cooldownActive_uses {bucket key : String} {window : Duration}
    (limited : ∀ now, (Op.cooldownActive bucket key window now).limited cfg) :
    (App.cooldownActive bucket key window).Uses
      (Op.Within cfg paying auth) := by
  intro past
  refine every_perform_bind.mpr
    ⟨Op.within_instantNow cfg past, fun now => ?_⟩
  exact every_perform.mpr
    ⟨Op.within_timed cfg (limited now) rfl rfl trivial, fun _ => trivial⟩

theorem allowRead_uses (ip : String) :
    (App.allowRead cfg ip).Uses (Op.Within cfg paying auth) :=
  allow_uses cfg fun _ => .inl ⟨rfl, rfl, rfl⟩

theorem allowWrite_uses {bucket : String} (known : bucket ∈ writeBuckets)
    (ip : String) :
    (App.allowWrite cfg bucket ip).Uses (Op.Within cfg paying auth) :=
  allow_uses cfg fun _ => .inr ⟨known, rfl, rfl⟩

theorem authEventFresh_uses {eventId : String} {past : History}
    (presented : History.Presented cfg past auth eventId) :
    (App.authEventFresh cfg eventId).Every (Op.Within cfg paying auth)
      (fun _ _ => True) past := by
  refine every_perform_bind.mpr
    ⟨Op.within_instantNow cfg past, fun now => ?_⟩
  have limited : (Op.authEventFresh eventId cfg.authWindow now).limited cfg :=
    rfl
  obtain ⟨event, clock, presents, isId, saw, timely⟩ := presented
  exact every_perform.mpr ⟨Op.within_timed cfg limited rfl rfl
    ⟨event, clock, presents, isId, saw.append _, timely⟩, fun _ => trivial⟩

theorem verifyNip98_uses (headers : Headers) (method : Method)
    (urlPath : String) (body : Bytes) (past : History) :
    (verifyNip98 ext cfg headers method urlPath body).Every
      (Op.Within cfg paying auth)
      (fun past' result => match result with
        | .error _ => True
        | .ok verified => History.Presented cfg past' headers.authEvent
            verified.2) past := by
  unfold verifyNip98 Headers.authEvent
  cases headers.authorization with
  | signed event =>
      dsimp only
      split
      · trivial
      · have clock : ∀ past, Op.Within cfg paying auth past .unixNow :=
          Op.within_plain cfg trivial rfl rfl
        refine every_perform_bind.mpr ⟨clock past, fun now => ?_⟩
        split
        · trivial
        · rename_i timely
          rw [not_or, Int.not_lt, Int.not_lt] at timely
          split
          · trivial
          · exact ⟨event, now, rfl, rfl, past.saw_last .unixNow now,
              timely.2, timely.1⟩
  | _ => trivial

theorem authorize_uses {bucket : String} (known : bucket ∈ writeBuckets)
    (headers : Headers) (method : Method) (urlPath : String) (body : Bytes) :
    (authorize ext cfg bucket headers method urlPath body).Uses
      (Op.Within cfg paying headers.authEvent) := by
  unfold authorize
  refine (allowWrite_uses cfg known _).bind fun allowed => ?_
  split
  · exact uses_done _
  intro past
  refine every_bind.mpr ((verifyNip98_uses ext cfg headers method urlPath body
    past).mono (fun _ _ _ within => within) fun past' result _ presented => ?_)
  rcases result with refusal | verified
  · trivial
  refine every_bind.mpr ((authEventFresh_uses cfg presented).mono
    (fun _ _ _ within => within) fun _ fresh _ _ => ?_)
  split <;> trivial

/-! ## The paid layer -/

theorem newGrant_uses (pubkey resource : String) (price : Nat) :
    (newGrant cfg pubkey resource price).Uses (Op.Within cfg true auth) := by
  unfold newGrant
  refine uses_perform_bind (Op.within_paid cfg trivial rfl) fun answer => ?_
  split
  · exact uses_perform_bind (Op.within_paid cfg trivial rfl)
      fun _ => uses_done _
  · exact uses_done _

theorem pollGrant_uses (grant : Grant) (pubkey resource : String)
    (price : Nat) :
    (pollGrant cfg grant pubkey resource price).Uses
      (Op.Within cfg true auth) := by
  unfold pollGrant
  refine (cooldownActive_uses cfg fun _ => .inr ⟨rfl, rfl⟩).bind
    fun active => ?_
  split
  · exact uses_done _
  refine uses_perform_bind (Op.within_paid cfg (.inr rfl) rfl) fun _ => ?_
  refine uses_perform_bind (Op.within_paid cfg trivial rfl) fun status => ?_
  split
  · split
    · exact uses_perform_bind (Op.within_paid cfg trivial rfl)
        fun _ => uses_done _
    · split
      · exact newGrant_uses cfg pubkey resource price
      · exact uses_done _
  · exact uses_done _

theorem ensurePaid_uses (pubkey resource : String) :
    (ensurePaid cfg pubkey resource).Uses (Op.Within cfg true auth) := by
  unfold ensurePaid
  split
  · exact uses_done _
  refine uses_perform_bind (Op.within_paid cfg trivial rfl) fun grant => ?_
  split
  · exact newGrant_uses cfg pubkey resource _
  · split
    · exact uses_done _
    · exact pollGrant_uses cfg _ pubkey resource _

theorem paidStatus_uses (pubkey : String) (headers : Headers) :
    (paidStatus ext cfg pubkey headers).Uses (Op.Within cfg true auth) := by
  unfold paidStatus
  refine (allowRead_uses cfg _).bind fun allowed => ?_
  split
  · exact uses_done _
  dsimp only
  split
  · exact uses_done _
  split
  · exact uses_done _
  refine uses_perform_bind (Op.within_paid cfg trivial rfl) fun grant => ?_
  split
  · exact uses_done _
  split
  · exact uses_done _
  refine (ensurePaid_uses cfg _ "write").bind fun outcome => ?_
  split <;> exact uses_done _

theorem quote_uses (headers : Headers) (body : Bytes) :
    (quote ext cfg headers body).Uses
      (Op.Within cfg true headers.authEvent) := by
  unfold quote
  refine (authorize_uses ext cfg (by decide) headers .post _ body).bind
    fun result => ?_
  split
  · exact uses_done _
  split
  · split
    · exact uses_done _
    refine (ensurePaid_uses cfg _ _).bind fun outcome => ?_
    split <;> exact uses_done _
  · exact uses_done _

theorem confirmInvoice_uses (invoiceId : String) :
    (confirmInvoice cfg invoiceId).Uses (Op.Within cfg true auth) := by
  unfold confirmInvoice
  split
  · exact uses_done _
  refine uses_perform_bind (Op.within_paid cfg trivial rfl) fun status => ?_
  split <;> exact uses_done _

theorem goblinpayWebhook_uses (signature : Option String) (body : Bytes) :
    (goblinpayWebhook ext cfg signature body).Uses
      (Op.Within cfg true auth) := by
  unfold goblinpayWebhook
  repeat' split
  all_goals try exact uses_done _
  refine uses_perform_bind (Op.within_paid cfg trivial rfl) fun grant => ?_
  split
  · exact uses_done _
  dsimp only
  split
  · refine (confirmInvoice_uses cfg _).bind fun confirmed => ?_
    split
    · exact uses_perform_bind (Op.within_paid cfg trivial rfl)
        fun _ => uses_done _
    · exact uses_done _
  · exact uses_done _

/-! ## Names -/

theorem registerPayment_uses (authPubkey : String) :
    (registerPayment cfg authPubkey).Uses (Op.Within cfg true auth) := by
  unfold registerPayment
  split
  · exact uses_done _
  refine (ensurePaid_uses cfg authPubkey "name").bind fun outcome => ?_
  split <;> exact uses_done _

theorem acquireName_uses (authPubkey name pubkey : String) :
    (acquireName cfg authPubkey name pubkey).Uses
      (Op.Within cfg true auth) := by
  unfold acquireName
  refine uses_perform_bind (Op.within_paid cfg trivial rfl) fun inserted => ?_
  split
  · exact uses_done _
  · split
    · exact uses_perform_bind (Op.within_paid cfg trivial rfl)
        fun _ => uses_done _
    · exact uses_done _
  · exact uses_done _
  · exact uses_done _

theorem register_uses (headers : Headers) (body : Bytes) :
    (register ext cfg headers body).Uses
      (Op.Within cfg true headers.authEvent) := by
  unfold register
  refine (authorize_uses ext cfg (by decide) headers .post _ body).bind
    fun result => ?_
  split
  · exact uses_done _
  refine (cooldownActive_uses cfg fun _ => .inl ⟨rfl, rfl⟩).bind
    fun active => ?_
  split
  · exact uses_done _
  split
  · exact uses_done _
  unfold registerName
  refine uses_perform_bind (Op.within_paid cfg trivial rfl) fun owner => ?_
  split
  · split <;> exact uses_done _
  refine uses_perform_bind (Op.within_paid cfg trivial rfl) fun existing => ?_
  split
  · exact uses_done _
  refine (registerPayment_uses cfg _).bind fun payment => ?_
  split
  · exact uses_done _
  · exact acquireName_uses cfg _ _ _

theorem unregister_uses (name : String) (headers : Headers) :
    (unregister ext cfg name headers).Uses
      (Op.Within cfg paying headers.authEvent) := by
  unfold unregister
  refine (authorize_uses ext cfg (by decide) headers .delete _ []).bind
    fun result => ?_
  split
  · exact uses_done _
  unfold unregisterName
  refine uses_perform_bind (Op.within_plain cfg trivial rfl rfl) fun owner => ?_
  split
  · exact uses_done _
  split
  · exact uses_done _
  refine uses_perform_bind (Op.within_plain cfg trivial rfl rfl)
    fun released => ?_
  split
  · exact uses_perform_bind (Op.within_plain cfg (.inl rfl) rfl rfl)
      fun _ => uses_done _
  · exact uses_done _

theorem availability_uses (name : String) (headers : Headers) :
    (availability ext cfg name headers).Uses (Op.Within cfg paying auth) := by
  unfold availability
  refine (allowRead_uses cfg _).bind fun allowed => ?_
  split
  · exact uses_done _
  dsimp only
  split
  · exact uses_done _
  split
  · exact uses_done _
  refine uses_perform_bind (Op.within_plain cfg trivial rfl rfl) fun owner => ?_
  split <;> exact uses_done _

theorem wellKnown_uses (name : Option String) (headers : Headers) :
    (wellKnown ext cfg name headers).Uses (Op.Within cfg paying auth) := by
  unfold wellKnown
  refine (allowRead_uses cfg _).bind fun allowed => ?_
  split
  · exact uses_done _
  split
  · split
    · exact uses_done _
    refine uses_perform_bind (Op.within_plain cfg trivial rfl rfl)
      fun owner => ?_
    split <;> exact uses_done _
  · exact uses_done _

theorem profile_uses (name : String) (headers : Headers) :
    (profile ext cfg name headers).Uses (Op.Within cfg paying auth) := by
  unfold profile
  refine (allowRead_uses cfg _).bind fun allowed => ?_
  split
  · exact uses_done _
  dsimp only
  split
  · exact uses_done _
  refine uses_perform_bind (Op.within_plain cfg trivial rfl rfl) fun owner => ?_
  split <;> exact uses_done _

theorem byPubkey_uses (pubkey : String) (headers : Headers) :
    (byPubkey ext cfg pubkey headers).Uses (Op.Within cfg paying auth) := by
  unfold byPubkey
  refine (allowRead_uses cfg _).bind fun allowed => ?_
  split
  · exact uses_done _
  dsimp only
  split
  · exact uses_done _
  refine uses_perform_bind (Op.within_plain cfg trivial rfl rfl) fun name => ?_
  split <;> exact uses_done _

/-! ## Offers -/

theorem deathHeight_uses :
    (deathHeight cfg).Uses (Op.Within cfg paying auth) := by
  unfold deathHeight
  split
  · exact uses_done _
  refine uses_perform_bind (Op.within_plain cfg trivial rfl rfl) fun tip => ?_
  split <;> exact uses_done _

theorem settleExpiry_uses (offer : OfferRow) (now : Int) :
    (settleExpiry cfg offer now).Uses (Op.Within cfg paying auth) := by
  unfold settleExpiry
  split
  · exact uses_done _
  refine (deathHeight_uses cfg).bind fun endHeight => ?_
  exact uses_perform_bind (Op.within_plain cfg trivial rfl rfl) fun _ =>
    uses_perform_bind (Op.within_plain cfg trivial rfl rfl) fun _ => uses_done _

theorem lodgeOffer_uses (headers : Headers) (body : Bytes) :
    (lodgeOffer ext cfg headers body).Uses
      (Op.Within cfg paying headers.authEvent) := by
  unfold lodgeOffer
  refine (authorize_uses ext cfg (by decide) headers .post _ body).bind
    fun result => ?_
  split
  · exact uses_done _
  split
  · exact uses_done _
  unfold lodge
  refine uses_perform_bind (Op.within_plain cfg trivial rfl rfl) fun now => ?_
  split
  · exact uses_done _
  refine uses_perform_bind (Op.within_plain cfg trivial rfl rfl) fun owner => ?_
  split
  · exact uses_done _
  refine uses_perform_bind (Op.within_plain cfg trivial rfl rfl) fun taken => ?_
  split
  · exact uses_done _
  refine uses_perform_bind (Op.within_plain cfg trivial rfl rfl) fun bound => ?_
  split
  · exact uses_done _
  refine uses_perform_bind (Op.within_plain cfg trivial rfl rfl)
    fun inserted => ?_
  split <;> exact uses_done _

theorem readOffer_uses (offerId : String) (headers : Headers) :
    (readOffer ext cfg offerId headers).Uses (Op.Within cfg paying auth) := by
  unfold readOffer
  refine (allowRead_uses cfg _).bind fun allowed => ?_
  split
  · exact uses_done _
  refine uses_perform_bind (Op.within_plain cfg trivial rfl rfl)
    fun stored => ?_
  split
  · exact uses_done _
  refine uses_perform_bind (Op.within_plain cfg trivial rfl rfl) fun now => ?_
  exact (settleExpiry_uses cfg _ _).bind fun _ => uses_done _

theorem revokeOffer_uses (offerId : String) (headers : Headers) :
    (revokeOffer ext cfg offerId headers).Uses
      (Op.Within cfg paying headers.authEvent) := by
  unfold revokeOffer
  refine (authorize_uses ext cfg (by decide) headers .delete _ []).bind
    fun result => ?_
  split
  · exact uses_done _
  unfold revokeById
  refine uses_perform_bind (Op.within_plain cfg trivial rfl rfl)
    fun stored => ?_
  split
  · exact uses_done _
  split
  · exact uses_done _
  split
  · exact uses_done _
  split
  · exact uses_done _
  refine Uses.bind ?_ fun _ => uses_done _
  unfold revoke
  refine uses_perform_bind (Op.within_plain cfg trivial rfl rfl) fun now => ?_
  split
  · refine (deathHeight_uses cfg).bind fun endHeight => ?_
    exact uses_perform_bind (Op.within_plain cfg trivial rfl rfl)
      fun _ => uses_done _
  · exact uses_perform_bind (Op.within_plain cfg trivial rfl rfl)
      fun _ => uses_done _

theorem executeClaim_uses (offer : OfferRow) (excessHex : String)
    (kernelHeight : Option Int) (now : Int) :
    (executeClaim cfg offer excessHex kernelHeight now).Uses
      (Op.Within cfg paying auth) := by
  unfold executeClaim
  refine uses_perform_bind (Op.within_plain cfg trivial rfl rfl)
    fun outcome => ?_
  split
  · exact uses_perform_bind (Op.within_plain cfg (.inl rfl) rfl rfl)
      fun _ => uses_done _
  all_goals exact uses_done _

theorem claimPaid_uses (offer : OfferRow) (excessHex : String)
    (deadEndHeight : Option Int) (now : Int) :
    (claimPaid cfg offer excessHex deadEndHeight now).Uses
      (Op.Within cfg paying auth) := by
  have kernel : (nodeKernel cfg excessHex).Uses
    (Op.Within cfg paying auth) := by
    unfold nodeKernel
    split
    · exact uses_done _
    · exact uses_perform (Op.within_plain cfg trivial rfl rfl)
  unfold claimPaid
  refine kernel.bind fun answer => ?_
  split
  · exact uses_done _
  refine uses_perform_bind (Op.within_plain cfg trivial rfl rfl) fun used => ?_
  split
  · exact uses_done _
  refine uses_perform_bind (Op.within_plain cfg trivial rfl rfl)
    fun existing => ?_
  split
  · exact uses_done _
  · exact executeClaim_uses cfg offer excessHex _ now

theorem claimOffer_uses (authPubkey offerId : String) (payment : Payment)
    (offer : OfferRow) (now : Int) :
    (claimOffer cfg authPubkey offerId payment offer now).Uses
      (Op.Within cfg paying auth) := by
  unfold claimOffer
  split
  · unfold claimRetry
    refine uses_perform_bind (Op.within_plain cfg trivial rfl rfl)
      fun found => ?_
    split
    · split <;> exact uses_done _
    · exact uses_done _
  split
  · exact uses_done _
  split
  · exact uses_done _
  refine uses_perform_bind (Op.within_plain cfg trivial rfl rfl) fun owner => ?_
  split
  · exact uses_done _
  split
  · exact uses_done _
  · exact claimPaid_uses cfg offer _ _ now

theorem claim_uses (headers : Headers) (body : Bytes) :
    (claim ext cfg headers body).Uses
      (Op.Within cfg paying headers.authEvent) := by
  unfold claim
  refine (authorize_uses ext cfg (by decide) headers .post _ body).bind
    fun result => ?_
  split
  · exact uses_done _
  split
  · exact uses_done _
  unfold claimById
  refine uses_perform_bind (Op.within_plain cfg trivial rfl rfl)
    fun stored => ?_
  split
  · exact uses_done _
  refine uses_perform_bind (Op.within_plain cfg trivial rfl rfl) fun now => ?_
  exact (settleExpiry_uses cfg _ _).bind fun settled =>
    claimOffer_uses cfg _ _ _ settled now

/-! ## All endpoints -/

theorem transferRoute_uses {handler : Handler Response}
    (uses : handler.Uses (Op.Within cfg paying auth)) :
    (transferRoute cfg handler).Uses (Op.Within cfg paying auth) := by
  unfold transferRoute
  split
  · exact uses
  · exact uses_done _

theorem routes_uses (request : Request) :
    (routes ext cfg request).Uses
      (Op.Within cfg request.charges request.authEvent) := by
  cases request with
  | wellKnown name headers => exact wellKnown_uses ext cfg name headers
  | availability name headers => exact availability_uses ext cfg name headers
  | register headers body => exact register_uses ext cfg headers body
  | unregister name headers => exact unregister_uses ext cfg name headers
  | profile name headers => exact profile_uses ext cfg name headers
  | byPubkey pubkey headers => exact byPubkey_uses ext cfg pubkey headers
  | paidStatus pubkey headers => exact paidStatus_uses ext cfg pubkey headers
  | quote headers body => exact quote_uses ext cfg headers body
  | goblinpayWebhook signature body =>
      exact goblinpayWebhook_uses ext cfg signature body
  | lodgeOffer headers body =>
      exact transferRoute_uses cfg (lodgeOffer_uses ext cfg headers body)
  | readOffer offerId headers =>
      exact transferRoute_uses cfg (readOffer_uses ext cfg offerId headers)
  | revokeOffer offerId headers =>
      exact transferRoute_uses cfg (revokeOffer_uses ext cfg offerId headers)
  | claim headers body =>
      exact transferRoute_uses cfg (claim_uses ext cfg headers body)

end Floonet
