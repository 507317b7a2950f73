import Floonet.Effects
import Floonet.Server

/-!
# What a request has done before it writes

`Leads` lists, for every step that can change names, offers or transfers, the
request that performs it and what that request has checked and read before.
`Answered` relates the responses of the registering requests to their writes.
Both are proved of every handler by the local rule `Program.Every`, whatever
the answers are, and so hold of every thread of every run.
-/

namespace Floonet

open Concurrent Program Validation

abbrev History := List (Concurrent.Event Op Op.Ans)

/-- The step `op` was answered by `answer`. -/
def History.Saw (past : History) (op : Op) (answer : op.Ans) : Prop :=
  (⟨op, answer⟩ : Concurrent.Event Op Op.Ans) ∈ past

theorem History.Saw.append {past : History} {op : Op} {answer : op.Ans}
    (saw : past.Saw op answer) (new : History) :
    History.Saw (past ++ new) op answer :=
  List.mem_append_left new saw

theorem History.saw_last (past : History) (op : Op) (answer : op.Ans) :
    History.Saw (past ++ [⟨op, answer⟩]) op answer :=
  List.mem_append_right past List.mem_cons_self

/-- The offer `offerId` was read, perhaps a second time under the id it has
in the first answer. -/
def History.SawOffer (past : History) (offerId : String) (offer : OfferRow) :
    Prop :=
  past.Saw (.db (.getOffer offerId)) (some offer) ∨
    ∃ first, past.Saw (.db (.getOffer offerId)) (some first) ∧
      past.Saw (.db (.getOffer first.offerId)) (some offer)

theorem History.SawOffer.append {past : History} {offerId : String}
    {offer : OfferRow} (saw : past.SawOffer offerId offer) (new : History) :
    History.SawOffer (past ++ new) offerId offer := by
  rcases saw with once | ⟨first, sawFirst, again⟩
  · exact .inl (once.append new)
  · exact .inr ⟨first, sawFirst.append new, again.append new⟩

/-- `Saw`, and nothing since. -/
def History.EndsWith (past : History) (op : Op) (answer : op.Ans) : Prop :=
  ∃ earlier : History, past = earlier ++ [⟨op, answer⟩]

/-- Steps that cannot change names, offers or transfers. -/
def Op.silent : Op → Bool
  | .db (.insertName _ _) => false
  | .db (.releaseName _) => false
  | .db (.insertOffer _) => false
  | .db (.markOfferDead _ _ _ _) => false
  | .db (.reviseRevoked _) => false
  | .db (.runClaimTxn _ _ _ _) => false
  | _ => true

/-- Nothing was written yet. -/
def History.Silent (past : History) : Prop :=
  ∀ event ∈ past, event.op.silent = true

theorem History.Silent.snoc {past : History} (silent : past.Silent) (op : Op)
    (answer : op.Ans) (quiet : op.silent = true) :
    History.Silent (past ++ [⟨op, answer⟩]) := by
  intro event member
  rcases List.mem_append.mp member with old | new
  · exact silent event old
  · rw [List.mem_singleton.mp new]
    exact quiet

/-- No step reported a change of the names. -/
def History.KeepsNames (past : History) : Prop :=
  ∀ event ∈ past, event.op.reassigns event.answer = false

namespace History.KeepsNames

variable {past new : History}

theorem append (keeps : past.KeepsNames) (newKeeps : new.KeepsNames) :
    History.KeepsNames (past ++ new) := by
  intro event member
  rcases List.mem_append.mp member with old | fresh
  · exact keeps event old
  · exact newKeeps event fresh

theorem snoc (keeps : past.KeepsNames) (op : Op) (answer : op.Ans)
    (kept : op.reassigns answer = false) :
    History.KeepsNames (past ++ [⟨op, answer⟩]) := by
  refine keeps.append fun event member => ?_
  rw [List.mem_singleton.mp member]
  exact kept

theorem of_silent (silent : ∀ event ∈ new, event.op.silent = true) :
    new.KeepsNames := by
  have keeps : ∀ (op : Op) (answer : op.Ans), op.silent = true →
      op.reassigns answer = false := by
    intro op answer silent
    cases op with
    | db op => cases op <;> first | rfl | cases silent
    | _ => rfl
  exact fun event member => keeps event.op event.answer (silent event member)

end History.KeepsNames

variable (ext : Extern) (cfg : Config)

/-- `Leads request past op`: a thread that serves `request` and has received
the answers `past` may perform `op` next. -/
inductive Leads : Request → History → Op → Prop where
  | silent {request : Request} {past : History} {op : Op}
      (silent : op.silent = true) : Leads request past op
  | register {headers : Headers} {body : Bytes} {past : History}
      {authPubkey name pubkey : String}
      (signed : headers.signer = some authPubkey)
      (accepted : registerRequest ext cfg authPubkey body =
        .ok (name, pubkey)) :
      Leads (.register headers body) past (.db (.insertName name pubkey))
  | unregister {raw : String} {headers : Headers} {past : History}
      {authPubkey : String}
      (signed : headers.signer = some authPubkey)
      (owner : past.EndsWith (.db (.lookup (ext.cases.toLowercase raw)))
        (some authPubkey)) :
      Leads (.unregister raw headers) past
        (.db (.releaseName (ext.cases.toLowercase raw)))
  | lodge {headers : Headers} {body : Bytes} {past : History}
      {authPubkey : String} {lodgement : Lodgement} {now : Int}
      (signed : headers.signer = some authPubkey)
      (accepted : lodgeRequest ext cfg authPubkey body = .ok lodgement)
      (clock : past.Saw .unixNow now)
      (future : now < lodgement.expiration)
      (owner : past.Saw (.db (.lookup lodgement.name))
        (some lodgement.seller))
      (nameFree : past.Saw (.db (.liveOfferForName lodgement.name now)) false)
      (addressFree : past.Saw
        (.db (.liveOfferBinding lodgement.proofAddress now)) false)
      (unwritten : past.Silent) :
      Leads (.lodgeOffer headers body) past
        (.db (.insertOffer (lodgement.row now)))
  | expire {request : Request} {past : History} {offerId : String}
      {offer : OfferRow} {now : Int} {endHeight : Option Int}
      (seen : past.Saw (.db (.getOffer offerId)) (some offer))
      (clock : past.Saw .unixNow now)
      (live : offer.status = .live)
      (late : offer.expiration < now) :
      Leads request past
        (.db (.markOfferDead offer.offerId .expired endHeight now))
  | revoke {offerId : String} {headers : Headers} {past : History}
      {offer : OfferRow} {now : Int} {endHeight : Option Int}
      (signed : headers.signer = some offer.sellerPubkey)
      (seen : past.Saw (.db (.getOffer offerId)) (some offer))
      (clock : past.Saw .unixNow now)
      (live : offer.status = .live) :
      Leads (.revokeOffer offerId headers) past
        (.db (.markOfferDead offer.offerId .revoked endHeight now))
  | revise {offerId : String} {headers : Headers} {past : History}
      {offer : OfferRow}
      (signed : headers.signer = some offer.sellerPubkey)
      (seen : past.Saw (.db (.getOffer offerId)) (some offer))
      (expired : offer.status = .expired)
      (unwritten : past.Silent) :
      Leads (.revokeOffer offerId headers) past
        (.db (.reviseRevoked offer.offerId))
  | claim {headers : Headers} {body : Bytes} {past : History}
      {offerId : String} {proof : ParsedPaymentProof}
      {offer : OfferRow} {now : Int} {deadEndHeight kernelHeight : Option Int}
      {kernel : Except String KernelResult}
      (signed : headers.signer = some offer.buyerPubkey)
      (accepted : claimRequest ext body = .ok (offerId, proof))
      (seen : past.SawOffer offerId offer)
      (clock : past.Saw .unixNow now)
      (open_ : offer.status ≠ .consumed)
      (inWindow : deathGate cfg offer now = .ok deadEndHeight)
      (paid : proofGate offer (proof.payment ext) = .ok ())
      (answered : past.Saw (.kernel proof.excessHex) kernel)
      (settled : kernelGate cfg offer deadEndHeight kernel = .ok kernelHeight) :
      Leads (.claim headers body) past
        (.db (.runClaimTxn offer proof.excessHex kernelHeight now))

/-- What the response of a registering request says about its writes. -/
def Answered : Request → History → Response → Prop
  | .register headers body, past, response =>
      (response.status = .created → ∃ authPubkey name pubkey count,
        headers.signer = some authPubkey ∧
          registerRequest ext cfg authPubkey body = .ok (name, pubkey) ∧
          past.Saw (.db (.insertName name pubkey)) (.ok (count + 1))) ∧
      (response.status = .conflict → past.KeepsNames)
  | .claim headers body, past, response =>
      (response.status = .created → ∃ offerId proof offer kernelHeight now,
        headers.signer = some offer.buyerPubkey ∧
          claimRequest ext body = .ok (offerId, proof) ∧
          past.SawOffer offerId offer ∧
          past.Saw (.db (.runClaimTxn offer proof.excessHex kernelHeight now))
            (.ok ())) ∧
      (response.status = .conflict → past.KeepsNames)
  | _, _, _ => True

/-! ## The shared opening -/

/-- Programs without a write. -/
abbrev SilentProgram {Res : Type} (program : Handler Res)
    (resultOk : History → Res → Prop) (past : History) : Prop :=
  program.Every (fun _ op => op.silent = true) resultOk past

theorem allow_silent (bucket ip : String) (max : Nat) (window : Duration)
    (past : History) :
    SilentProgram (App.allow bucket ip max window) (fun _ _ => True) past :=
  ⟨rfl, fun _ => ⟨rfl, fun _ => trivial⟩⟩

theorem authEventFresh_silent (eventId : String) (past : History) :
    SilentProgram (App.authEventFresh cfg eventId) (fun _ _ => True) past :=
  ⟨rfl, fun _ => ⟨rfl, fun _ => trivial⟩⟩

theorem cooldownActive_silent (bucket key : String) (window : Duration)
    (past : History) :
    SilentProgram (App.cooldownActive bucket key window) (fun _ _ => True)
      past :=
  ⟨rfl, fun _ => ⟨rfl, fun _ => trivial⟩⟩

theorem checkAuthTags_refuses (event : Event) (method : Method)
    (urlPath : String) (body : Bytes) (baseUrl : String) :
    Refuses (fun refusal => refusal.1 = .unauthorized)
      (checkAuthTags ext event method urlPath body baseUrl) := by
  unfold checkAuthTags
  dsimp only
  refine Refuses.bind (refuses_require rfl) fun _ =>
    Refuses.bind (refuses_require rfl) fun _ => ?_
  split
  · exact refuses_require rfl
  · exact refuses_require rfl

theorem verifyNip98_reads (headers : Headers) (method : Method)
    (urlPath : String) (body : Bytes) :
    (verifyNip98 ext cfg headers method urlPath body).Uses
      fun _ op => op = .unixNow := by
  unfold verifyNip98
  cases headers.authorization with
  | signed event =>
      dsimp only
      split
      · exact uses_done _
      refine uses_perform_bind (fun _ => rfl) fun now => ?_
      split
      · exact uses_done _
      · split <;> exact uses_done _
  | _ => exact uses_done _

theorem verifyNip98_silent (headers : Headers) (method : Method)
    (urlPath : String) (body : Bytes) (past : History) :
    SilentProgram (verifyNip98 ext cfg headers method urlPath body)
      (fun _ result => match result with
        | .error refusal => refusal.1 = .unauthorized
        | .ok pubkey => headers.signer = some pubkey.1) past := by
  unfold verifyNip98 Headers.signer
  cases headers.authorization with
  | signed event =>
      dsimp only
      split
      · rfl
      · refine every_perform_bind.mpr ⟨rfl, fun now => ?_⟩
        split
        · rfl
        · split
          · rename_i refusal refused
            exact checkAuthTags_refuses ext event method urlPath body
              cfg.baseUrl refusal refused
          · rfl
  | _ => rfl

/-- A request that is turned away before its endpoint looks at it. -/
def Response.TurnsAway (response : Response) : Prop :=
  response.status = .tooManyRequests ∨ response.status = .unauthorized

theorem Response.TurnsAway.status_ne {response : Response}
    (away : response.TurnsAway) {status : StatusCode}
    (limited : status ≠ .tooManyRequests) (known : status ≠ .unauthorized) :
    response.status ≠ status := by
  rcases away with same | same
  · exact fun other => limited (other.symm.trans same)
  · exact fun other => known (other.symm.trans same)

theorem authorize_silent (bucket : String) (headers : Headers)
    (method : Method) (urlPath : String) (body : Bytes) (past : History) :
    SilentProgram (authorize ext cfg bucket headers method urlPath body)
      (fun _ result => match result with
        | .error refusal => refusal.TurnsAway
        | .ok pubkey => headers.signer = some pubkey) past := by
  have quiet : ∀ (past' : History) (op : Op), op.silent = true →
      op.silent = true := fun _ _ silent => silent
  unfold authorize
  refine (allow_silent bucket (clientIp headers) cfg.writeRateMax
    cfg.writeRateWindow past).quiet_bind quiet fun new allowed _ _ => ?_
  split
  · exact .inl rfl
  · refine (verifyNip98_silent ext cfg headers method urlPath body
      (past ++ new)).quiet_bind quiet fun new' result _ verified => ?_
    rcases result with ⟨code, message⟩ | ⟨pubkey, authId⟩
    · have unauthorized : code = .unauthorized := verified
      subst unauthorized
      exact .inr rfl
    · refine (authEventFresh_silent cfg authId
        (past ++ new ++ new')).quiet_bind quiet fun _ fresh _ _ => ?_
      split
      · exact .inr rfl
      · exact verified

/-! ## Payment -/

theorem newGrant_silent (pubkey resource : String) (price : Nat)
    (past : History) :
    SilentProgram (newGrant cfg pubkey resource price) (fun _ _ => True)
      past := by
  unfold newGrant
  refine every_perform_bind.mpr ⟨rfl, fun answer => ?_⟩
  split
  · exact every_perform_bind.mpr ⟨rfl, fun _ => trivial⟩
  · trivial

theorem pollGrant_silent (grant : Grant) (pubkey resource : String)
    (price : Nat) (past : History) :
    SilentProgram (pollGrant cfg grant pubkey resource price)
      (fun _ _ => True) past := by
  unfold pollGrant
  refine (cooldownActive_silent "paidpoll" s!"{pubkey}:{resource}"
    cfg.paidPollInterval past).quiet_bind (fun _ _ silent => silent)
    fun new active _ _ => ?_
  split
  · trivial
  · refine every_perform_bind.mpr ⟨rfl, fun _ => ?_⟩
    refine every_perform_bind.mpr ⟨rfl, fun answer => ?_⟩
    split
    · split
      · exact every_perform_bind.mpr ⟨rfl, fun _ => trivial⟩
      · split
        · exact newGrant_silent cfg pubkey resource price _
        · trivial
    · trivial

theorem ensurePaid_silent (pubkey resource : String) (past : History) :
    SilentProgram (ensurePaid cfg pubkey resource) (fun _ _ => True) past := by
  unfold ensurePaid
  split
  · trivial
  · refine every_perform_bind.mpr ⟨rfl, fun answer => ?_⟩
    split
    · exact newGrant_silent cfg pubkey resource _ _
    · split
      · trivial
      · exact pollGrant_silent cfg _ pubkey resource _ _

theorem registerPayment_silent (authPubkey : String) (past : History) :
    SilentProgram (registerPayment cfg authPubkey)
      (fun _ result => ∀ refusal ∈ result, refusal.status ≠ .created)
      past := by
  unfold registerPayment
  split
  · exact nofun
  · refine (ensurePaid_silent cfg authPubkey "name" past).quiet_bind
      (fun _ _ silent => silent) fun new outcome _ _ => ?_
    split
    · exact nofun
    · rintro refusal ⟨⟩
      exact nofun
    · rintro refusal ⟨⟩
      exact nofun

/-! ## Registration -/

theorem registerRequest_refuses (status : StatusCode)
    (wellFormed : status ≠ .badRequest) (known : status ≠ .unauthorized)
    (allowed : status ≠ .forbidden) (authPubkey : String) (body : Bytes) :
    Refuses (fun refusal => refusal.status ≠ status)
      (registerRequest ext cfg authPubkey body) := by
  unfold registerRequest
  refine Refuses.bind (refuses_demand wellFormed.symm) fun req => ?_
  refine Refuses.bind (refuses_require wellFormed.symm) fun _ => ?_
  refine Refuses.bind (refuses_require known.symm) fun _ => ?_
  refine Refuses.bind (refuses_require wellFormed.symm) fun _ => ?_
  refine Refuses.bind (refuses_require allowed.symm) fun _ => ?_
  exact refuses_pure _

/-- A response other than 201 that leaves the names alone. -/
theorem answered_of_keeps {request : Request} {past : History}
    {response : Response} (keeps : past.KeepsNames)
    (refused : response.status ≠ .created) :
    Answered ext cfg request past response := by
  cases request with
  | register headers body =>
      exact ⟨fun created => absurd created refused, fun _ => keeps⟩
  | claim headers body =>
      exact ⟨fun created => absurd created refused, fun _ => keeps⟩
  | _ => trivial

theorem acquireName_leads {headers : Headers} {body : Bytes}
    {authPubkey name pubkey : String} {past : History}
    (keeps : past.KeepsNames) (signed : headers.signer = some authPubkey)
    (accepted : registerRequest ext cfg authPubkey body =
      .ok (name, pubkey)) :
    (acquireName cfg authPubkey name pubkey).Every
      (Leads ext cfg (.register headers body))
      (Answered ext cfg (.register headers body)) past := by
  unfold acquireName
  refine every_perform_bind.mpr ⟨.register signed accepted, fun answer => ?_⟩
  have saw := past.saw_last (.db (.insertName name pubkey)) answer
  rcases answer with error | count
  · cases error with
    | constraintViolation => exact ⟨nofun, fun _ => keeps.snoc _ _ rfl⟩
    | other => exact ⟨nofun, nofun⟩
  · cases count with
    | zero => exact ⟨nofun, fun _ => keeps.snoc _ _ rfl⟩
    | succ count =>
        have created : ∀ new, Answered ext cfg (.register headers body)
            (past ++ [⟨.db (.insertName name pubkey), .ok (count + 1)⟩] ++ new)
            ⟨.created, nameBody cfg name⟩ := fun new =>
          ⟨fun _ => ⟨authPubkey, name, pubkey, count, signed, accepted,
            saw.append new⟩, nofun⟩
        dsimp only
        split
        · exact every_perform_bind.mpr ⟨.silent rfl, fun _ => created [_]⟩
        · exact ⟨fun _ => ⟨authPubkey, name, pubkey, count, signed, accepted,
            saw⟩, nofun⟩

theorem registerName_leads {headers : Headers} {body : Bytes}
    {authPubkey name pubkey : String} {past : History}
    (keeps : past.KeepsNames) (signed : headers.signer = some authPubkey)
    (accepted : registerRequest ext cfg authPubkey body =
      .ok (name, pubkey)) :
    (registerName cfg authPubkey name pubkey).Every
      (Leads ext cfg (.register headers body))
      (Answered ext cfg (.register headers body)) past := by
  unfold registerName
  refine every_perform_bind.mpr ⟨.silent rfl, fun owner => ?_⟩
  replace keeps := keeps.snoc (.db (.lookup name)) owner rfl
  split
  · split
    · exact answered_of_keeps ext cfg keeps nofun
    · exact answered_of_keeps ext cfg keeps nofun
  refine every_perform_bind.mpr ⟨.silent rfl, fun existing => ?_⟩
  replace keeps := keeps.snoc (.db (.nameOf pubkey)) existing rfl
  split
  · exact answered_of_keeps ext cfg keeps nofun
  refine (registerPayment_silent cfg authPubkey _).quiet_bind
    (fun _ _ silent => .silent silent) fun new payment silent refused => ?_
  replace keeps := keeps.append (.of_silent silent)
  cases payment with
  | some refusal =>
      exact answered_of_keeps ext cfg keeps (refused refusal rfl)
  | none => exact acquireName_leads ext cfg keeps signed accepted

theorem register_leads (headers : Headers) (body : Bytes) :
    (register ext cfg headers body).Every
      (Leads ext cfg (.register headers body))
      (Answered ext cfg (.register headers body)) [] := by
  have quiet : ∀ (past : History) (op : Op), op.silent = true →
      Leads ext cfg (.register headers body) past op :=
    fun _ _ silent => .silent silent
  unfold register
  refine (authorize_silent ext cfg "reg" headers .post "/api/v1/register" body
    []).quiet_bind quiet fun past result silent authorized => ?_
  have keeps : History.KeepsNames ([] ++ past) := .of_silent silent
  rcases result with refusal | authPubkey
  · exact answered_of_keeps ext cfg keeps
      (authorized.status_ne nofun nofun)
  refine (cooldownActive_silent "namechange" authPubkey
    cfg.nameChangeCooldown _).quiet_bind quiet fun new cooling silent _ => ?_
  replace keeps := keeps.append (.of_silent silent)
  split
  · exact answered_of_keeps ext cfg keeps nofun
  split
  · rename_i refusal refused
    exact answered_of_keeps ext cfg keeps
      (registerRequest_refuses ext cfg .created nofun nofun nofun authPubkey
        body refusal refused)
  rename_i name pubkey accepted
  exact registerName_leads ext cfg keeps authorized accepted

theorem unregisterName_leads {raw : String} {headers : Headers}
    {authPubkey : String} {past : History}
    (signed : headers.signer = some authPubkey) :
    (unregisterName authPubkey (ext.cases.toLowercase raw)).Every
      (Leads ext cfg (.unregister raw headers))
      (Answered ext cfg (.unregister raw headers)) past := by
  unfold unregisterName
  refine every_perform_bind.mpr ⟨.silent rfl, fun owner => ?_⟩
  split
  · trivial
  rename_i found
  split
  · trivial
  rename_i isOwner
  have same : found = authPubkey := Decidable.not_not.mp isOwner
  subst same
  refine every_perform_bind.mpr
    ⟨.unregister signed ⟨_, rfl⟩, fun released => ?_⟩
  split
  · exact every_perform_bind.mpr ⟨.silent rfl, fun _ => trivial⟩
  · trivial

theorem unregister_leads (raw : String) (headers : Headers) :
    (unregister ext cfg raw headers).Every
      (Leads ext cfg (.unregister raw headers))
      (Answered ext cfg (.unregister raw headers)) [] := by
  unfold unregister
  refine (authorize_silent ext cfg "unreg" headers .delete _ []
    []).quiet_bind (fun _ _ silent => .silent silent)
    fun past result _ authorized => ?_
  rcases result with refusal | authPubkey
  · trivial
  · exact unregisterName_leads ext cfg authorized

/-! ## Offers -/

theorem deathHeight_silent (past : History) :
    SilentProgram (deathHeight cfg) (fun _ _ => True) past := by
  unfold deathHeight
  split
  · trivial
  · refine every_perform_bind.mpr ⟨rfl, fun answer => ?_⟩
    split <;> trivial

/-- Settling reads the offer again if it wrote; the result was read. -/
theorem settleExpiry_leads {request : Request} {past : History}
    {offerId : String} {offer : OfferRow} {now : Int}
    (seen : past.Saw (.db (.getOffer offerId)) (some offer))
    (clock : past.Saw .unixNow now) :
    (settleExpiry cfg offer now).Every (Leads ext cfg request)
      (fun past' settled => ∃ new, past' = past ++ new ∧
        History.KeepsNames new ∧ History.SawOffer past' offerId settled)
      past := by
  unfold settleExpiry
  split
  · exact every_done.mpr ⟨[], (List.append_nil past).symm,
      (fun _ member => nomatch member), .inl seen⟩
  · rename_i dying
    simp only [not_or, Int.not_le] at dying
    have live : offer.status = .live := Decidable.not_not.mp dying.1
    refine (deathHeight_silent cfg past).quiet_bind
      (fun _ _ silent => .silent silent) fun new endHeight silent _ => ?_
    refine every_perform_bind.mpr
      ⟨.expire (seen.append new) (clock.append new) live dying.2,
        fun marked => ?_⟩
    refine every_perform_bind.mpr ⟨.silent rfl, fun stored => ?_⟩
    refine ⟨new ++ [⟨.db (.markOfferDead offer.offerId .expired endHeight now),
        marked⟩] ++ [⟨.db (.getOffer offer.offerId), stored⟩],
      by simp only [List.append_assoc],
      ((History.KeepsNames.of_silent silent).snoc _ _ rfl).snoc _ _ rfl, ?_⟩
    cases stored with
    | none => exact .inl (((seen.append _).append _).append _)
    | some stored =>
        exact .inr ⟨offer, ((seen.append _).append _).append _,
          History.saw_last _ _ _⟩

theorem lodge_leads {headers : Headers} {body : Bytes} {past : History}
    {authPubkey : String} {lodgement : Lodgement} (silent : past.Silent)
    (signed : headers.signer = some authPubkey)
    (accepted : lodgeRequest ext cfg authPubkey body = .ok lodgement) :
    (lodge cfg lodgement).Every
      (Leads ext cfg (.lodgeOffer headers body)) (fun _ _ => True) past := by
  unfold lodge
  refine every_perform_bind.mpr ⟨.silent rfl, fun now => ?_⟩
  have clock := past.saw_last .unixNow now
  split
  · trivial
  rename_i inTime
  rw [not_or, Int.not_le] at inTime
  refine every_perform_bind.mpr ⟨.silent rfl, fun owner => ?_⟩
  split
  · trivial
  rename_i owned
  have isSeller := Decidable.not_not.mp owned
  subst isSeller
  refine every_perform_bind.mpr ⟨.silent rfl, fun taken => ?_⟩
  split
  · trivial
  rename_i nameFree
  rw [Bool.not_eq_true] at nameFree
  subst nameFree
  refine every_perform_bind.mpr ⟨.silent rfl, fun bound => ?_⟩
  split
  · trivial
  rename_i addressFree
  rw [Bool.not_eq_true] at addressFree
  subst addressFree
  refine every_perform_bind.mpr ⟨.lodge signed accepted
    (((clock.append _).append _).append _) inTime.1
    (((History.saw_last _ _ _).append _).append _)
    ((History.saw_last _ _ _).append _)
    (History.saw_last _ _ _)
    ((((silent.snoc _ _ rfl).snoc _ _ rfl).snoc _ _ rfl).snoc _ _ rfl),
    fun inserted => ?_⟩
  split <;> trivial

theorem lodgeOffer_leads (headers : Headers) (body : Bytes) :
    (lodgeOffer ext cfg headers body).Every
      (Leads ext cfg (.lodgeOffer headers body)) (fun _ _ => True) [] := by
  unfold lodgeOffer
  refine (authorize_silent ext cfg "transfer" headers .post _ body
    []).quiet_bind (fun _ _ silent => .silent silent)
    fun past result silent authorized => ?_
  rcases result with refusal | authPubkey
  · trivial
  dsimp only
  split
  · trivial
  · rename_i lodgement accepted
    exact lodge_leads ext cfg silent authorized accepted

theorem readOffer_leads (offerId : String) (headers : Headers) :
    (readOffer ext cfg offerId headers).Every
      (Leads ext cfg (.readOffer offerId headers)) (fun _ _ => True) [] := by
  unfold readOffer
  refine (allow_silent "read" (clientIp headers) cfg.readRateMax
    cfg.readRateWindow []).quiet_bind (fun _ _ silent => .silent silent)
    fun past allowed _ _ => ?_
  split
  · trivial
  refine every_perform_bind.mpr ⟨.silent rfl, fun stored => ?_⟩
  cases stored with
  | none => trivial
  | some offer =>
      refine every_perform_bind.mpr ⟨.silent rfl, fun now => ?_⟩
      refine every_bind.mpr ((settleExpiry_leads ext cfg
        ((History.saw_last _ (.db (.getOffer offerId)) _).append _)
        (History.saw_last _ .unixNow now)).mono (fun _ _ _ leads => leads) ?_)
      exact fun _ _ _ _ => trivial

theorem revoke_leads {offerId : String} {headers : Headers} {past : History}
    {offer : OfferRow} (silent : past.Silent)
    (signed : headers.signer = some offer.sellerPubkey)
    (seen : past.Saw (.db (.getOffer offerId)) (some offer))
    (unsold : offer.status ≠ .consumed)
    (unrevoked : offer.status ≠ .revoked) :
    (revoke cfg offer).Every (Leads ext cfg (.revokeOffer offerId headers))
      (fun _ _ => True) past := by
  unfold revoke
  refine every_perform_bind.mpr ⟨.silent rfl, fun now => ?_⟩
  split
  · rename_i live
    refine (deathHeight_silent cfg _).quiet_bind
      (fun _ _ silent => .silent silent) fun new endHeight _ _ => ?_
    exact every_perform_bind.mpr ⟨.revoke signed
      ((seen.append _).append new)
      ((past.saw_last .unixNow now).append new) live, fun _ => trivial⟩
  · rename_i dead
    have expired : offer.status = .expired := by
      cases status : offer.status <;> simp_all
    exact every_perform_bind.mpr
      ⟨.revise signed (seen.append _) expired (silent.snoc _ _ rfl),
        fun _ => trivial⟩

theorem revokeById_leads {offerId : String} {headers : Headers}
    {authPubkey : String} {past : History} (silent : past.Silent)
    (signed : headers.signer = some authPubkey) :
    (revokeById cfg authPubkey offerId).Every
      (Leads ext cfg (.revokeOffer offerId headers)) (fun _ _ => True)
      past := by
  unfold revokeById
  refine every_perform_bind.mpr ⟨.silent rfl, fun stored => ?_⟩
  cases stored with
  | none => trivial
  | some offer =>
      have seen := past.saw_last (.db (.getOffer offerId)) (some offer)
      dsimp only
      split
      · trivial
      rename_i isSeller
      split
      · trivial
      rename_i unsold
      split
      · trivial
      rename_i unrevoked
      rw [Decidable.not_not.mp isSeller] at signed
      exact every_bind.mpr ((revoke_leads ext cfg (silent.snoc _ _ rfl) signed
        seen unsold unrevoked).mono (fun _ _ _ leads => leads) fun _ _ _ _ => trivial)

theorem revokeOffer_leads (offerId : String) (headers : Headers) :
    (revokeOffer ext cfg offerId headers).Every
      (Leads ext cfg (.revokeOffer offerId headers)) (fun _ _ => True) [] := by
  unfold revokeOffer
  refine (authorize_silent ext cfg "transfer" headers .delete _ []
    []).quiet_bind (fun _ _ silent => .silent silent)
    fun past result silent authorized => ?_
  rcases result with refusal | authPubkey
  · trivial
  · exact revokeById_leads ext cfg silent authorized

/-! ## Claims -/

theorem claimRequest_badRequest (body : Bytes) :
    Refuses (fun refusal => refusal.status = .badRequest)
      (claimRequest ext body) := by
  unfold claimRequest
  refine Refuses.bind (refuses_demand rfl) fun req => ?_
  refine Refuses.bind (refuses_demand rfl) fun offerId => ?_
  refine Refuses.bind (refuses_require rfl) fun _ => ?_
  refine Refuses.bind (refuses_demand rfl) fun proofVal => ?_
  refine Refuses.bind (refuses_demand rfl) fun proof => ?_
  exact refuses_pure _

theorem claimRequest_refuses (body : Bytes) :
    Refuses (fun refusal => refusal.status ≠ .created)
      (claimRequest ext body) := by
  intro refusal refused
  rw [claimRequest_badRequest ext body refusal refused]
  exact nofun

theorem deathGate_gone (offer : OfferRow) (now : Int) :
    Refuses (fun refusal => refusal.status = .gone)
      (deathGate cfg offer now) := by
  unfold deathGate
  split
  · refine Refuses.bind (refuses_require rfl) fun _ => ?_
    refine Refuses.bind (refuses_demand rfl) fun height => ?_
    exact refuses_pure _
  · exact refuses_pure _

theorem deathGate_refuses (offer : OfferRow) (now : Int) :
    Refuses (fun refusal => refusal.status ≠ .created)
      (deathGate cfg offer now) := by
  intro refusal refused
  rw [deathGate_gone cfg offer now refusal refused]
  exact nofun

theorem proofGate_refuses (offer : OfferRow) (payment : Payment) :
    Refuses (fun refusal => refusal.status ≠ .created)
      (proofGate offer payment) := by
  unfold proofGate
  refine Refuses.bind (refuses_require nofun) fun _ => ?_
  refine Refuses.bind (refuses_require nofun) fun _ => ?_
  exact refuses_require nofun

theorem kernelGate_refuses (offer : OfferRow) (deadEndHeight : Option Int)
    (kernel : Except String KernelResult) :
    Refuses (fun refusal => refusal.status ≠ .created)
      (kernelGate cfg offer deadEndHeight kernel) := by
  unfold kernelGate
  refine Refuses.bind (refuses_demand nofun) fun kernel => ?_
  refine Refuses.bind (refuses_require nofun) fun _ => ?_
  refine Refuses.bind (refuses_require nofun) fun _ => ?_
  exact refuses_pure _

theorem claimRetry_silent (offerId excessHex : String) (past : History) :
    SilentProgram (claimRetry cfg offerId excessHex)
      (fun _ response => response.status ≠ .created) past := by
  unfold claimRetry
  refine every_perform_bind.mpr ⟨rfl, fun transfer => ?_⟩
  split
  · split <;> exact nofun
  · exact nofun

theorem nodeKernel_silent (excessHex : String) (past : History) :
    SilentProgram (nodeKernel cfg excessHex)
      (fun past' kernel => (∃ refusal, kernel = .error refusal) ∨
        History.Saw past' (.kernel excessHex) kernel) past := by
  unfold nodeKernel
  split
  · exact .inl ⟨_, rfl⟩
  · exact every_step.mpr ⟨rfl, fun kernel =>
      every_done.mpr (.inr (past.saw_last _ kernel))⟩

section Claim

variable {headers : Headers} {body : Bytes} {past : History}
  {authPubkey offerId : String} {proof : ParsedPaymentProof}
  {offer : OfferRow} {now : Int} {deadEndHeight kernelHeight : Option Int}

theorem executeClaim_leads
    (keeps : past.KeepsNames)
    (signed : headers.signer = some offer.buyerPubkey)
    (accepted : claimRequest ext body = .ok (offerId, proof))
    (seen : past.SawOffer offerId offer)
    (leads : Leads ext cfg (.claim headers body) past
      (.db (.runClaimTxn offer proof.excessHex kernelHeight now))) :
    (executeClaim cfg offer proof.excessHex kernelHeight now).Every
      (Leads ext cfg (.claim headers body))
      (Answered ext cfg (.claim headers body)) past := by
  unfold executeClaim
  refine every_perform_bind.mpr ⟨leads, fun outcome => ?_⟩
  have saw := past.saw_last
    (.db (.runClaimTxn offer proof.excessHex kernelHeight now)) outcome
  rcases outcome with error | done
  · have kept := keeps.snoc
      (.db (.runClaimTxn offer proof.excessHex kernelHeight now))
      (.error error) rfl
    cases error <;> exact answered_of_keeps ext cfg kept nofun
  · exact every_perform_bind.mpr ⟨.silent rfl, fun _ =>
      ⟨fun _ => ⟨offerId, proof, offer, _, _, signed, accepted,
        (seen.append _).append _, saw.append _⟩, nofun⟩⟩

theorem claimPaid_leads
    (keeps : past.KeepsNames)
    (signed : headers.signer = some offer.buyerPubkey)
    (accepted : claimRequest ext body = .ok (offerId, proof))
    (seen : past.SawOffer offerId offer)
    (clock : past.Saw .unixNow now)
    (unsold : offer.status ≠ .consumed)
    (inWindow : deathGate cfg offer now = .ok deadEndHeight)
    (paid : proofGate offer (proof.payment ext) = .ok ()) :
    (claimPaid cfg offer proof.excessHex deadEndHeight now).Every
      (Leads ext cfg (.claim headers body))
      (Answered ext cfg (.claim headers body)) past := by
  unfold claimPaid
  refine (nodeKernel_silent cfg proof.excessHex past).quiet_bind
    (fun _ _ silent => .silent silent) fun new kernel silent answered => ?_
  replace keeps := keeps.append (.of_silent silent)
  split
  · rename_i refusal refused
    exact answered_of_keeps ext cfg keeps
      (kernelGate_refuses cfg offer deadEndHeight kernel refusal refused)
  rename_i kernelHeight settled
  have answered : History.Saw (past ++ new) (.kernel proof.excessHex)
      kernel := by
    rcases answered with ⟨refusal, rfl⟩ | saw
    · simp [kernelGate, demand, Except.toOption, Bind.bind,
        Except.bind] at settled
    · exact saw
  refine every_perform_bind.mpr ⟨.silent rfl, fun used => ?_⟩
  replace keeps := keeps.snoc (.db (.excessUsed proof.excessHex)) used rfl
  split
  · exact answered_of_keeps ext cfg keeps (by simp [err])
  refine every_perform_bind.mpr ⟨.silent rfl, fun existing => ?_⟩
  replace keeps := keeps.snoc (.db (.nameOf offer.buyerPubkey)) existing rfl
  split
  · exact answered_of_keeps ext cfg keeps (by simp)
  exact executeClaim_leads ext cfg keeps signed accepted
    (((seen.append new).append _).append _) (.claim signed accepted
    (((seen.append new).append _).append _)
    (((clock.append new).append _).append _) unsold inWindow paid
    ((answered.append _).append _) settled)

theorem claimOffer_leads
    (keeps : past.KeepsNames)
    (signed : headers.signer = some authPubkey)
    (accepted : claimRequest ext body = .ok (offerId, proof))
    (seen : past.SawOffer offerId offer)
    (clock : past.Saw .unixNow now) :
    (claimOffer cfg authPubkey offerId (proof.payment ext) offer now).Every
      (Leads ext cfg (.claim headers body))
      (Answered ext cfg (.claim headers body)) past := by
  unfold claimOffer
  split
  · refine (claimRetry_silent cfg offerId proof.excessHex past).grows.mono
      (fun _ _ _ silent => .silent silent) ?_
    rintro past' response - ⟨⟨new, rfl, silent⟩, refused⟩
    exact answered_of_keeps ext cfg (keeps.append (.of_silent silent)) refused
  rename_i unsold
  split
  · rename_i refusal refused
    exact answered_of_keeps ext cfg keeps
      (deathGate_refuses cfg offer now refusal refused)
  rename_i deadEndHeight inWindow
  split
  · exact answered_of_keeps ext cfg keeps nofun
  rename_i isBuyer
  have isBuyer := Decidable.not_not.mp isBuyer
  subst isBuyer
  refine every_perform_bind.mpr ⟨.silent rfl, fun owner => ?_⟩
  replace keeps := keeps.snoc (.db (.lookup offer.name)) owner rfl
  split
  · exact answered_of_keeps ext cfg keeps nofun
  split
  · rename_i refusal refused
    exact answered_of_keeps ext cfg keeps
      (proofGate_refuses offer (proof.payment ext) refusal refused)
  rename_i paid
  exact claimPaid_leads ext cfg keeps signed accepted (seen.append _)
    (clock.append _) unsold inWindow paid

theorem claimById_leads
    (keeps : past.KeepsNames)
    (signed : headers.signer = some authPubkey)
    (accepted : claimRequest ext body = .ok (offerId, proof)) :
    (claimById cfg authPubkey offerId (proof.payment ext)).Every
      (Leads ext cfg (.claim headers body))
      (Answered ext cfg (.claim headers body)) past := by
  unfold claimById
  refine every_perform_bind.mpr ⟨.silent rfl, fun stored => ?_⟩
  replace keeps := keeps.snoc (.db (.getOffer offerId)) stored rfl
  cases stored with
  | none => exact answered_of_keeps ext cfg keeps nofun
  | some offer =>
      refine every_perform_bind.mpr ⟨.silent rfl, fun now => ?_⟩
      replace keeps := keeps.snoc .unixNow now rfl
      have clock := History.saw_last
        (past ++ [⟨.db (.getOffer offerId), some offer⟩]) .unixNow now
      refine every_bind.mpr ((settleExpiry_leads ext cfg
        ((past.saw_last (.db (.getOffer offerId)) _).append _)
        clock).mono (fun _ _ _ leads => leads) ?_)
      rintro past' settled - ⟨new, rfl, newKeeps, seen⟩
      exact claimOffer_leads ext cfg (keeps.append newKeeps) signed
        accepted seen (clock.append new)

end Claim

theorem claim_leads (headers : Headers) (body : Bytes) :
    (claim ext cfg headers body).Every (Leads ext cfg (.claim headers body))
      (Answered ext cfg (.claim headers body)) [] := by
  unfold claim
  refine (authorize_silent ext cfg "transfer" headers .post _ body
    []).quiet_bind (fun _ _ silent => .silent silent)
    fun past result silent authorized => ?_
  have keeps : History.KeepsNames ([] ++ past) := .of_silent silent
  rcases result with refusal | authPubkey
  · exact answered_of_keeps ext cfg keeps
      (authorized.status_ne nofun nofun)
  dsimp only
  split
  · rename_i refusal refused
    exact answered_of_keeps ext cfg keeps
      (claimRequest_refuses ext body refusal refused)
  · rename_i offerId proof accepted
    exact claimById_leads ext cfg keeps authorized accepted

/-! ## The other endpoints -/

theorem allowRead_silent (ip : String) (past : History) :
    SilentProgram (App.allowRead cfg ip) (fun _ _ => True) past :=
  allow_silent "read" ip cfg.readRateMax cfg.readRateWindow past

theorem wellKnown_silent (name : Option String) (headers : Headers) :
    SilentProgram (wellKnown ext cfg name headers) (fun _ _ => True) [] := by
  unfold wellKnown
  refine (allowRead_silent cfg (clientIp headers) []).quiet_bind
    (fun _ _ silent => silent) fun new allowed _ _ => ?_
  split
  · trivial
  split
  · split
    · trivial
    · refine every_perform_bind.mpr ⟨rfl, fun owner => ?_⟩
      split <;> trivial
  · trivial

theorem availability_silent (name : String) (headers : Headers) :
    SilentProgram (availability ext cfg name headers) (fun _ _ => True) [] := by
  unfold availability
  refine (allowRead_silent cfg (clientIp headers) []).quiet_bind
    (fun _ _ silent => silent) fun new allowed _ _ => ?_
  split
  · trivial
  dsimp only
  split
  · trivial
  split
  · trivial
  refine every_perform_bind.mpr ⟨rfl, fun owner => ?_⟩
  split <;> trivial

theorem profile_silent (name : String) (headers : Headers) :
    SilentProgram (profile ext cfg name headers) (fun _ _ => True) [] := by
  unfold profile
  refine (allowRead_silent cfg (clientIp headers) []).quiet_bind
    (fun _ _ silent => silent) fun new allowed _ _ => ?_
  split
  · trivial
  dsimp only
  split
  · trivial
  refine every_perform_bind.mpr ⟨rfl, fun owner => ?_⟩
  split <;> trivial

theorem byPubkey_silent (pubkey : String) (headers : Headers) :
    SilentProgram (byPubkey ext cfg pubkey headers) (fun _ _ => True) [] := by
  unfold byPubkey
  refine (allowRead_silent cfg (clientIp headers) []).quiet_bind
    (fun _ _ silent => silent) fun new allowed _ _ => ?_
  split
  · trivial
  dsimp only
  split
  · trivial
  refine every_perform_bind.mpr ⟨rfl, fun name => ?_⟩
  split <;> trivial

theorem paidStatus_silent (pubkey : String) (headers : Headers) :
    SilentProgram (paidStatus ext cfg pubkey headers) (fun _ _ => True) [] := by
  unfold paidStatus
  refine (allowRead_silent cfg (clientIp headers) []).quiet_bind
    (fun _ _ silent => silent) fun new allowed _ _ => ?_
  split
  · trivial
  dsimp only
  split
  · trivial
  split
  · trivial
  refine every_perform_bind.mpr ⟨rfl, fun grant => ?_⟩
  split
  · trivial
  split
  · trivial
  refine (ensurePaid_silent cfg _ "write" _).quiet_bind
    (fun _ _ silent => silent) fun new outcome _ _ => ?_
  split <;> trivial

theorem quote_silent (headers : Headers) (body : Bytes) :
    SilentProgram (quote ext cfg headers body) (fun _ _ => True) [] := by
  unfold quote
  refine (authorize_silent ext cfg "quote" headers .post _ body
    []).quiet_bind (fun _ _ silent => silent) fun past result _ _ => ?_
  rcases result with refusal | authPubkey
  · trivial
  dsimp only
  split
  · split
    · trivial
    refine (ensurePaid_silent cfg authPubkey _ _).quiet_bind
      (fun _ _ silent => silent) fun new outcome _ _ => ?_
    split <;> trivial
  · trivial

theorem confirmInvoice_silent (invoiceId : String) (past : History) :
    SilentProgram (confirmInvoice cfg invoiceId) (fun _ _ => True) past := by
  unfold confirmInvoice
  split
  · trivial
  refine every_perform_bind.mpr ⟨rfl, fun answer => ?_⟩
  split <;> trivial

theorem goblinpayWebhook_silent (signature : Option String) (body : Bytes) :
    SilentProgram (goblinpayWebhook ext cfg signature body)
      (fun _ _ => True) [] := by
  unfold goblinpayWebhook
  split
  · split
    · trivial
    split
    · split
      · refine every_perform_bind.mpr ⟨rfl, fun grant => ?_⟩
        split
        · trivial
        dsimp only
        split
        · refine (confirmInvoice_silent cfg _ _).quiet_bind
            (fun _ _ silent => silent) fun new confirmed _ _ => ?_
          split
          · exact every_perform_bind.mpr ⟨rfl, fun _ => trivial⟩
          · trivial
        · trivial
      · trivial
    · trivial
  · trivial

/-! ## All endpoints -/

theorem transferRoute_leads {request : Request} {handler : Handler Response}
    (leads : handler.Every (Leads ext cfg request) (Answered ext cfg request)
      []) :
    (transferRoute cfg handler).Every (Leads ext cfg request)
      (Answered ext cfg request) [] := by
  unfold transferRoute
  split
  · exact leads
  · exact answered_of_keeps ext cfg (fun _ member => nomatch member) nofun

theorem routes_leads (request : Request) :
    (routes ext cfg request).Every (Leads ext cfg request)
      (Answered ext cfg request) [] := by
  have ofSilent : ∀ {handler : Handler Response},
      SilentProgram handler (fun _ _ => True) [] →
      (∀ past response, Answered ext cfg request past response) →
        handler.Every (Leads ext cfg request) (Answered ext cfg request) [] :=
    fun silent answered => silent.mono (fun _ _ _ silent => .silent silent)
      fun past response _ _ => answered past response
  cases request with
  | wellKnown name headers =>
      exact ofSilent (wellKnown_silent ext cfg name headers)
        fun _ _ => trivial
  | availability name headers =>
      exact ofSilent (availability_silent ext cfg name headers)
        fun _ _ => trivial
  | register headers body => exact register_leads ext cfg headers body
  | unregister name headers => exact unregister_leads ext cfg name headers
  | profile name headers =>
      exact ofSilent (profile_silent ext cfg name headers) fun _ _ => trivial
  | byPubkey pubkey headers =>
      exact ofSilent (byPubkey_silent ext cfg pubkey headers)
        fun _ _ => trivial
  | paidStatus pubkey headers =>
      exact ofSilent (paidStatus_silent ext cfg pubkey headers)
        fun _ _ => trivial
  | quote headers body =>
      exact ofSilent (quote_silent ext cfg headers body) fun _ _ => trivial
  | goblinpayWebhook signature body =>
      exact ofSilent (goblinpayWebhook_silent ext cfg signature body)
        fun _ _ => trivial
  | lodgeOffer headers body =>
      exact transferRoute_leads ext cfg (lodgeOffer_leads ext cfg headers body)
  | readOffer offerId headers =>
      exact transferRoute_leads ext cfg
        (readOffer_leads ext cfg offerId headers)
  | revokeOffer offerId headers =>
      exact transferRoute_leads ext cfg
        (revokeOffer_leads ext cfg offerId headers)
  | claim headers body =>
      exact transferRoute_leads ext cfg (claim_leads ext cfg headers body)

end Floonet
