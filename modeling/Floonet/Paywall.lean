import Floonet.Footprint
import Floonet.Grants
import Floonet.History

/-!
# What the paid layer has learnt before it writes

`Pays` lists, for the steps that write grants and for the registration of a
name, what the request has read of the grants and heard from the payment
backend before.  `Charged` says the same of the responses.
-/

namespace Floonet

open Concurrent Program

/-! ## Histories -/

/-- The latest answer to `op`. -/
def History.LastSaw (past : History) (op : Op) (answer : op.Ans) : Prop :=
  ∃ earlier later : History, past = earlier ++ ⟨op, answer⟩ :: later ∧
    ∀ event ∈ later, event.op ≠ op

namespace History.LastSaw

variable {past : History} {op : Op} {answer : op.Ans}

theorem saw (last : past.LastSaw op answer) : past.Saw op answer := by
  obtain ⟨earlier, later, rfl, -⟩ := last
  exact List.mem_append_right _ List.mem_cons_self

theorem append (last : past.LastSaw op answer) {new : History}
    (others : ∀ event ∈ new, event.op ≠ op) :
    History.LastSaw (past ++ new) op answer := by
  obtain ⟨earlier, later, rfl, none⟩ := last
  refine ⟨earlier, later ++ new, by simp, fun event member => ?_⟩
  rcases List.mem_append.mp member with old | fresh
  · exact none event old
  · exact others event fresh

theorem skip (last : past.LastSaw op answer) (other : Op)
    (answer' : other.Ans) (different : other ≠ op) :
    History.LastSaw (past ++ [⟨other, answer'⟩]) op answer :=
  last.append fun event member => by
    rw [List.mem_singleton.mp member]
    exact different

theorem snoc (past : History) (op : Op) (answer : op.Ans) :
    History.LastSaw (past ++ [⟨op, answer⟩]) op answer :=
  ⟨past, [], rfl, fun _ member => nomatch member⟩

theorem unique {answer' : op.Ans} (last : past.LastSaw op answer)
    (last' : past.LastSaw op answer') : answer = answer' := by
  obtain ⟨earlier, later, rfl, none⟩ := last
  obtain ⟨earlier', later', same, none'⟩ := last'
  rcases List.append_eq_append_iff.mp same with
    ⟨middle, -, rest⟩ | ⟨middle, -, rest⟩
  · cases middle with
    | nil =>
        cases rest
        rfl
    | cons head middle =>
        cases rest
        exact absurd rfl (none _ (List.mem_append_right _ List.mem_cons_self))
  · cases middle with
    | nil =>
        cases rest
        rfl
    | cons head middle =>
        cases rest
        exact absurd rfl (none' _ (List.mem_append_right _ List.mem_cons_self))

end History.LastSaw

/-- The reference under which invoices of a key and a resource are created. -/
def orderRef (pubkey resource : String) : String :=
  s!"floonet-{resource}:{pubkey}"

namespace History

variable (past : History) (pubkey resource : String)

/-- The backend created the invoice for this key and resource. -/
def Created (invoice : Invoice) : Prop :=
  ∃ price memo, past.Saw
    (.createInvoice (orderRef pubkey resource) price memo) (.ok invoice)

/-- The backend has just created the invoice. -/
def JustCreated (invoice : Invoice) : Prop :=
  ∃ price memo, past.EndsWith
    (.createInvoice (orderRef pubkey resource) price memo) (.ok invoice)

/-- The backend was asked about the invoice and answered `status`. -/
def Reported (invoiceId status : String) : Prop :=
  past.Saw (.invoiceStatus invoiceId) (.ok status)

/-- The request found the grant paid, or heard that its invoice is. -/
def Admitted : Prop :=
  ∃ grant, past.Saw (.db (.grant pubkey resource)) (some grant) ∧
    (grant.status = .paid ∨ past.Reported grant.invoiceId "paid")

/-- A new invoice may be recorded: there was no grant, or its invoice had
expired. -/
def Rolls : Prop :=
  past.LastSaw (.db (.grant pubkey resource)) none ∨
    ∃ grant, past.LastSaw (.db (.grant pubkey resource)) (some grant) ∧
      grant.status ≠ .paid ∧ past.Reported grant.invoiceId "expired"

/-- The request read or recorded the invoice in the grant. -/
def Quoted (invoiceId : String) : Prop :=
  (∃ grant, past.Saw (.db (.grant pubkey resource)) (some grant) ∧
      grant.invoiceId = invoiceId) ∨
    ∃ invoice price,
      past.Saw (.db (.putPendingGrant pubkey resource invoice price)) () ∧
        invoice.id = invoiceId

variable {past pubkey resource}

theorem JustCreated.created {invoice : Invoice}
    (created : past.JustCreated pubkey resource invoice) :
    past.Created pubkey resource invoice := by
  obtain ⟨price, memo, earlier, rfl⟩ := created
  exact ⟨price, memo, saw_last _ _ _⟩

theorem Rolls.skip (rolls : past.Rolls pubkey resource) (other : Op)
    (answer : other.Ans) (different : other ≠ .db (.grant pubkey resource)) :
    History.Rolls (past ++ [⟨other, answer⟩]) pubkey resource := by
  rcases rolls with none | ⟨grant, last, unpaid, expired⟩
  · exact .inl (none.skip other answer different)
  · exact .inr ⟨grant, last.skip other answer different, unpaid,
      Saw.append expired _⟩

end History

/-! ## Steps and responses of the paid layer -/

/-- Steps that neither write grants nor register a name. -/
def Op.uncharged : Op → Bool
  | .db (.putPendingGrant _ _ _ _) => false
  | .db (.markGrantPaid _) => false
  | .db (.consumeGrant _ _) => false
  | .db (.insertName _ _) => false
  | _ => true

variable (ext : Extern) (cfg : Config)

/-- `Pays request past op`: a thread that serves `request` and has received
the answers `past` may perform `op` next. -/
inductive Pays : Request → History → Op → Prop where
  | uncharged {request : Request} {past : History} {op : Op}
      (uncharged : op.uncharged = true) : Pays request past op
  | record {request : Request} {past : History} {pubkey resource : String}
      {invoice : Invoice} {price : Nat}
      (created : past.JustCreated pubkey resource invoice)
      (rolls : past.Rolls pubkey resource) :
      Pays request past
        (.db (.putPendingGrant pubkey resource invoice price))
  | confirm {request : Request} {past : History} {invoiceId : String}
      (reported : past.Reported invoiceId "paid") :
      Pays request past (.db (.markGrantPaid invoiceId))
  | acquire {headers : Headers} {body : Bytes} {past : History}
      {authPubkey name : String}
      (signed : headers.signer = some authPubkey)
      (admitted : cfg.payMode = .name → past.Admitted authPubkey "name") :
      Pays (.register headers body) past
        (.db (.insertName name authPubkey))
  | consume {headers : Headers} {body : Bytes} {past : History}
      {authPubkey : String} (signed : headers.signer = some authPubkey) :
      Pays (.register headers body) past
        (.db (.consumeGrant authPubkey "name"))

/-- A response that asks for a payment names an invoice that the request has
read or recorded. -/
def Asks (headers : Headers) (past : History) (response : Response) : Prop :=
  response.status = .paymentRequired →
    ∃ pubkey resource invoiceId payUrl price, headers.signer = some pubkey ∧
      response = paymentRequired resource invoiceId payUrl price ∧
        past.Quoted pubkey resource invoiceId

/-- What the response says about the grants. -/
def Charged : Request → History → Response → Prop
  | .register headers _, past, response =>
      Asks headers past response ∧
      (cfg.payMode = .name → ∀ pubkey name count,
        headers.signer = some pubkey →
          past.Saw (.db (.insertName name pubkey)) (.ok (count + 1)) →
            past.EndsWith (.db (.consumeGrant pubkey "name")) ())
  | .quote headers _, past, response => Asks headers past response
  | .paidStatus _ _, past, response => ∀ pubkey, cfg.payMode = .write →
      response = paidBody pubkey true → past.Admitted pubkey "write"
  | _, _, _ => True

/-! ## Making sure of a payment -/

/-- What an outcome says about the history. -/
def PaidOutcome.Holds (outcome : PaidOutcome) (past : History)
    (pubkey resource : String) : Prop :=
  match outcome with
  | .paid => cfg.payMode ≠ .off → past.Admitted pubkey resource
  | .due invoiceId _ _ => past.Quoted pubkey resource invoiceId
  | .unavailable _ => True

section Ensure

variable {request : Request} {past : History} {pubkey resource : String}
  {price : Nat}

theorem newGrant_pays (rolls : past.Rolls pubkey resource) :
    (newGrant cfg pubkey resource price).Every (Pays cfg request)
      (fun past' outcome => outcome.Holds cfg past' pubkey resource) past := by
  unfold newGrant
  refine every_perform_bind.mpr ⟨.uncharged rfl, fun answer => ?_⟩
  replace rolls := rolls.skip (.createInvoice (orderRef pubkey resource) price
    s!"Floonet {resource} ({cfg.domain})") answer nofun
  split
  · rename_i invoice
    refine every_perform_bind.mpr
      ⟨.record ⟨price, _, past, rfl⟩ rolls, fun answer => ?_⟩
    exact .inr ⟨invoice, price, History.saw_last _ _ _, rfl⟩
  · trivial

theorem pollGrant_pays {grant : Grant}
    (read : past.LastSaw (.db (.grant pubkey resource)) (some grant))
    (unpaid : grant.status ≠ .paid) :
    (pollGrant cfg grant pubkey resource price).Every (Pays cfg request)
      (fun past' outcome => outcome.Holds cfg past' pubkey resource) past := by
  unfold pollGrant App.cooldownActive
  have quoted : ∀ {past' : History},
      past'.LastSaw (.db (.grant pubkey resource)) (some grant) →
        past'.Quoted pubkey resource grant.invoiceId :=
    fun read => .inl ⟨grant, read.saw, rfl⟩
  refine every_perform_bind.mpr ⟨.uncharged rfl, fun now => ?_⟩
  replace read := read.skip .instantNow now nofun
  refine every_perform_bind.mpr ⟨.uncharged rfl, fun active => ?_⟩
  replace read := read.skip (.cooldownActive _ _ _ _) active nofun
  split
  · exact quoted read
  refine every_perform_bind.mpr ⟨.uncharged rfl, fun recorded => ?_⟩
  replace read := read.skip (.recordOp _ _) recorded nofun
  refine every_perform_bind.mpr ⟨.uncharged rfl, fun answer => ?_⟩
  replace read := read.skip (.invoiceStatus _) answer nofun
  split
  · split
    · rename_i isPaid
      subst isPaid
      refine every_perform_bind.mpr
        ⟨.confirm (History.saw_last _ _ _), fun marked _ => ?_⟩
      exact ⟨grant, read.saw.append _,
        .inr ((History.saw_last _ _ _).append _)⟩
    · split
      · rename_i isExpired
        subst isExpired
        exact newGrant_pays cfg
          (.inr ⟨grant, read, unpaid, History.saw_last _ _ _⟩)
      · exact quoted read
  · exact quoted read

theorem ensurePaid_pays :
    (ensurePaid cfg pubkey resource).Every (Pays cfg request)
      (fun past' outcome => outcome.Holds cfg past' pubkey resource) past := by
  unfold ensurePaid
  split
  · rename_i free
    intro priced
    simp [Paywall.fromConfig, priced] at free
  refine every_perform_bind.mpr ⟨.uncharged rfl, fun found => ?_⟩
  have read := History.LastSaw.snoc past (.db (.grant pubkey resource)) found
  split
  · exact newGrant_pays cfg (.inl read)
  · rename_i grant
    split
    · rename_i isPaid
      exact fun _ => ⟨grant, read.saw, .inl isPaid⟩
    · rename_i unpaid
      exact pollGrant_pays cfg read unpaid

end Ensure

/-! ## The paying endpoints -/

theorem asks_of_status {headers : Headers} {past : History}
    {response : Response} (other : response.status ≠ .paymentRequired) :
    Asks headers past response :=
  fun asks => absurd asks other

theorem asks_of_quoted {headers : Headers} {past : History}
    {authPubkey resource invoiceId payUrl : String} {price : Nat}
    (signed : headers.signer = some authPubkey)
    (quoted : past.Quoted authPubkey resource invoiceId) :
    Asks headers past (paymentRequired resource invoiceId payUrl price) :=
  fun _ => ⟨authPubkey, resource, invoiceId, payUrl, price, signed, rfl, quoted⟩

theorem paymentRequired_inj {resource resource' invoiceId invoiceId' payUrl
      payUrl' : String} {price price' : Nat}
    (same : paymentRequired resource invoiceId payUrl price =
      paymentRequired resource' invoiceId' payUrl' price') :
    resource = resource' ∧ invoiceId = invoiceId' := by
  simp only [paymentRequired, paymentRequiredJson, Response.mk.injEq,
    Json.object.injEq, List.cons.injEq, Prod.mk.injEq, Json.string.injEq,
    true_and] at same
  exact ⟨same.1, same.2.1⟩

theorem authorize_pays {request : Request} {bucket : String}
    (known : bucket ∈ writeBuckets) (headers : Headers) (method : Method)
    (urlPath : String) (body : Bytes) :
    (authorize ext cfg bucket headers method urlPath body).Every
      (Pays cfg request)
      (fun _ result => match result with
        | .error refusal => refusal.TurnsAway
        | .ok pubkey => headers.signer = some pubkey) [] := by
  have uses : (authorize ext cfg bucket headers method urlPath body).Uses
      (Op.Within cfg false headers.authEvent) :=
    authorize_uses ext cfg known headers method urlPath body
  refine ((authorize_silent ext cfg bucket headers method urlPath body
    []).and (uses [])).mono ?_ fun _ _ _ result => result.1
  rintro past op - ⟨silent, within⟩
  have free := within.charged
  refine .uncharged ?_
  cases op with
  | db op =>
      cases op with
      | insertName => cases silent
      | putPendingGrant => cases free rfl
      | markGrantPaid => cases free rfl
      | consumeGrant => cases free rfl
      | _ => rfl
  | _ => rfl

theorem quote_pays (headers : Headers) (body : Bytes) :
    (quote ext cfg headers body).Every (Pays cfg (.quote headers body))
      (Charged cfg (.quote headers body)) [] := by
  unfold quote
  refine every_bind.mpr ((authorize_pays ext cfg (by decide) headers .post _
    body).mono (fun _ _ _ pays => pays) fun past result _ authorized => ?_)
  rcases result with refusal | authPubkey
  · exact asks_of_status (authorized.status_ne nofun nofun)
  dsimp only
  split
  · rename_i resource _
    split
    · exact asks_of_status nofun
    refine every_bind.mpr ((ensurePaid_pays cfg).mono
      (fun _ _ _ pays => pays) fun past' outcome _ holds => ?_)
    cases outcome with
    | paid => exact asks_of_status nofun
    | due invoiceId payUrl price => exact asks_of_quoted authorized holds
    | unavailable reason => exact asks_of_status nofun
  · exact asks_of_status nofun

theorem paidBody_inj {pubkey pubkey' : String} {paid paid' : Bool}
    (same : paidBody pubkey paid = paidBody pubkey' paid') :
    pubkey = pubkey' ∧ paid = paid' := by
  simpa [paidBody] using same

theorem paidStatus_pays (raw : String) (headers : Headers) :
    (paidStatus ext cfg raw headers).Every (Pays cfg (.paidStatus raw headers))
      (Charged cfg (.paidStatus raw headers)) [] := by
  have unpaid : ∀ {past : History} {response : Response},
      (∀ pubkey, response ≠ paidBody pubkey true) →
        Charged cfg (.paidStatus raw headers) past response :=
    fun other pubkey _ same => absurd same (other pubkey)
  have notPaid : ∀ pubkey pubkey', paidBody pubkey false ≠
      paidBody pubkey' true := by
    intro pubkey pubkey' same
    exact Bool.false_ne_true (paidBody_inj same).2
  unfold paidStatus App.allowRead App.allow
  refine every_perform_bind.mpr ⟨.uncharged rfl, fun now => ?_⟩
  refine every_perform_bind.mpr ⟨.uncharged rfl, fun allowed => ?_⟩
  split
  · exact unpaid nofun
  dsimp only
  split
  · exact unpaid nofun
  split
  · rename_i otherMode
    exact fun _ writes _ => absurd writes otherMode
  rename_i writes
  refine every_perform_bind.mpr ⟨.uncharged rfl, fun found => ?_⟩
  split
  · exact unpaid (notPaid _)
  rename_i grant
  split
  · rename_i isPaid
    intro pubkey _ same
    obtain ⟨rfl, -⟩ := paidBody_inj same
    exact ⟨grant, History.saw_last _ _ _, .inl isPaid⟩
  refine every_bind.mpr ((ensurePaid_pays cfg).mono
    (fun _ _ _ pays => pays) fun past outcome _ holds => ?_)
  cases outcome with
  | paid =>
      intro pubkey writes same
      obtain ⟨rfl, -⟩ := paidBody_inj same
      exact holds (by simp [writes])
  | due invoiceId payUrl price => exact unpaid (notPaid _)
  | unavailable reason => exact unpaid (notPaid _)

theorem confirmInvoice_pays {request : Request} (invoiceId : String)
    (past : History) :
    (confirmInvoice cfg invoiceId).Every (Pays cfg request)
      (fun past' confirmed => confirmed = true →
        History.Reported past' invoiceId "paid") past := by
  unfold confirmInvoice
  split
  · exact nofun
  refine every_perform_bind.mpr ⟨.uncharged rfl, fun answer => ?_⟩
  split
  · intro isPaid
    rw [← of_decide_eq_true isPaid]
    exact History.saw_last _ _ _
  · exact nofun

theorem goblinpayWebhook_pays (signature : Option String) (body : Bytes) :
    (goblinpayWebhook ext cfg signature body).Every
      (Pays cfg (.goblinpayWebhook signature body))
      (Charged cfg (.goblinpayWebhook signature body)) [] := by
  unfold goblinpayWebhook
  repeat' split
  all_goals try trivial
  refine every_perform_bind.mpr ⟨.uncharged rfl, fun found => ?_⟩
  split
  · trivial
  dsimp only
  split
  · refine every_bind.mpr ((confirmInvoice_pays cfg _ _).mono
      (fun _ _ _ pays => pays) fun past confirmed _ reported => ?_)
    split
    · rename_i isPaid
      exact every_perform_bind.mpr
        ⟨.confirm (reported isPaid), fun _ => trivial⟩
    · trivial
  · trivial

/-! ## Registration -/

theorem registerRequest_pubkey {authPubkey name pubkey : String}
    {body : Bytes}
    (accepted : registerRequest ext cfg authPubkey body =
      .ok (name, pubkey)) : pubkey = authPubkey := by
  simp only [registerRequest, Validation.bind_eq_ok, Validation.require_eq_ok,
    Validation.demand_eq_ok, Validation.pure_eq_ok] at accepted
  obtain ⟨req, -, -, -, -, isAuth, -, -, -, -, same⟩ := accepted
  cases same
  exact beq_iff_eq.mp isAuth

/-- No name was registered so far. -/
def History.Nameless (past : History) : Prop :=
  ∀ event ∈ past, ∀ name pubkey, event.op ≠ .db (.insertName name pubkey)

theorem History.Nameless.append {past : History} (nameless : past.Nameless)
    {new : History} (silent : ∀ event ∈ new, event.op.silent = true) :
    History.Nameless (past ++ new) := by
  intro event member name pubkey isInsert
  rcases List.mem_append.mp member with old | fresh
  · exact nameless event old name pubkey isInsert
  · have quiet := silent event fresh
    rw [isInsert] at quiet
    cases quiet

theorem History.Nameless.concat {past : History} (nameless : past.Nameless)
    (event : Concurrent.Event Op Op.Ans) (silent : event.op.silent = true) :
    History.Nameless (past ++ [event]) :=
  nameless.append (by simpa using silent)

section Register

variable {headers : Headers} {body : Bytes} {past : History}
  {authPubkey name : String}

/-- A response of a registration before it registers a name. -/
theorem charged_of_nameless {response : Response} (nameless : past.Nameless)
    (asks : Asks headers past response) :
    Charged cfg (.register headers body) past response := by
  refine ⟨asks, fun _ pubkey name count _ saw => ?_⟩
  exact absurd rfl (nameless _ saw name pubkey)

/-- A registration that did not go through. -/
theorem charged_of_refused {response : Response} (nameless : past.Nameless)
    {answer : Except SqlError Nat} (refused : ∀ count, answer ≠ .ok (count + 1))
    (asks : Asks headers
      (past ++ [⟨.db (.insertName name authPubkey), answer⟩]) response) :
    Charged cfg (.register headers body)
      (past ++ [⟨.db (.insertName name authPubkey), answer⟩]) response := by
  refine ⟨asks, fun _ pubkey other count _ saw => ?_⟩
  rcases List.mem_append.mp saw with old | new
  · exact absurd rfl (nameless _ old other pubkey)
  · have same := List.mem_singleton.mp new
    cases same
    exact absurd rfl (refused count)

theorem acquireName_pays (nameless : past.Nameless)
    (signed : headers.signer = some authPubkey)
    (admitted : cfg.payMode = .name → past.Admitted authPubkey "name") :
    (acquireName cfg authPubkey name authPubkey).Every
      (Pays cfg (.register headers body))
      (Charged cfg (.register headers body)) past := by
  unfold acquireName
  refine every_perform_bind.mpr ⟨.acquire signed admitted, fun answer => ?_⟩
  rcases answer with error | count
  · cases error with
    | constraintViolation =>
        exact charged_of_refused cfg nameless nofun (asks_of_status nofun)
    | other =>
        exact charged_of_refused cfg nameless nofun (asks_of_status nofun)
  cases count with
  | zero => exact charged_of_refused cfg nameless nofun (asks_of_status nofun)
  | succ count =>
      dsimp only
      split
      · refine every_perform_bind.mpr ⟨.consume signed, fun _ => ?_⟩
        refine ⟨asks_of_status nofun, fun _ pubkey _ _ signed' _ => ?_⟩
        rw [signed] at signed'
        cases signed'
        exact ⟨_, rfl⟩
      · rename_i otherMode
        exact ⟨asks_of_status nofun, fun mode => absurd mode otherMode⟩

theorem registerPayment_pays (signed : headers.signer = some authPubkey) :
    (registerPayment cfg authPubkey).Every (Pays cfg (.register headers body))
      (fun (past' : History) payment => match payment with
        | some refusal => Asks headers past' refusal
        | none => cfg.payMode = .name → past'.Admitted authPubkey "name")
      past := by
  unfold registerPayment
  split
  · rename_i otherMode
    exact fun mode => absurd mode otherMode
  rename_i mode
  refine every_bind.mpr ((ensurePaid_pays cfg).mono
    (fun _ _ _ pays => pays) fun past' outcome _ holds => ?_)
  cases outcome with
  | paid => exact fun mode => holds (by simp [mode])
  | due invoiceId payUrl price => exact asks_of_quoted signed holds
  | unavailable reason => exact asks_of_status nofun

end Register

theorem registerName_pays {headers : Headers} {body : Bytes}
    {past : History} {authPubkey name : String} (nameless : past.Nameless)
    (signed : headers.signer = some authPubkey) :
    (registerName cfg authPubkey name authPubkey).Every
      (Pays cfg (.register headers body))
      (Charged cfg (.register headers body)) past := by
  unfold registerName
  refine every_perform_bind.mpr ⟨.uncharged rfl, fun owner => ?_⟩
  replace nameless := nameless.concat ⟨.db (.lookup name), owner⟩ rfl
  split
  · split
    · exact charged_of_nameless cfg nameless (asks_of_status nofun)
    · exact charged_of_nameless cfg nameless (asks_of_status nofun)
  refine every_perform_bind.mpr ⟨.uncharged rfl, fun existing => ?_⟩
  replace nameless := nameless.concat ⟨.db (.nameOf authPubkey), existing⟩ rfl
  split
  · exact charged_of_nameless cfg nameless (asks_of_status nofun)
  refine every_bind.mpr (((registerPayment_silent cfg authPubkey _).grows.and
    (registerPayment_pays cfg signed)).mono
    (fun _ _ _ pays => pays.2) ?_)
  rintro past' payment - ⟨⟨⟨new, rfl, silent⟩, -⟩, pays⟩
  replace nameless := nameless.append silent
  cases payment with
  | some refusal => exact charged_of_nameless cfg nameless pays
  | none => exact acquireName_pays cfg nameless signed pays

theorem register_pays (headers : Headers) (body : Bytes) :
    (register ext cfg headers body).Every (Pays cfg (.register headers body))
      (Charged cfg (.register headers body)) [] := by
  unfold register App.cooldownActive
  refine every_bind.mpr (((authorize_silent ext cfg "reg" headers .post _ body
    []).grows.and (authorize_pays ext cfg (by decide) headers .post _
      body)).mono (fun _ _ _ pays => pays.2) ?_)
  rintro past result - ⟨⟨⟨new, isNew, silent⟩, authorized⟩, -⟩
  have nameless : History.Nameless past := by
    have empty : History.Nameless [] := by simp [History.Nameless]
    rw [isNew]
    exact empty.append silent
  rcases result with refusal | authPubkey
  · exact charged_of_nameless cfg nameless
      (asks_of_status (authorized.status_ne nofun nofun))
  refine every_perform_bind.mpr ⟨.uncharged rfl, fun now => ?_⟩
  replace nameless := nameless.concat ⟨.instantNow, now⟩ rfl
  refine every_perform_bind.mpr ⟨.uncharged rfl, fun active => ?_⟩
  replace nameless := nameless.concat ⟨.cooldownActive _ _ _ _, active⟩ rfl
  split
  · exact charged_of_nameless cfg nameless (asks_of_status nofun)
  split
  · rename_i refusal refused
    exact charged_of_nameless cfg nameless (asks_of_status
      (registerRequest_refuses ext cfg .paymentRequired nofun nofun nofun
        authPubkey body refusal refused))
  · rename_i name pubkey accepted
    rw [registerRequest_pubkey ext cfg accepted]
    exact registerName_pays cfg nameless authorized

/-! ## All endpoints -/

theorem routes_pays (request : Request) :
    (routes ext cfg request).Every (Pays cfg request) (Charged cfg request)
      [] := by
  have ofFree : request.charges = false →
      (∀ past response, Charged cfg request past response) →
        (routes ext cfg request).Every (Pays cfg request)
          (Charged cfg request) [] := by
    intro free charged
    refine ((routes_leads ext cfg request).and
      (routes_uses ext cfg request [])).mono ?_ fun past response _ _ =>
        charged past response
    rintro past op - ⟨leads, within⟩
    have charges := within.charged
    rw [free] at charges
    refine .uncharged ?_
    cases op with
    | db op =>
        cases op with
        | insertName =>
            cases leads with
            | silent silent => cases silent
            | register => cases free
        | putPendingGrant => cases charges rfl
        | markGrantPaid => cases charges rfl
        | consumeGrant => cases charges rfl
        | _ => rfl
    | _ => rfl
  cases request with
  | register headers body => exact register_pays ext cfg headers body
  | quote headers body => exact quote_pays ext cfg headers body
  | paidStatus raw headers => exact paidStatus_pays ext cfg raw headers
  | goblinpayWebhook signature body =>
      exact goblinpayWebhook_pays ext cfg signature body
  | _ => exact ofFree rfl fun _ _ => trivial

end Floonet
