import Floonet.Amounts
import Floonet.PaidGrants
import Floonet.Restarts

/-!
# Demands for payment

What a response 402 asks for.  The invoice it names is one that the payment
backend created for the key that signed the request, for the resource and for
the price in the configuration, in this life of the process or an earlier one.
-/

namespace Floonet

open Concurrent MachineInt Program System

/-- The price of a resource. -/
def Config.price (cfg : Config) (resource : String) : Nat :=
  ((Paywall.fromConfig cfg).map (·.priceNanogrin resource)).getD 0

/-- What a client is asked to pay. -/
structure Demand where
  invoiceId : String
  payUrl : String
  price : Nat

def Invoice.demand (invoice : Invoice) (price : Nat) : Demand :=
  ⟨invoice.id, invoice.payUrl, price⟩

def Grant.demand (grant : Grant) : Demand :=
  ⟨grant.invoiceId, grant.payUrl, asU64 grant.amountNanogrin⟩

def Demand.response (demand : Demand) (resource : String) : Response :=
  paymentRequired resource demand.invoiceId demand.payUrl demand.price

/-- The requests that may be asked for a payment. -/
def Request.buys : Request → Bool
  | .register _ _ | .quote _ _ => true
  | _ => false

variable (ext : Extern) (cfg : Config)

/-! ## Histories -/

/-- The backend created the invoice for this key, resource and price. -/
def History.CreatedAt (past : History) (pubkey resource : String) (price : Nat)
    (invoice : Invoice) : Prop :=
  ∃ memo, past.Saw (.createInvoice (orderRef pubkey resource) price memo)
    (.ok invoice)

/-- The demand is that of a grant that was read, or of a new invoice. -/
def History.Demands (past : History) (pubkey resource : String)
    (demand : Demand) : Prop :=
  (∃ grant, past.Saw (.db (.grant pubkey resource)) (some grant) ∧
    demand = grant.demand) ∨
  ∃ invoice, past.CreatedAt pubkey resource (cfg.price resource) invoice ∧
    demand = invoice.demand (cfg.price resource)

/-- An invoice is recorded with the price it was created for. -/
def Op.Priced (past : History) : Op → Prop
  | .db (.putPendingGrant pubkey resource invoice amount) =>
      past.CreatedAt pubkey resource amount invoice ∧
        amount = cfg.price resource
  | _ => True

/-- A demand of the response to a request. -/
def Demanded (request : Request) (past : History) (response : Response) :
    Prop :=
  request.buys = true → response.status = .paymentRequired →
    ∃ pubkey resource demand, request.signer = some pubkey ∧
      sellable cfg resource = true ∧ response = demand.response resource ∧
        past.Demands cfg pubkey resource demand

theorem Op.priced_of_free {past : History} {op : Op}
    (free : op.charges = false) : op.Priced cfg past := by
  cases op with
  | db op =>
      cases op with
      | putPendingGrant => cases free
      | _ => trivial
  | _ => trivial

theorem demanded_of_status {request : Request} {past : History}
    {response : Response} (other : response.status ≠ .paymentRequired) :
    Demanded cfg request past response :=
  fun _ asks => absurd asks other

/-! ## Making sure of a payment -/

/-- The outcome asks for nothing but what the history bears out. -/
def PaidOutcome.Bears (outcome : PaidOutcome) (past : History)
    (pubkey resource : String) : Prop :=
  ∀ invoiceId payUrl price, outcome = .due invoiceId payUrl price →
    past.Demands cfg pubkey resource ⟨invoiceId, payUrl, price⟩

section Ensure

variable {past : History} {pubkey resource : String}

theorem newGrant_bears :
    (newGrant cfg pubkey resource (cfg.price resource)).Every
      (fun past op => op.Priced cfg past)
      (fun past outcome => outcome.Bears cfg past pubkey resource) past := by
  unfold newGrant
  refine every_perform_bind.mpr ⟨trivial, fun answer => ?_⟩
  split
  · rename_i invoice
    have created := History.saw_last past
      (.createInvoice (orderRef pubkey resource) (cfg.price resource)
        s!"Floonet {resource} ({cfg.domain})") (.ok invoice)
    refine every_perform_bind.mpr ⟨⟨⟨_, created⟩, rfl⟩, fun done => ?_⟩
    rintro invoiceId payUrl price ⟨⟩
    exact .inr ⟨invoice, ⟨_, created.append _⟩, rfl⟩
  · exact nofun

theorem pollGrant_bears {grant : Grant}
    (read : past.Saw (.db (.grant pubkey resource)) (some grant)) :
    (pollGrant cfg grant pubkey resource (cfg.price resource)).Every
      (fun past op => op.Priced cfg past)
      (fun past outcome => outcome.Bears cfg past pubkey resource) past := by
  have due : ∀ {past' : History}, past <+: past' →
      (PaidOutcome.due grant.invoiceId grant.payUrl
        (asU64 grant.amountNanogrin)).Bears cfg past' pubkey resource := by
    rintro past' extended invoiceId payUrl price ⟨⟩
    exact .inl ⟨grant, extended.subset read, rfl⟩
  unfold pollGrant App.cooldownActive
  refine every_perform_bind.mpr ⟨trivial, fun now => ?_⟩
  refine every_perform_bind.mpr ⟨trivial, fun active => ?_⟩
  split
  · exact due (by simp)
  refine every_perform_bind.mpr ⟨trivial, fun recorded => ?_⟩
  refine every_perform_bind.mpr ⟨trivial, fun answer => ?_⟩
  split
  · split
    · exact every_perform_bind.mpr ⟨trivial, fun marked => nofun⟩
    · split
      · exact newGrant_bears cfg
      · exact due (by simp)
  · exact due (by simp)

theorem ensurePaid_bears :
    (ensurePaid cfg pubkey resource).Every (fun past op => op.Priced cfg past)
      (fun past outcome => outcome.Bears cfg past pubkey resource) past := by
  unfold ensurePaid
  split
  · exact nofun
  rename_i paywall isPaywall
  have price : paywall.priceNanogrin resource = cfg.price resource := by
    rw [Config.price, isPaywall]
    rfl
  rw [price]
  refine every_perform_bind.mpr ⟨trivial, fun found => ?_⟩
  split
  · exact newGrant_bears cfg
  · split
    · exact nofun
    · exact pollGrant_bears cfg (History.saw_last _ _ _)

end Ensure

/-! ## The endpoints -/

theorem authorize_priced {bucket : String} (known : bucket ∈ writeBuckets)
    (headers : Headers) (method : Method) (urlPath : String) (body : Bytes)
    (past : History) :
    (authorize ext cfg bucket headers method urlPath body).Every
      (fun past op => op.Priced cfg past)
      (fun _ result => match result with
        | .error refusal => refusal.TurnsAway
        | .ok pubkey => headers.signer = some pubkey) past := by
  have uses : (authorize ext cfg bucket headers method urlPath body).Uses
      (Op.Within cfg false headers.authEvent) :=
    authorize_uses ext cfg known headers method urlPath body
  refine ((authorize_silent ext cfg bucket headers method urlPath body
    past).and (uses past)).mono ?_ fun _ _ _ result => result.1
  rintro past op - ⟨-, within⟩
  apply Op.priced_of_free cfg
  cases charges : op.charges with
  | false => rfl
  | true => cases within.charged charges

theorem quote_demands (headers : Headers) (body : Bytes) :
    (quote ext cfg headers body).Every (fun past op => op.Priced cfg past)
      (Demanded cfg (.quote headers body)) [] := by
  unfold quote
  refine every_bind.mpr ((authorize_priced ext cfg (by decide) headers .post _
    body []).mono (fun _ _ _ priced => priced) fun past result _ signed => ?_)
  rcases result with refusal | authPubkey
  · exact demanded_of_status cfg (signed.status_ne nofun nofun)
  dsimp only
  split
  · rename_i resource _
    split
    · exact demanded_of_status cfg nofun
    rename_i isSold
    refine every_bind.mpr ((ensurePaid_bears cfg).mono
      (fun _ _ _ priced => priced) fun past' outcome _ bears => ?_)
    cases outcome with
    | paid => exact demanded_of_status cfg nofun
    | due invoiceId payUrl price =>
        exact fun _ _ => ⟨authPubkey, resource, ⟨invoiceId, payUrl, price⟩,
          signed, by simpa using isSold, rfl, bears _ _ _ rfl⟩
    | unavailable reason => exact demanded_of_status cfg nofun
  · exact demanded_of_status cfg nofun

theorem acquireName_demands {headers : Headers} {body : Bytes}
    {authPubkey name : String} {past : History} :
    (acquireName cfg authPubkey name authPubkey).Every
      (fun past op => op.Priced cfg past)
      (Demanded cfg (.register headers body)) past := by
  unfold acquireName
  refine every_perform_bind.mpr ⟨trivial, fun answer => ?_⟩
  rcases answer with error | count
  · cases error with
    | constraintViolation => exact demanded_of_status cfg nofun
    | other => exact demanded_of_status cfg nofun
  · cases count with
    | zero => exact demanded_of_status cfg nofun
    | succ count =>
        dsimp only
        split
        · exact every_perform_bind.mpr ⟨trivial, fun done =>
            demanded_of_status cfg nofun⟩
        · exact demanded_of_status cfg nofun

theorem registerPayment_demands (headers : Headers) (body : Bytes)
    {authPubkey : String} (signed : headers.signer = some authPubkey)
    (past : History) :
    (registerPayment cfg authPubkey).Every (fun past op => op.Priced cfg past)
      (fun past payment => ∀ refusal, payment = some refusal →
        Demanded cfg (.register headers body) past refusal) past := by
  unfold registerPayment
  split
  · exact nofun
  rename_i mode
  have mode := not_not.mp mode
  refine every_bind.mpr ((ensurePaid_bears cfg).mono
    (fun _ _ _ priced => priced) fun past' outcome _ bears => ?_)
  cases outcome with
  | paid => exact nofun
  | due invoiceId payUrl price =>
      rintro refusal ⟨⟩ - -
      exact ⟨authPubkey, "name", ⟨invoiceId, payUrl, price⟩, signed,
        by simp [sellable, mode], rfl, bears _ _ _ rfl⟩
  | unavailable reason =>
      rintro refusal ⟨⟩
      exact demanded_of_status cfg nofun

theorem registerName_demands {headers : Headers} {body : Bytes}
    {authPubkey name : String} (signed : headers.signer = some authPubkey)
    (past : History) :
    (registerName cfg authPubkey name authPubkey).Every
      (fun past op => op.Priced cfg past)
      (Demanded cfg (.register headers body)) past := by
  unfold registerName
  refine every_perform_bind.mpr ⟨trivial, fun owner => ?_⟩
  split
  · split
    · exact demanded_of_status cfg nofun
    · exact demanded_of_status cfg nofun
  refine every_perform_bind.mpr ⟨trivial, fun existing => ?_⟩
  split
  · exact demanded_of_status cfg nofun
  refine every_bind.mpr ((registerPayment_demands cfg headers body signed
    _).mono
    (fun _ _ _ priced => priced) fun past' payment _ demands => ?_)
  cases payment with
  | some refusal => exact demands refusal rfl
  | none => exact acquireName_demands cfg

theorem register_demands (headers : Headers) (body : Bytes) :
    (register ext cfg headers body).Every (fun past op => op.Priced cfg past)
      (Demanded cfg (.register headers body)) [] := by
  unfold register App.cooldownActive
  refine every_bind.mpr ((authorize_priced ext cfg (by decide) headers .post _
    body []).mono (fun _ _ _ priced => priced) fun past result _ signed => ?_)
  rcases result with refusal | authPubkey
  · exact demanded_of_status cfg (signed.status_ne nofun nofun)
  refine every_perform_bind.mpr ⟨trivial, fun now => ?_⟩
  refine every_perform_bind.mpr ⟨trivial, fun active => ?_⟩
  split
  · exact demanded_of_status cfg nofun
  split
  · rename_i refusal refused
    exact demanded_of_status cfg (registerRequest_refuses ext cfg
      .paymentRequired nofun nofun nofun authPubkey body refusal refused)
  · rename_i name pubkey accepted
    rw [registerRequest_pubkey ext cfg accepted]
    exact registerName_demands cfg signed _

/-- The status makes sure of a payment, and asks for none. -/
theorem paidStatus_priced (raw : String) (headers : Headers) (past : History) :
    (paidStatus ext cfg raw headers).Every (fun past op => op.Priced cfg past)
      (fun _ _ => True) past := by
  unfold paidStatus App.allowRead App.allow
  refine every_perform_bind.mpr ⟨trivial, fun now => ?_⟩
  refine every_perform_bind.mpr ⟨trivial, fun allowed => ?_⟩
  split
  · trivial
  dsimp only
  split
  · trivial
  split
  · trivial
  refine every_perform_bind.mpr ⟨trivial, fun found => ?_⟩
  split
  · trivial
  split
  · trivial
  refine every_bind.mpr ((ensurePaid_bears cfg).mono
    (fun _ _ _ priced => priced) fun past' outcome _ _ => ?_)
  split <;> trivial

/-- The webhook confirms invoices and records none. -/
theorem goblinpayWebhook_priced (signature : Option String) (body : Bytes)
    (past : History) :
    (goblinpayWebhook ext cfg signature body).Every
      (fun past op => op.Priced cfg past) (fun _ _ => True) past := by
  have confirms : ∀ (invoiceId : String) (past : History),
      (confirmInvoice cfg invoiceId).Every (fun past op => op.Priced cfg past)
        (fun _ _ => True) past := by
    intro invoiceId past
    unfold confirmInvoice
    split
    · exact True.intro
    refine every_perform_bind.mpr ⟨True.intro, fun answer => ?_⟩
    split <;> exact True.intro
  unfold goblinpayWebhook
  split
  · split
    · exact True.intro
    split
    · split
      · refine every_perform_bind.mpr ⟨True.intro, fun found => ?_⟩
        split
        · exact True.intro
        dsimp only
        split
        · refine every_bind.mpr ((confirms _ _).mono
            (fun _ _ _ priced => priced) fun past' confirmed _ _ => ?_)
          split
          · exact every_perform_bind.mpr ⟨True.intro, fun _ => True.intro⟩
          · exact True.intro
        · exact True.intro
      · exact True.intro
    · exact True.intro
  · exact True.intro

theorem routes_demands (request : Request) :
    (routes ext cfg request).Every (fun past op => op.Priced cfg past)
      (Demanded cfg request) [] := by
  have ofFree : request.charges = false → (routes ext cfg request).Every
      (fun past op => op.Priced cfg past) (Demanded cfg request) [] := by
    intro free
    refine (routes_uses ext cfg request []).mono ?_ ?_
    · intro past op _ within
      apply Op.priced_of_free cfg
      cases charges : op.charges with
      | false => rfl
      | true =>
          have paying := within.charged charges
          rw [free] at paying
          cases paying
    · intro past response _ _ buys
      cases request with
      | register | quote => cases free
      | _ => cases buys
  cases request with
  | register headers body => exact register_demands ext cfg headers body
  | quote headers body => exact quote_demands ext cfg headers body
  | paidStatus raw headers =>
      exact (paidStatus_priced ext cfg raw headers []).mono
        (fun _ _ _ priced => priced) fun _ _ _ _ => nofun
  | goblinpayWebhook signature body =>
      exact (goblinpayWebhook_priced ext cfg signature body []).mono
        (fun _ _ _ priced => priced) fun _ _ _ _ => nofun
  | _ => exact ofFree rfl

/-! ## Every run -/

variable {ext cfg}
  {permitted : Permission World Request Op Op.Ans Response}
  {pool later : FloonetPool} {thread : FloonetThread}
  {label : Label World Request Op Op.Ans}

/-- The backend created an invoice for this key, resource and price. -/
def InvoiceMade (pool : FloonetPool) (pubkey resource : String) (price : Nat)
    (invoice : Invoice) : Prop :=
  ∃ maker ∈ pool.threads,
    History.CreatedAt maker.events pubkey resource price invoice

/-- The grant is for an invoice at the price of the resource. -/
def Grant.Invoiced (cfg : Config) (grant : Grant) (pool : FloonetPool)
    (pubkey resource : String) : Prop :=
  ∃ invoice, InvoiceMade pool pubkey resource (cfg.price resource) invoice ∧
    grant.invoiceId = invoice.id ∧ grant.payUrl = invoice.payUrl ∧
      grant.amountNanogrin = asI64 (cfg.price resource)

theorem InvoiceMade.mono (step : (durable ext cfg).Step pool label later)
    {pubkey resource : String} {price : Nat} {invoice : Invoice}
    (made : InvoiceMade pool pubkey resource price invoice) :
    InvoiceMade later pubkey resource price invoice := by
  obtain ⟨maker, member, memo, saw⟩ := made
  obtain ⟨maker', member', saw'⟩ := step.saw ⟨maker, member, saw⟩
  exact ⟨maker', member', memo, saw'⟩

theorem Grant.Invoiced.confirm {grant : Grant} {pubkey resource : String}
    (invoiced : grant.Invoiced cfg pool pubkey resource) (invoiceId : String)
    (now : Int) :
    (grant.confirm invoiceId now).Invoiced cfg pool pubkey resource := by
  unfold Grant.confirm
  split <;> exact invoiced

/-- Every grant that is stored or was read. -/
structure GrantsAre (fact : FloonetPool → String → String → Grant → Prop)
    (pool : FloonetPool) : Prop where
  stored : ∀ pubkey resource grant,
    pool.state.db.grant pubkey resource = some grant →
      fact pool pubkey resource grant
  read : ∀ pubkey resource grant,
    pool.Saw ⟨.db (.grant pubkey resource), some grant⟩ →
      fact pool pubkey resource grant

/-- A fact about grants that the steps of the requests establish. -/
structure GrantFact (ext : Extern) (cfg : Config)
    (fact : FloonetPool → String → String → Grant → Prop) : Prop where
  mono : ∀ {pool label later}, (durable ext cfg).Step pool label later →
    ∀ {pubkey resource grant}, fact pool pubkey resource grant →
      fact later pubkey resource grant
  recorded : ∀ {permitted pool}, (durable ext cfg).Reachable permitted pool →
    ∀ {thread}, thread ∈ pool.threads →
    ∀ {pubkey resource invoice amount next}, thread.program =
      .step (.db (.putPendingGrant pubkey resource invoice amount)) next →
    ∀ now, fact pool pubkey resource (Db.pendingGrant pubkey resource
      invoice.id invoice.payUrl (asI64 amount) now)
  confirmed : ∀ {permitted pool}, (durable ext cfg).Reachable permitted pool →
    ∀ {thread}, thread ∈ pool.threads →
    ∀ {invoiceId next},
      thread.program = .step (.db (.markGrantPaid invoiceId)) next →
    ∀ {pubkey resource grant}, fact pool pubkey resource grant →
      ∀ now, fact pool pubkey resource (grant.confirm invoiceId now)

namespace GrantFact

variable {fact : FloonetPool → String → String → Grant → Prop}

theorem stored_step (isFact : GrantFact ext cfg fact) {index : Nat} {op : Op}
    {next : op.Ans → Handler Response} (env : Env)
    (grants : GrantsAre fact pool)
    (reachable : (durable ext cfg).Reachable permitted pool)
    (found : pool.threads[index]? = some thread)
    (pending : thread.program = .step op next)
    (step : (durable ext cfg).Step pool
      (.act index ((durable ext cfg).taken env op pool.state)) later)
    {pubkey resource : String} {grant : Grant}
    (stored : (op.exec env pool.state).2.db.grant pubkey resource =
      some grant) : fact later pubkey resource grant := by
  have member := List.mem_of_getElem? found
  cases op.exec_grants env pool.state with
  | kept _ same =>
      rw [same] at stored
      exact isFact.mono step (grants.stored pubkey resource grant stored)
  | recorded put =>
      rw [put] at stored
      dsimp only at stored
      split at stored
      · rename_i isKey
        obtain ⟨rfl, rfl⟩ := isKey
        cases stored
        exact isFact.mono step (isFact.recorded reachable member pending _)
      · exact isFact.mono step (grants.stored pubkey resource grant stored)
  | confirmed marked =>
      rw [marked] at stored
      obtain ⟨old, oldStored, rfl⟩ := Option.map_eq_some_iff.mp stored
      exact isFact.mono step (isFact.confirmed reachable member pending
        (grants.stored pubkey resource old oldStored) _)
  | consumed deleted =>
      rw [deleted] at stored
      dsimp only at stored
      split at stored
      · cases stored
      · exact isFact.mono step (grants.stored pubkey resource grant stored)

theorem run (isFact : GrantFact ext cfg fact)
    (reachable : (durable ext cfg).Reachable permitted pool) :
    GrantsAre fact pool := by
  refine Reachable.induct (motive := GrantsAre fact) ?start ?step reachable
  case start =>
    intro world initial
    constructor
    · intro pubkey resource grant stored
      dsimp only at stored
      rw [initial.db] at stored
      cases stored
    · rintro pubkey resource grant ⟨thread, member, -⟩
      cases member
  case step =>
    intro pool label later before grants step allowed
    constructor
    · intro pubkey resource grant stored
      cases step with
      | arrive request =>
          exact isFact.mono (.arrive pool request)
            (grants.stored pubkey resource grant stored)
      | tick incident =>
          refine isFact.mono (.tick pool incident)
            (grants.stored pubkey resource grant ?_)
          rw [← World.meets_db incident pool.state]
          exact stored
      | act env isThread pending =>
          exact isFact.stored_step env grants before isThread pending
            (.act env isThread pending) stored
    · intro pubkey resource grant saw
      rcases (step.saw_iff _).mp saw with old | ⟨index, taken, rfl, isRead⟩
      · exact isFact.mono step (grants.read pubkey resource grant old)
      · cases step with
        | act env isThread pending =>
            obtain ⟨rfl, answer⟩ := taken_eq isRead
            exact isFact.mono (.act env isThread pending)
              (grants.stored pubkey resource grant answer.symm)

end GrantFact

theorem grantFact_invoiced : GrantFact ext cfg
    fun pool pubkey resource grant =>
      grant.Invoiced cfg pool pubkey resource where
  mono := by
    rintro pool label later step pubkey resource grant ⟨invoice, made, terms⟩
    exact ⟨invoice, made.mono step, terms⟩
  recorded := by
    intro permitted pool reachable thread member pubkey resource invoice amount
      next pending now
    have priced := reachable.every (routes_demands ext cfg) member
    rw [pending] at priced
    obtain ⟨created, rfl⟩ := priced.1
    exact ⟨invoice, ⟨thread, member, created⟩, rfl, rfl, rfl⟩
  confirmed := by
    intro permitted pool reachable thread member invoiceId next pending pubkey
      resource grant invoiced now
    exact invoiced.confirm invoiceId now

section Schedules

open Sample

/-- The thread ended with a demand for a payment. -/
def isAsked (thread : FloonetThread) : Bool :=
  match thread.program with
  | .done response =>
      thread.request.buys && decide (response.status = .paymentRequired)
  | _ => false

theorem payingConfig_small (resource : String) :
    payingConfig.price resource < 2 ^ 64 := by
  have price : payingConfig.price resource =
      if resource = "name" then payingConfig.namePriceNanogrin
      else if resource = "write" then payingConfig.writePriceNanogrin
      else 0 := rfl
  rw [price]
  split
  · decide
  · split <;> decide

end Schedules

end Floonet
