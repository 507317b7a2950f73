import Floonet.Commits
import Floonet.Custody
import Floonet.Demands
import Floonet.Node
import Floonet.Concurrent.Expand

/-!
# Remote calls over HTTP

The server asks a Grin node and the payment backend over HTTP.  Everywhere
else a call is one step with any answer; here it is carried out by the requests
that the clients make, interleaved with everything the other threads do.  The
one server refines the other, so that what is known of grants and transfers
goes back to what the other side has said on the wire.
-/

namespace Floonet

open Concurrent Program System Text

/-! ## The client of the payment backend -/

/-- One request to the payment backend. -/
inductive PayOp where
  | post (url authorization : String) (body : Json)
  | get (url authorization : String)

/-- A request has no response, or a status and a body that may not be JSON. -/
abbrev PayOp.Ans (_ : PayOp) : Type := NodeReply

abbrev PayProgram := Program PayOp PayOp.Ans

/-- The client of the payment backend. -/
structure GoblinPay where
  url : String
  token : String

namespace GoblinPay

/-- `ureq` takes a status of 400 or more for an error. -/
def sent : NodeReply → Except String (Except String Json)
  | .transport error => .error error
  | .responded status shown body =>
      if 400 ≤ status then .error shown else .ok body

/-- The body of a response, with the errors on the way to it. -/
def readBody (what : String) (reply : NodeReply) : Except String Json :=
  match sent reply with
  | .error error => .error s!"goblinpay {what}: {error}"
  | .ok (.error error) => .error s!"goblinpay {what} body: {error}"
  | .ok (.ok body) => .ok body

def field (body : Json) (key : String) : Except String String :=
  match (body.get key).bind Json.asStr with
  | some value => .ok value
  | none => .error s!"goblinpay invoice missing `{key}`"

/-- The invoice in the answer to an order. -/
def parseInvoice (body : Json) : Except String Invoice := do
  return { id := ← field body "invoice_id"
           payUrl := ← field body "pay_url"
           status := ← field body "status" }

variable (client : GoblinPay)

/-- The value of the `Authorization` header. -/
def authorization : String := s!"Bearer {client.token}"

/-- The body of an order. -/
def orderBody (orderRef : String) (amountNanogrin : Nat) (memo : String) :
    Json :=
  .object [("order_ref", .string orderRef),
    ("amount_grin", .number (.posInt (.ofNat amountNanogrin))),
    ("memo", .string memo)]

/-- `POST /invoice`. -/
def createInvoice (orderRef : String) (amountNanogrin : Nat) (memo : String) :
    PayProgram (Except String Invoice) := do
  let reply ← perform (.post s!"{client.url}/invoice" client.authorization
    (orderBody orderRef amountNanogrin memo))
  return (readBody "create invoice" reply).bind parseInvoice

/-- The status in the answer about an invoice. -/
def reportedStatus (body : Json) : Except String String :=
  match (body.get "status").bind Json.asStr with
  | some status => .ok status
  | none => .error "goblinpay invoice status missing"

/-- `GET /invoice/{id}`. -/
def invoiceStatus (invoiceId : String) :
    PayProgram (Except String String) := do
  let reply ← perform (.get s!"{client.url}/invoice/{invoiceId}"
    client.authorization)
  return (readBody "invoice status" reply).bind reportedStatus

end GoblinPay

/-- The endpoints of the node, between commas and white space. -/
def Config.grinNodeEndpoints (cfg : Config) : List String :=
  (((cfg.grinNodeUrl.getD "").toList.splitOnP
    fun c => [',', ' ', '\t', '\n'].contains c).map fun part =>
      trim (String.ofList part)).filter fun endpoint => !endpoint.isEmpty

/-- The client of the configured endpoints. -/
def Config.nodeClient (cfg : Config) : NodeClient := ⟨cfg.grinNodeEndpoints⟩

/-- The client of the configured backend. -/
def Config.goblinPay (cfg : Config) : GoblinPay :=
  ⟨cfg.goblinpayUrl, cfg.goblinpayToken⟩

/-! ## The steps on the wire -/

/-- The steps of a server that makes its remote calls itself. -/
inductive WireOp where
  | app (op : Op)
  | node (op : NodeOp)
  | pay (op : PayOp)

abbrev WireOp.Ans : WireOp → Type
  | app op => op.Ans
  | node op => op.Ans
  | pay op => op.Ans

/-- What the other side answers just now. -/
structure Network where
  node : (op : NodeOp) → op.Ans
  pay : (op : PayOp) → op.Ans

/-- No remote call is made in one step. -/
def nobody : Env where
  tipHeight := .error ""
  kernel _ := .error ""
  createInvoice _ _ _ := .error ""
  invoiceStatus _ := .error ""

/-- A step of the process, or an answer of the network. -/
def WireOp.exec (network : Network) : (op : WireOp) → World → op.Ans × World
  | app op, world => op.exec nobody world
  | node op, world => (network.node op, world)
  | pay op, world => (network.pay op, world)

/-- The step is a request to another machine. -/
def WireOp.isRemote : WireOp → Prop
  | app _ => False
  | node _ => True
  | pay _ => True

abbrev WireProgram := Program WireOp WireOp.Ans

def onApp (op : Op) : WireProgram op.Ans := perform (WireOp.app op)

def onNode (op : NodeOp) : WireProgram op.Ans := perform (WireOp.node op)

def onPay (op : PayOp) : WireProgram op.Ans := perform (WireOp.pay op)

/-- How the server carries out a step; `display` shows a JSON value in an
error text. -/
def Op.onWire (display : Json → String) (cfg : Config) :
    (op : Op) → WireProgram op.Ans
  | .tipHeight => (cfg.nodeClient.tipHeight display).expand onNode
  | .kernel excessHex =>
      (cfg.nodeClient.kernel display excessHex).expand onNode
  | .createInvoice orderRef amount memo =>
      (cfg.goblinPay.createInvoice orderRef amount memo).expand onPay
  | .invoiceStatus invoiceId =>
      (cfg.goblinPay.invoiceStatus invoiceId).expand onPay
  | .db op => onApp (.db op)
  | .unixNow => onApp .unixNow
  | .instantNow => onApp .instantNow
  | .allow bucket ip max window now => onApp (.allow bucket ip max window now)
  | .cooldownActive bucket key window now =>
      onApp (.cooldownActive bucket key window now)
  | .recordOp bucket key => onApp (.recordOp bucket key)
  | .authEventFresh eventId window now =>
      onApp (.authEventFresh eventId window now)

/-! ## Refinement -/

section Refinement

variable (ext : Extern) (cfg : Config) (display : Json → String)

/-- The server whose remote calls are HTTP requests. -/
def wired : System World Network Incident Request WireOp WireOp.Ans Response :=
  (durable ext cfg).expanded (Op.onWire display cfg) WireOp.exec

abbrev WirePool := Pool World Request WireOp WireOp.Ans Response

abbrev WireThread := Thread World Request WireOp WireOp.Ans Response

theorem onNode_uses (op : NodeOp) :
    (onNode op).Uses fun _ low => low.isRemote :=
  uses_perform fun _ => trivial

theorem onPay_uses (op : PayOp) :
    (onPay op).Uses fun _ low => low.isRemote :=
  uses_perform fun _ => trivial

theorem WireOp.exec_remote (op : WireOp) (remote : op.isRemote)
    (network : Network) (world : World) : (op.exec network world).2 = world := by
  cases op with
  | app => cases remote
  | node => rfl
  | pay => rfl

/-- Every step takes its effect at one step on the wire. -/
theorem Op.onWire_carries (op : Op) :
    (durable ext cfg).Carries WireOp.exec op (op.onWire display cfg) := by
  have local_ : ∀ op : Op, (durable ext cfg).Carries WireOp.exec op (onApp op) :=
    fun op _ _ => .inr ⟨_, nobody, rfl, rfl⟩
  cases op with
  | tipHeight =>
      exact carries_of_still WireOp.exec_remote
        (fun answer world => ⟨{ nobody with tipHeight := answer }, rfl⟩)
        (expand_uses onNode_uses _)
  | kernel excessHex =>
      exact carries_of_still WireOp.exec_remote
        (fun answer world => ⟨{ nobody with kernel := fun _ => answer }, rfl⟩)
        (expand_uses onNode_uses _)
  | createInvoice orderRef amount memo =>
      exact carries_of_still WireOp.exec_remote
        (fun answer world =>
          ⟨{ nobody with createInvoice := fun _ _ _ => answer }, rfl⟩)
        (expand_uses onPay_uses _)
  | invoiceStatus invoiceId =>
      exact carries_of_still WireOp.exec_remote
        (fun answer world =>
          ⟨{ nobody with invoiceStatus := fun _ => answer }, rfl⟩)
        (expand_uses onPay_uses _)
  | _ => exact local_ _

variable {ext cfg display}
  {permitted : Permission World Request WireOp WireOp.Ans Response}
  {pool : WirePool}

/-- A pool of the server in one step per remote call, and how the requests on
the wire carry out its steps. -/
theorem wire_refined
    (reachable : (wired ext cfg display).Reachable permitted pool) :
    ∃ abstract : FloonetPool, (durable ext cfg).Reachable anyMove abstract ∧
      pool.state = abstract.state ∧
      List.Forall₂ (fun (follower : WireThread) (thread : FloonetThread) =>
        follower.request = thread.request ∧
        (∀ response, follower.program = .done response ↔
          thread.program = .done response) ∧
        ∀ event ∈ thread.events, ∃ segment ⊆ follower.events,
          (event.op.onWire display cfg).Yields segment event.answer)
        pool.threads abstract.threads := by
  obtain ⟨abstract, reached, refines⟩ :=
    Refines.run (Op.onWire_carries ext cfg display) reachable
  refine ⟨abstract, reached, refines.state, refines.threads.imp ?_⟩
  intro follower thread isMatch
  refine ⟨isMatch.request, fun response => isMatch.done_iff, ?_⟩
  intro event member
  obtain ⟨segment, yields, within⟩ := isMatch.carriedOut member
  exact ⟨segment, within, yields⟩

end Refinement

namespace Sample

/-- A node and a backend that answer every request. -/
def network (status : String) : Network where
  node op :=
    match op with
    | .post _ body =>
        if (body.get "method").bind Json.asStr = some "get_kernel" then
          NodeClient.Sample.kernelReply
        else NodeClient.Sample.tipReply
  pay op :=
    match op with
    | .post _ _ _ => .responded 200 "200 OK" (.ok (.object
        [("invoice_id", .string "first"),
          ("pay_url", .string "https://pay.example/first"),
          ("status", .string "pending")]))
    | .get _ _ => .responded 200 "200 OK" (.ok (.object
        [("status", .string status)]))

/-- The server of this configuration, with its remote calls on the wire. -/
abbrev WireMarket (cfg : Config) :=
  wired host cfg NodeClient.Sample.showJson

def overWire {cfg : Config} (served : (server host cfg).Served) :
    (WireMarket cfg).Served where
  request := served.request
  program := served.program.expand
    (Op.onWire NodeClient.Sample.showJson cfg)
  serves := congrArg (Program.expand
    (Op.onWire NodeClient.Sample.showJson cfg)) served.serves

def wireSale : List (WireMarket config).Move :=
  System.alone _ (overWire registerSeller) 0 (network "pending") 10 ++
    System.alone _ (overWire lodgeFirst) 1 (network "pending") 10 ++
    System.alone _ (overWire claimNow) 2 (network "pending") 14

theorem wireSale_sells : ∃ pool, (WireMarket config).Reachable anyMove pool ∧
    pool.state.db.transfers.rows.isEmpty = false :=
  play_reaches (fun _ _ _ => true) (fun _ _ _ _ => trivial) world_initial
    wireSale (by decide +kernel)

end Sample

open Sample

theorem wire_refined_sale : ∃ pool,
    (WireMarket config).Reachable anyMove pool ∧
      ∃ abstract : FloonetPool,
        (durable host config).Reachable anyMove abstract ∧
        pool.state = abstract.state ∧
        abstract.state.db.transfers.rows.isEmpty = false := by
  obtain ⟨pool, reachable, sold⟩ := wireSale_sells
  obtain ⟨abstract, reached, same, -⟩ := wire_refined reachable
  exact ⟨pool, reachable, abstract, reached, same, same ▸ sold⟩

/-! ## Reading a remote call -/

abbrev WireEvent := Concurrent.Event WireOp WireOp.Ans

section Reading

variable {display : Json → String} {cfg : Config} {segment : List WireEvent}

theorem GoblinPay.readBody_ok {what : String} {reply : NodeReply} {body : Json}
    (read : readBody what reply = .ok body) : sent reply = .ok (.ok body) := by
  unfold readBody at read
  split at read
  · cases read
  · cases read
  · rename_i answered
    cases read
    exact answered

theorem GoblinPay.reportedStatus_ok {body : Json} {status : String}
    (reported : reportedStatus body = .ok status) :
    body.get "status" = some (.string status) := by
  unfold reportedStatus at reported
  split at reported
  · rename_i isStatus
    cases reported
    obtain ⟨value, found, isString⟩ := Option.bind_eq_some_iff.mp isStatus
    cases value with
    | string text =>
        cases isString
        exact found
    | _ => cases isString
  · cases reported

/-- The answer of the backend to `op`, a response with this body. -/
def PayAnswer (segment : List WireEvent) (op : PayOp) (body : Json) : Prop :=
  ∃ reply, (⟨.pay op, reply⟩ : WireEvent) ∈ segment ∧
    GoblinPay.sent reply = .ok (.ok body)

theorem createInvoice_onWire {orderRef memo : String} {amount : Nat}
    {invoice : Invoice}
    (yields : (Op.onWire display cfg (.createInvoice orderRef amount
      memo)).Yields segment (.ok invoice)) :
    ∃ body, PayAnswer segment (.post s!"{cfg.goblinpayUrl}/invoice"
        s!"Bearer {cfg.goblinpayToken}"
        (GoblinPay.orderBody orderRef amount memo)) body ∧
      GoblinPay.parseInvoice body = .ok invoice := by
  obtain ⟨reply, later, rfl, rest⟩ := yields_step.mp yields
  obtain ⟨-, answer⟩ := yields_done.mp rest
  obtain ⟨body, read, parsed⟩ :=
    Validation.bind_eq_ok.mp (Eq.symm answer)
  exact ⟨body, ⟨reply, List.mem_cons_self, GoblinPay.readBody_ok read⟩, parsed⟩

theorem invoiceStatus_onWire {invoiceId status : String}
    (yields : (Op.onWire display cfg (.invoiceStatus invoiceId)).Yields segment
      (.ok status)) :
    ∃ body, PayAnswer segment
        (.get s!"{cfg.goblinpayUrl}/invoice/{invoiceId}"
          s!"Bearer {cfg.goblinpayToken}") body ∧
      body.get "status" = some (.string status) := by
  obtain ⟨reply, later, rfl, rest⟩ := yields_step.mp yields
  obtain ⟨-, answer⟩ := yields_done.mp rest
  obtain ⟨body, read, reported⟩ :=
    Validation.bind_eq_ok.mp (Eq.symm answer)
  exact ⟨body, ⟨reply, List.mem_cons_self, GoblinPay.readBody_ok read⟩,
    GoblinPay.reportedStatus_ok reported⟩

def NodeClient.onWire (event : NodeEvent) : WireEvent :=
  ⟨.node event.op, event.answer⟩

theorem onNode_yields {op : NodeOp} {answer : op.Ans}
    (yields : (onNode op).Yields segment answer) :
    segment = [NodeClient.onWire ⟨op, answer⟩] := by
  obtain ⟨reply, later, rfl, rest⟩ := yields_step.mp yields
  obtain ⟨rfl, rfl⟩ := yields_done.mp rest
  rfl

theorem explains_onNode {events : List NodeEvent}
    {segments : List (List WireEvent)}
    (explained : Explains onNode events segments) :
    segments.flatten = events.map NodeClient.onWire := by
  induction explained with
  | nil => rfl
  | cons first _ induction =>
      rw [onNode_yields first, List.flatten_cons, induction]
      rfl

theorem NodeClient.kernelResult_height (height tip : Option UInt64) :
    (kernelResult height tip).height = height := by
  unfold kernelResult
  split <;> rfl

theorem kernel_onWire {excessHex : String} {result : KernelResult}
    (yields : (Op.onWire display cfg (.kernel excessHex)).Yields segment
      (.ok result)) (found : result.found = true) :
    ∃ endpoint ∈ cfg.grinNodeEndpoints, ∃ own kernel tip,
      NodeClient.Reports display excessHex endpoint own kernel tip ∧
      own.map NodeClient.onWire ⊆ segment ∧
      result = NodeClient.kernelResult (NodeClient.kernelHeight kernel)
        (NodeClient.reportedHeight tip) := by
  obtain ⟨events, segments, ran, explained, rfl⟩ := expand_yields yields
  obtain ⟨before, endpoint, after, failed, own, split, -, rfl, chosen⟩ :=
    failover_yields_ok ran
  obtain ⟨kernel, tip, reports, same⟩ := NodeClient.kernelOne_found chosen found
  refine ⟨endpoint, ?_, own, kernel, tip, reports, ?_, same⟩
  · rw [show cfg.grinNodeEndpoints = cfg.nodeClient.endpoints from rfl, split]
    exact List.mem_append_right _ List.mem_cons_self
  · rw [explains_onNode explained, List.map_append]
    exact List.subset_append_right _ _

end Reading

/-! ## Payments -/

section Payments

variable {ext : Extern} {cfg : Config}
  {permitted : Permission World Request Op Op.Ans Response}
  {pool : FloonetPool} {thread : FloonetThread}

theorem grantFact_paid : GrantFact ext cfg fun pool _ _ grant =>
    grant.status = .paid → InvoiceReported pool grant.invoiceId "paid" where
  mono := by
    intro pool label later step pubkey resource grant reported paid
    exact step.saw (reported paid)
  recorded := by
    intro permitted pool reachable thread member pubkey resource invoice amount
      next pending now paid
    cases paid
  confirmed := by
    intro permitted pool reachable thread member invoiceId next pending pubkey
      resource grant reported now paid
    rw [Grant.confirm_invoiceId]
    rcases Grant.confirm_status paid with already | rfl
    · exact reported already
    · have pays := reachable.every (routes_pays ext cfg) member
      rw [pending] at pays
      have pays := pays.1
      generalize thread.request = request at pays
      cases pays with
      | uncharged uncharged => cases uncharged
      | confirm reported => exact ⟨thread, member, reported⟩

/-- The backend created an invoice for the configured price of the resource,
and reported it paid. -/
def PricePaid (cfg : Config) (pool : FloonetPool) (pubkey resource : String) :
    Prop :=
  ∃ invoice, InvoiceMade pool pubkey resource (cfg.price resource) invoice ∧
    InvoiceReported pool invoice.id "paid"

namespace Durable

theorem pricePaid (reachable : (durable ext cfg).Reachable permitted pool)
    (member : thread ∈ pool.threads) {pubkey resource : String}
    (admitted : History.Admitted thread.events pubkey resource) :
    PricePaid cfg pool pubkey resource := by
  obtain ⟨grant, saw, paid⟩ := admitted
  have read : pool.Saw ⟨.db (.grant pubkey resource), some grant⟩ :=
    ⟨thread, member, saw⟩
  obtain ⟨invoice, made, sameId, -⟩ :=
    (grantFact_invoiced.run reachable).read pubkey resource grant read
  refine ⟨invoice, made, ?_⟩
  rw [← sameId]
  rcases paid with paid | reported
  · exact (grantFact_paid.run reachable).read pubkey resource grant read paid
  · exact ⟨thread, member, reported⟩

theorem registered_of_created
    (reachable : (durable ext cfg).Reachable permitted pool)
    (member : thread ∈ pool.threads) {headers : Headers} {body : Bytes}
    (request : thread.request = .register headers body) {response : Response}
    (finished : thread.program = .done response)
    (created : response.status = .created) :
    ∃ name pubkey answer, headers.signer = some pubkey ∧
      History.Saw thread.events (.db (.insertName name pubkey)) answer := by
  have outcome : thread.program.Every (fun _ _ => True)
      (Outcome thread.request) thread.events :=
    reachable.every (routes_outcome ext cfg) member
  rw [finished] at outcome
  have follows := reachable.follows thread member
  rw [request] at outcome follows
  have outcome : Outcome (.register headers body) thread.events response :=
    outcome
  generalize thread.events = past at outcome follows ⊢
  cases outcome with
  | nothing _ uncreated => exact absurd created (uncreated rfl)
  | withdrawn other => cases other
  | @committed earlier new op answer _ _ commits _ _ =>
      have seen : (⟨op, answer⟩ : Concurrent.Event Op Op.Ans) ∈
          earlier ++ [⟨op, answer⟩] ++ new :=
        List.mem_append_left _ (List.mem_append_right _ List.mem_cons_self)
      obtain ⟨before, -, leads⟩ :=
        follows.relied (routes_leads ext cfg (.register headers body)) seen
      have leads : Leads ext cfg (.register headers body) before op := leads
      cases leads with
      | silent silent =>
          rw [(Op.idle_of_silent silent answer).1] at commits
          cases commits
      | expire => cases commits
      | register signed accepted =>
          rw [← registerRequest_pubkey ext cfg accepted] at signed
          exact ⟨_, _, answer, signed, seen⟩

theorem registration_paid
    (reachable : (durable ext cfg).Reachable permitted pool)
    (mode : cfg.payMode = .name) (member : thread ∈ pool.threads)
    {headers : Headers} {body : Bytes} {pubkey : String}
    (request : thread.request = .register headers body)
    (signed : headers.signer = some pubkey) {response : Response}
    (finished : thread.program = .done response)
    (created : response.status = .created) :
    PricePaid cfg pool pubkey "name" := by
  obtain ⟨name, signer, answer, isSigner, seen⟩ :=
    registered_of_created reachable member request finished created
  rw [signed] at isSigner
  cases isSigner
  have follows := reachable.follows thread member
  obtain ⟨before, within, pays⟩ :=
    follows.relied (routes_pays ext cfg thread.request) seen
  have pays : Pays cfg thread.request before (.db (.insertName name pubkey)) :=
    pays
  generalize thread.request = request' at pays
  cases pays with
  | uncharged uncharged => cases uncharged
  | acquire _ admitted =>
      obtain ⟨grant, saw, paid⟩ := admitted mode
      refine pricePaid reachable member ⟨grant, within saw, ?_⟩
      exact paid.imp_right fun reported => within reported

theorem status_paid (reachable : (durable ext cfg).Reachable permitted pool)
    (mode : cfg.payMode = .write) (member : thread ∈ pool.threads)
    {raw pubkey : String} {headers : Headers}
    (request : thread.request = .paidStatus raw headers)
    (finished : thread.program = .done (paidBody pubkey true)) :
    PricePaid cfg pool pubkey "write" := by
  have charged := reachable.every (routes_pays ext cfg) member
  rw [finished, request] at charged
  exact pricePaid reachable member (charged pubkey mode rfl)

end Durable

end Payments

/-! ## Payments on the wire -/

section Wire

variable {ext : Extern} {cfg : Config} {display : Json → String}
  {permitted : Permission World Request WireOp WireOp.Ans Response}
  {pool : WirePool} {abstract : FloonetPool}

variable (cfg) (pool) in
/-- The backend has answered an order of the configured price with this
invoice. -/
def Billed (pubkey resource : String) (invoice : Invoice) : Prop :=
  ∃ follower ∈ pool.threads, ∃ memo body, PayAnswer follower.events
      (.post s!"{cfg.goblinpayUrl}/invoice" s!"Bearer {cfg.goblinpayToken}"
        (GoblinPay.orderBody s!"floonet-{resource}:{pubkey}"
          (cfg.price resource) memo)) body ∧
    GoblinPay.parseInvoice body = .ok invoice

variable (cfg) (pool) in
/-- The backend has answered that the invoice is paid. -/
def Settled (invoiceId : String) : Prop :=
  ∃ follower ∈ pool.threads, ∃ body, PayAnswer follower.events
      (.get s!"{cfg.goblinpayUrl}/invoice/{invoiceId}"
        s!"Bearer {cfg.goblinpayToken}") body ∧
    body.get "status" = some (.string "paid")

theorem PayAnswer.subset {segment events : List WireEvent} {op : PayOp}
    {body : Json} (answered : PayAnswer segment op body)
    (within : segment ⊆ events) : PayAnswer events op body := by
  obtain ⟨reply, member, sent⟩ := answered
  exact ⟨reply, within member, sent⟩

section Reading

variable (refines : (durable ext cfg).Refines (Op.onWire display cfg)
  WireOp.exec pool abstract)
include refines

theorem billed_of_made {pubkey resource : String} {invoice : Invoice}
    (made : InvoiceMade abstract pubkey resource (cfg.price resource) invoice) :
    Billed cfg pool pubkey resource invoice := by
  obtain ⟨maker, member, memo, saw⟩ := made
  obtain ⟨follower, followerMember, isMatch⟩ := refines.fineThread member
  obtain ⟨segment, yields, within⟩ := isMatch.carriedOut saw
  obtain ⟨body, answered, parsed⟩ := createInvoice_onWire yields
  exact ⟨follower, followerMember, memo, body, answered.subset within, parsed⟩

theorem settled_of_reported {invoiceId : String}
    (reported : InvoiceReported abstract invoiceId "paid") :
    Settled cfg pool invoiceId := by
  obtain ⟨asker, member, saw⟩ := reported
  obtain ⟨follower, followerMember, isMatch⟩ := refines.fineThread member
  obtain ⟨segment, yields, within⟩ := isMatch.carriedOut saw
  obtain ⟨body, answered, status⟩ := invoiceStatus_onWire yields
  exact ⟨follower, followerMember, body, answered.subset within, status⟩

theorem paidOnWire {pubkey resource : String}
    (paid : PricePaid cfg abstract pubkey resource) :
    ∃ invoice, Billed cfg pool pubkey resource invoice ∧
      Settled cfg pool invoice.id := by
  obtain ⟨invoice, made, reported⟩ := paid
  exact ⟨invoice, billed_of_made refines made,
    settled_of_reported refines reported⟩

end Reading

/-- Every grant is for an invoice that the backend has answered an order of the
configured price with, and is paid only if the backend has answered so; nobody
gets a name or write access that costs something but for such an invoice. -/
theorem payments_on_wire
    (reachable : (wired ext cfg display).Reachable permitted pool) :
    (∀ grant ∈ pool.state.db.paidGrants.rows,
      (∃ invoice, Billed cfg pool grant.pubkey grant.resource invoice ∧
        grant.invoiceId = invoice.id ∧ grant.payUrl = invoice.payUrl ∧
        grant.amountNanogrin =
          MachineInt.asI64 (cfg.price grant.resource)) ∧
      (grant.status = .paid → Settled cfg pool grant.invoiceId)) ∧
    ∀ follower ∈ pool.threads, ∀ pubkey response,
      follower.program = .done response →
      (cfg.payMode = .name → ∀ headers body,
        follower.request = .register headers body →
        headers.signer = some pubkey → response.status = .created →
        ∃ invoice, Billed cfg pool pubkey "name" invoice ∧
          Settled cfg pool invoice.id) ∧
      (cfg.payMode = .write → ∀ raw headers,
        follower.request = .paidStatus raw headers →
        response = paidBody pubkey true →
        ∃ invoice, Billed cfg pool pubkey "write" invoice ∧
          Settled cfg pool invoice.id) := by
  obtain ⟨abstract, reached, refines⟩ :=
    Refines.run (Op.onWire_carries ext cfg display) reachable
  constructor
  · intro grant member
    rw [refines.state] at member
    have stored := Db.grant_eq_some.mpr ⟨member, rfl, rfl⟩
    obtain ⟨invoice, made, terms⟩ :=
      (grantFact_invoiced.run reached).stored _ _ grant stored
    refine ⟨⟨invoice, billed_of_made refines made, terms⟩, fun paid => ?_⟩
    exact settled_of_reported refines
      ((grantFact_paid.run reached).stored _ _ grant stored paid)
  · intro follower member pubkey response finished
    obtain ⟨thread, threadMember, isMatch⟩ := refines.coarseThread member
    have done := isMatch.done_iff.mp finished
    constructor
    · intro mode headers body request signed created
      have request := isMatch.request.symm.trans request
      exact paidOnWire refines (Durable.registration_paid reached mode
        threadMember request signed done created)
    · rintro mode raw headers request rfl
      have request := isMatch.request.symm.trans request
      exact paidOnWire refines
        (Durable.status_paid reached mode threadMember request done)

def Sample.wirePurchase : List (WireMarket payingConfig).Move :=
  System.alone _ (overWire firstBuy) 0 (network "pending") 12 ++
    System.alone _ (overWire secondBuy) 1 (network "paid") 15

theorem payments_on_wire_purchase : ∃ pool,
    (WireMarket payingConfig).Reachable anyMove pool ∧
      ∃ grant ∈ pool.state.db.paidGrants.rows,
        (∃ invoice, Billed payingConfig pool grant.pubkey grant.resource invoice ∧
          grant.invoiceId = invoice.id) ∧
        Settled payingConfig pool grant.invoiceId := by
  have reached : ∃ pool, (WireMarket payingConfig).Reachable anyMove pool ∧
      (pool.state.db.paidGrants.rows.any fun grant =>
        decide (grant.status = .paid)) = true :=
    play_reaches (fun _ _ _ => true) (fun _ _ _ _ => trivial) world_initial
      wirePurchase (by decide +kernel)
  obtain ⟨pool, reachable, paid⟩ := reached
  obtain ⟨grant, stored, paid⟩ := List.any_eq_true.mp paid
  rw [decide_eq_true_iff] at paid
  obtain ⟨⟨invoice, billed, same, -⟩, settled⟩ :=
    (payments_on_wire reachable).1 grant stored
  exact ⟨pool, reachable, grant, stored, ⟨invoice, billed, same⟩, settled paid⟩

theorem Request.SignedBy.signer {request : Request} {past : History}
    {pubkey : String} (signed : request.SignedBy ext cfg past pubkey) :
    request.signer = some pubkey := by
  obtain ⟨verification, event, verifies, passed, rfl⟩ := signed
  rw [Request.verification_signer verifies, Headers.signer, passed.signed]

/-- A sale rests on a kernel that one configured endpoint has reported to the
very claim that pays, as deep as is demanded under the tip it has reported. -/
theorem transfers_on_wire
    (reachable : (wired ext cfg display).Reachable permitted pool)
    {transfer : TransferRow}
    (member : transfer ∈ pool.state.db.transfers.rows) :
    ∃ follower ∈ pool.threads, ∃ headers body offerId proof,
      follower.request = .claim headers body ∧
      headers.signer = some transfer.buyerPubkey ∧
      claimRequest ext body = .ok (offerId, proof) ∧
      verifySignatures ext proof = true ∧
      (proof.amount.toNat : Int) = transfer.priceNanogrin ∧
      ∃ endpoint ∈ cfg.grinNodeEndpoints, ∃ own kernel tip,
        NodeClient.Reports display proof.excessHex endpoint own kernel tip ∧
        own.map NodeClient.onWire ⊆ follower.events ∧
        transfer.kernelHeight = (NodeClient.kernelHeight kernel).map
          (fun height => MachineInt.asI64 height.toNat) ∧
        (2 ≤ cfg.transferMinConf → ∃ h t,
          NodeClient.kernelHeight kernel = some h ∧
          NodeClient.reportedHeight tip = some t ∧
          h.toNat + cfg.transferMinConf - 1 ≤ t.toNat) := by
  obtain ⟨abstract, reached, refines⟩ :=
    Refines.run (Op.onWire_carries ext cfg display) reachable
  rw [refines.state] at member
  obtain ⟨thread, threadMember, proof, read, paid, -⟩ :=
    Durable.transfers_paid reached transfer member
  obtain ⟨follower, followerMember, isMatch⟩ := refines.fineThread threadMember
  obtain ⟨headers, body, offerId, request, accepted, -⟩ := paid.carried
  obtain ⟨result, answered, found, enough, height⟩ := paid.confirmed
  obtain ⟨segment, yields, within⟩ := isMatch.carriedOut answered
  obtain ⟨endpoint, configured, own, kernel, tip, reports, ownWithin, rfl⟩ :=
    kernel_onWire yields found
  have excess : transfer.kernelExcess = proof.excessHex := by
    rw [paid.row]
    rfl
  rw [excess] at reports
  rw [NodeClient.kernelResult_height] at height
  have signed := paid.signed.signer
  rw [request] at signed
  have signed : headers.signer = some transfer.buyerPubkey := signed
  exact ⟨follower, followerMember, headers, body, offerId, proof,
    isMatch.request.trans request, signed, accepted, paid.verified, paid.amount,
    endpoint, configured, own, kernel, tip, reports,
    fun event found => within (ownWithin found), height,
    fun deep => NodeClient.kernelResult_confirmations deep enough⟩

theorem transfers_on_wire_sale : ∃ pool,
    (WireMarket config).Reachable anyMove pool ∧
      ∃ transfer ∈ pool.state.db.transfers.rows,
        ∃ proof : ParsedPaymentProof, (proof.amount.toNat : Int) = transfer.priceNanogrin ∧
        ∃ endpoint ∈ config.grinNodeEndpoints, ∃ own kernel tip,
          NodeClient.Reports NodeClient.Sample.showJson proof.excessHex
            endpoint own kernel tip ∧
          transfer.kernelHeight = (NodeClient.kernelHeight kernel).map
            (fun height => MachineInt.asI64 height.toNat) := by
  obtain ⟨pool, reachable, sold⟩ := wireSale_sells
  obtain ⟨transfer, member⟩ := List.exists_mem_of_ne_nil _
    (List.isEmpty_eq_false_iff.mp sold)
  obtain ⟨_, -, _, _, _, proof, -, -, -, -, amount, endpoint, configured, own,
    kernel, tip, reports, -, height, -⟩ := transfers_on_wire reachable member
  exact ⟨pool, reachable, transfer, member, proof, amount, endpoint, configured,
    own, kernel, tip, reports, height⟩

end Wire

end Floonet
