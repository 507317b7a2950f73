import Floonet.Client
import Floonet.Paywall
import Floonet.Runs

/-!
# Grants and the payments behind them

A grant is paid only if the payment backend said so of its invoice, and only
such grants let a request pass the paywall.  The webhook, whatever it is sent,
makes the server ask the backend.
-/

namespace Floonet

open Concurrent Program System

variable {ext : Extern} {cfg : Config}
  {permitted : Permission World Request Op Op.Ans Response}
  {pool later : FloonetPool} {thread : FloonetThread}

/-! ## What the threads have learnt -/

theorem Reachable.pays
    (reachable : (server ext cfg).Reachable permitted pool)
    (member : thread ∈ pool.threads) {op : Op}
    {next : op.Ans → Handler Response}
    (pending : thread.program = .step op next) :
    Pays cfg thread.request thread.events op := by
  have every := reachable.every (routes_pays ext cfg) member
  rw [pending] at every
  exact every.1

theorem Reachable.charged
    (reachable : (server ext cfg).Reachable permitted pool)
    (member : thread ∈ pool.threads) {response : Response}
    (finished : thread.program = .done response) :
    Charged cfg thread.request thread.events response := by
  have every := reachable.every (routes_pays ext cfg) member
  rw [finished] at every
  exact every

/-- The backend created the invoice for this key and resource. -/
def InvoiceCreated (pool : FloonetPool) (pubkey resource invoiceId : String) :
    Prop :=
  ∃ thread ∈ pool.threads, ∃ invoice : Invoice, invoice.id = invoiceId ∧
    History.Created thread.events pubkey resource invoice

/-- The backend was asked about the invoice and answered `status`. -/
def InvoiceReported (pool : FloonetPool) (invoiceId status : String) : Prop :=
  pool.Saw ⟨.invoiceStatus invoiceId, .ok status⟩

/-- The key has paid for the resource. -/
def PaidFor (pool : FloonetPool) (pubkey resource : String) : Prop :=
  ∃ invoiceId, InvoiceCreated pool pubkey resource invoiceId ∧
    InvoiceReported pool invoiceId "paid"

section Mono

variable {label : Label World Request Op Op.Ans}

theorem InvoiceCreated.mono (step : (server ext cfg).Step pool label later)
    {pubkey resource invoiceId : String}
    (created : InvoiceCreated pool pubkey resource invoiceId) :
    InvoiceCreated later pubkey resource invoiceId := by
  obtain ⟨thread, member, invoice, same, price, memo, saw⟩ := created
  obtain ⟨thread', member', saw'⟩ := step.saw ⟨thread, member, saw⟩
  exact ⟨thread', member', invoice, same, price, memo, saw'⟩

theorem PaidFor.mono (step : (server ext cfg).Step pool label later)
    {pubkey resource : String} (paid : PaidFor pool pubkey resource) :
    PaidFor later pubkey resource := by
  obtain ⟨invoiceId, created, reported⟩ := paid
  exact ⟨invoiceId, created.mono step, step.saw reported⟩

end Mono

/-! ## Grants are backed by payments -/

/-- The invoice of the grant was created for it, and the grant is paid only
if the backend said so. -/
structure Grant.Backed (grant : Grant) (pool : FloonetPool)
    (pubkey resource : String) : Prop where
  created : InvoiceCreated pool pubkey resource grant.invoiceId
  confirmed : grant.status = .paid →
    InvoiceReported pool grant.invoiceId "paid"

theorem Grant.Backed.mono {label : Label World Request Op Op.Ans}
    (step : (server ext cfg).Step pool label later) {grant : Grant}
    {pubkey resource : String} (backed : grant.Backed pool pubkey resource) :
    grant.Backed later pubkey resource where
  created := backed.created.mono step
  confirmed paid := step.saw (backed.confirmed paid)

theorem paidFor_of_admitted {pubkey resource : String}
    (read : ∀ grant, pool.Saw ⟨.db (.grant pubkey resource), some grant⟩ →
      grant.Backed pool pubkey resource)
    (member : thread ∈ pool.threads)
    (admitted : History.Admitted thread.events pubkey resource) :
    PaidFor pool pubkey resource := by
  obtain ⟨grant, saw, paid⟩ := admitted
  have backed := read grant ⟨thread, member, saw⟩
  refine ⟨grant.invoiceId, backed.created, ?_⟩
  rcases paid with paid | reported
  · exact backed.confirmed paid
  · exact ⟨thread, member, reported⟩

/-- What the grants of a reachable state rest on, stored or read. -/
structure GrantsBacked (cfg : Config) (pool : FloonetPool) : Prop where
  stored : ∀ pubkey resource grant,
    pool.state.db.grant pubkey resource = some grant →
      grant.Backed pool pubkey resource
  read : ∀ pubkey resource grant,
    pool.Saw ⟨.db (.grant pubkey resource), some grant⟩ →
      grant.Backed pool pubkey resource
  acquired : cfg.payMode = .name → ∀ name pubkey answer,
    pool.Saw ⟨.db (.insertName name pubkey), answer⟩ →
      PaidFor pool pubkey "name"

/-- What a step does to a stored grant. -/
theorem GrantsBacked.stored_step {index : Nat} {op : Op}
    {next : op.Ans → Handler Response} (env : Env)
    (backed : GrantsBacked cfg pool)
    (reachable : (server ext cfg).Reachable permitted pool)
    (found : pool.threads[index]? = some thread)
    (pending : thread.program = .step op next)
    (step : (server ext cfg).Step pool
      (.act index ((server ext cfg).taken env op pool.state)) later)
    {pubkey resource : String} {grant : Grant}
    (stored : (op.exec env pool.state).2.db.grant pubkey resource =
      some grant) : grant.Backed later pubkey resource := by
  have member := List.mem_of_getElem? found
  have pays := Reachable.pays reachable member pending
  have effect := op.exec_grants env pool.state
  generalize thread.request = request at pays
  cases effect with
  | kept _ same =>
      rw [same] at stored
      exact (backed.stored pubkey resource grant stored).mono step
  | @recorded key ware invoice amount put =>
      rw [put] at stored
      dsimp only at stored
      split at stored
      · rename_i isKey
        obtain ⟨rfl, rfl⟩ := isKey
        cases stored
        cases pays with
        | uncharged uncharged => cases uncharged
        | record created rolls =>
            refine ⟨?_, nofun⟩
            exact InvoiceCreated.mono step
              ⟨thread, member, invoice, rfl, created.created⟩
      · exact (backed.stored pubkey resource grant stored).mono step
  | @confirmed invoiceId marked =>
      rw [marked] at stored
      obtain ⟨old, oldStored, rfl⟩ := Option.map_eq_some_iff.mp stored
      have backedOld := backed.stored pubkey resource old oldStored
      constructor
      · rw [Grant.confirm_invoiceId]
        exact backedOld.created.mono step
      · rw [Grant.confirm_invoiceId]
        intro paid
        rcases Grant.confirm_status paid with already | now
        · exact step.saw (backedOld.confirmed already)
        · cases pays with
          | uncharged uncharged => cases uncharged
          | confirm reported =>
              rw [now]
              exact step.saw ⟨thread, member, reported⟩
  | consumed deleted =>
      rw [deleted] at stored
      dsimp only at stored
      split at stored
      · cases stored
      · exact (backed.stored pubkey resource grant stored).mono step

theorem GrantsBacked.initial {world : World} (initial : world.Initial) :
    GrantsBacked cfg ⟨world, []⟩ := by
  have nothing : ∀ event, ¬ Pool.Saw (⟨world, []⟩ : FloonetPool) event := by
    rintro event ⟨thread, member, -⟩
    cases member
  constructor
  case stored =>
    intro pubkey resource grant stored
    have none : world.db.grant pubkey resource = none := by
      rw [initial.db]
      rfl
    rw [none] at stored
    cases stored
  case read =>
    intro pubkey resource grant saw
    exact absurd saw (nothing _)
  case acquired =>
    intro mode name pubkey answer saw
    exact absurd saw (nothing _)

theorem GrantsBacked.step {label : Label World Request Op Op.Ans}
    (reachable : (server ext cfg).Reachable permitted pool)
    (step : (server ext cfg).Step pool label later)
    (backed : GrantsBacked cfg pool) : GrantsBacked cfg later := by
  constructor
  case stored =>
    intro pubkey resource grant stored
    cases step with
    | arrive request =>
        have step : (server ext cfg).Step pool _ _ := .arrive pool request
        exact (backed.stored pubkey resource grant stored).mono step
    | tick elapsed =>
        have step : (server ext cfg).Step pool _ _ := .tick pool elapsed
        exact (backed.stored pubkey resource grant stored).mono step
    | act env found pending =>
        have step : (server ext cfg).Step pool _ _ := .act env found pending
        exact backed.stored_step env reachable found pending step stored
  case read =>
    intro pubkey resource grant saw
    rcases (step.saw_iff _).mp saw with old | ⟨index, taken, rfl, isRead⟩
    · exact (backed.read pubkey resource grant old).mono step
    · cases step with
      | act env found pending =>
          have step : (server ext cfg).Step pool _ _ := .act env found pending
          obtain ⟨rfl, answer⟩ := taken_eq isRead
          exact (backed.stored pubkey resource grant answer.symm).mono step
  case acquired =>
    intro mode name pubkey answer saw
    rcases (step.saw_iff _).mp saw with old | ⟨index, taken, rfl, isInsert⟩
    · exact (backed.acquired mode name pubkey answer old).mono step
    · cases step with
      | @act _ thread _ _ env found pending =>
          have step : (server ext cfg).Step pool _ _ := .act env found pending
          have member := List.mem_of_getElem? found
          have pays := Reachable.pays reachable member pending
          obtain ⟨rfl, -⟩ := taken_eq isInsert
          generalize thread.request = request at pays
          cases pays with
          | uncharged uncharged => cases uncharged
          | acquire signed admitted =>
              exact (paidFor_of_admitted (backed.read pubkey "name") member
                (admitted mode)).mono step

theorem Reachable.grantsBacked
    (reachable : (server ext cfg).Reachable permitted pool) :
    GrantsBacked cfg pool :=
  Reachable.induct (fun _ initial => .initial initial)
    (fun _ _ _ before backed step _ => backed.step before step) reachable

/-! ## The paywall -/

/-- The thread registers a name for the key, or is about to. -/
def PastPaywall (thread : FloonetThread) (pubkey : String) : Prop :=
  ∃ name, thread.program.nextOp = some (.db (.insertName name pubkey)) ∨
    ∃ answer, History.Saw thread.events (.db (.insertName name pubkey)) answer

/-- A grant is paid only if the backend reported its invoice paid, a write
grant is confirmed and a registration passes the paywall only for a key with
an invoice that the backend reported paid. -/
theorem grants_backed_by_payments
    (reachable : (server ext cfg).Reachable permitted pool) :
    (∀ grant ∈ pool.state.db.paidGrants.rows, grant.status = .paid →
      InvoiceReported pool grant.invoiceId "paid") ∧
    (cfg.payMode = .write → ∀ thread ∈ pool.threads, ∀ raw headers pubkey,
      thread.request = .paidStatus raw headers →
        thread.program = .done (paidBody pubkey true) →
          PaidFor pool pubkey "write") ∧
    (cfg.payMode = .name → ∀ thread ∈ pool.threads, ∀ headers body pubkey,
      thread.request = .register headers body → PastPaywall thread pubkey →
        PaidFor pool pubkey "name") := by
  have backed := Reachable.grantsBacked reachable
  refine ⟨?paid, ?status, ?register⟩
  case paid =>
    intro grant stored paid
    have found := Db.grant_eq_some.mpr ⟨stored, rfl, rfl⟩
    exact (backed.stored _ _ grant found).confirmed paid
  case status =>
    intro mode thread member raw headers pubkey request finished
    have charged := Reachable.charged reachable member finished
    rw [request] at charged
    exact paidFor_of_admitted (backed.read pubkey "write") member
      (charged pubkey mode rfl)
  case register =>
    rintro mode thread member headers body pubkey request ⟨name, next | saw⟩
    · obtain ⟨next, pending⟩ := nextOp_eq_some.mp next
      have pays := Reachable.pays reachable member pending
      rw [request] at pays
      cases pays with
      | uncharged uncharged => cases uncharged
      | acquire signed admitted =>
          exact paidFor_of_admitted (backed.read pubkey "name") member
            (admitted mode)
    · obtain ⟨answer, saw⟩ := saw
      exact backed.acquired mode name pubkey answer ⟨thread, member, saw⟩

/-! ## A client that pays for a name -/

namespace Sample

/-- Registrations cost a grin and a half. -/
def payingConfig : Config :=
  { Config.forTest with
    payMode := .name
    namePriceNanogrin := 1500000000
    goblinpayUrl := "https://pay.example"
    goblinpayToken := "token" }

abbrev PayingMarket : FloonetSystem := server host payingConfig

/-- The seller registers `alice`. -/
def buy (id : String) (createdAt : Nat)
    (validId : validPubkeyHex id = true) : PayingMarket.Served where
  request := .register (signRequest host payingConfig (.ofHex id)
    (.ofHex seller) (.ofNat createdAt) .post "/api/v1/register"
    (registerBody "alice" seller)) (registerBody "alice" seller)
  program := opened payingConfig "reg"
    (MachineInt.asI64 (UInt64.ofNat createdAt).toNat) id (do
      if ← App.cooldownActive "namechange" seller
        payingConfig.nameChangeCooldown
      then return err .tooManyRequests "name_change_cooldown"
      registerName payingConfig seller "alice" seller)
  serves := by
    have accepted : registerRequest host payingConfig seller
        (registerBody "alice" seller) = .ok ("alice", seller) := by
      rw [← Validation.toOption_eq_some]
      decide +kernel
    rw [← Bytes32.toHex_ofHex seller_valid] at accepted
    have serves := register_signRequest host payingConfig (.ofHex id)
      (.ofHex seller) (.ofNat createdAt) accepted
    rw [Bytes32.toHex_ofHex validId, Bytes32.toHex_ofHex seller_valid] at serves
    exact serves

theorem firstBuy_id : validPubkeyHex
    "3758b71054853f4967ecbfba8087c20e14b623f2f58f0ec14f117fea1bee51e7" =
      true := by
  decide +kernel

def firstBuy : PayingMarket.Served :=
  buy "3758b71054853f4967ecbfba8087c20e14b623f2f58f0ec14f117fea1bee51e7"
    start firstBuy_id

def secondBuy : PayingMarket.Served :=
  buy "9c15bac2b7ef2de394a1a435ab5ed3072241c866992f30819932a87d26cf3cb2"
    (start + 1) (by decide +kernel)

theorem thirdBuy_id : validPubkeyHex
    "d231b9b0068d7b258cacbaf528a93aace54826f1efb4c94458f8bfcdb50164e4" =
      true := by
  decide +kernel

def thirdBuy : PayingMarket.Served :=
  buy "d231b9b0068d7b258cacbaf528a93aace54826f1efb4c94458f8bfcdb50164e4"
    (start + 2) thirdBuy_id

/-- A payment backend that creates the invoice `created` and answers `status`
about every invoice. -/
def backend (created status : String) : Env where
  tipHeight := .error "no node"
  kernel _ := .error "no node"
  createInvoice _ _ _ :=
    .ok ⟨created, "https://pay.example/" ++ created, "pending"⟩
  invoiceStatus _ := .ok status

/-- The seller is asked for a payment, pays, and is let in. -/
def purchase : List PayingMarket.Move :=
  PayingMarket.alone firstBuy 0 (backend "first" "pending") 12 ++
    PayingMarket.alone secondBuy 1 (backend "none" "paid") 15

end Sample

open Sample

theorem grants_backed_by_payments_purchase : ∃ pool : FloonetPool,
    PayingMarket.Reachable anyMove pool ∧
      ∃ grant ∈ pool.state.db.paidGrants.rows, grant.status = .paid ∧
        InvoiceReported pool grant.invoiceId "paid" := by
  have reached : ∃ pool, PayingMarket.Reachable anyMove pool ∧
      (pool.state.db.paidGrants.rows.any fun grant =>
        decide (grant.status = .paid)) = true :=
    play_reaches (fun _ _ _ => true) (fun _ _ _ _ => trivial) world_initial
      purchase (by decide +kernel)
  obtain ⟨pool, reachable, paid⟩ := reached
  obtain ⟨grant, stored, paid⟩ := List.any_eq_true.mp paid
  rw [decide_eq_true_iff] at paid
  exact ⟨pool, reachable, grant, stored, paid,
    (grants_backed_by_payments reachable).1 grant stored paid⟩

end Floonet
