import Floonet.PaidGrants

/-!
# Invoices that clients were asked to pay

`ensure_paid` reads the grant, asks the payment backend, and then upserts over
whatever the row has become.  An invoice stays on record until it expires or
is spent as long as every upsert finds the row that its request has read, or
none.
-/

namespace Floonet

open Concurrent Program System

variable {ext : Extern} {cfg : Config} {pool later : FloonetPool}

/-- An upsert replaces no other row than the one its request read last. -/
def upsertsCurrent : Permission World Request Op Op.Ans Response :=
  fun pool label _ => ∀ index taken thread pubkey resource invoice amount,
    label = .act index taken → pool.threads[index]? = some thread →
      taken.op = .db (.putPendingGrant pubkey resource invoice amount) →
        ∀ grant, pool.state.db.grant pubkey resource = some grant →
          History.LastSaw thread.events (.db (.grant pubkey resource))
            (some grant)

/-- The invoice is the one in the row of the key and the resource. -/
def InvoiceRecorded (pool : FloonetPool)
    (pubkey resource invoiceId : String) : Prop :=
  ∃ grant, pool.state.db.grant pubkey resource = some grant ∧
    grant.invoiceId = invoiceId

/-- A registration of the key has consumed the grant with the invoice. -/
def InvoiceSpent (pool : FloonetPool)
    (pubkey resource invoiceId : String) : Prop :=
  ∃ thread ∈ pool.threads, ∃ headers body,
    thread.request = .register headers body ∧ headers.signer = some pubkey ∧
      ∃ taken ∈ thread.past, taken.op = .db (.consumeGrant pubkey resource) ∧
        ∃ grant, taken.before.db.grant pubkey resource = some grant ∧
          grant.invoiceId = invoiceId

/-- The invoice is on record, or has expired, or was spent. -/
def InvoiceKept (pool : FloonetPool)
    (pubkey resource invoiceId : String) : Prop :=
  InvoiceRecorded pool pubkey resource invoiceId ∨
    InvoiceReported pool invoiceId "expired" ∨
      InvoiceSpent pool pubkey resource invoiceId

variable {label : Label World Request Op Op.Ans}
  {pubkey resource invoiceId : String}

theorem InvoiceSpent.mono (step : (server ext cfg).Step pool label later)
    (spent : InvoiceSpent pool pubkey resource invoiceId) :
    InvoiceSpent later pubkey resource invoiceId := by
  obtain ⟨thread, member, headers, body, request, signed, taken, takenMember,
    consumes⟩ := spent
  obtain ⟨thread', member', sameRequest, more⟩ := step.continues member
  exact ⟨thread', member', headers, body, sameRequest.trans request, signed,
    taken, more.subset takenMember, consumes⟩

theorem upsert_expired {thread : FloonetThread} {invoice : Invoice}
    {amount : Nat} {grant : Grant}
    (pays : Pays cfg thread.request thread.events
      (.db (.putPendingGrant pubkey resource invoice amount)))
    (current : History.LastSaw thread.events (.db (.grant pubkey resource))
      (some grant)) :
    grant.status ≠ .paid ∧
      History.Reported thread.events grant.invoiceId "expired" := by
  generalize thread.request = request at pays
  cases pays with
  | uncharged uncharged => cases uncharged
  | record _ rolls =>
      rcases rolls with none | ⟨read, last, unpaid, expired⟩
      · cases none.unique current
      · cases last.unique current
        exact ⟨unpaid, expired⟩

theorem Pays.consumes {request : Request} {past : History}
    (pays : Pays cfg request past (.db (.consumeGrant pubkey resource))) :
    ∃ headers body, request = .register headers body ∧
      headers.signer = some pubkey := by
  cases pays with
  | uncharged uncharged => cases uncharged
  | @consume headers body past _ signed => exact ⟨headers, body, rfl, signed⟩

theorem InvoiceRecorded.step {permitted}
    (reachable : (server ext cfg).Reachable permitted pool)
    (step : (server ext cfg).Step pool label later)
    (current : upsertsCurrent pool label later)
    (recorded : InvoiceRecorded pool pubkey resource invoiceId) :
    InvoiceKept later pubkey resource invoiceId := by
  obtain ⟨grant, stored, rfl⟩ := recorded
  cases step with
  | arrive => exact .inl ⟨grant, stored, rfl⟩
  | tick => exact .inl ⟨grant, stored, rfl⟩
  | @act index thread op next env found pending =>
      have step : (server ext cfg).Step pool _ _ := .act env found pending
      have member := List.mem_of_getElem? found
      have pays := Reachable.pays reachable member pending
      have effect := op.exec_grants env pool.state
      cases effect with
      | kept _ same =>
          exact .inl ⟨grant, (congrFun₂ same pubkey resource).trans stored, rfl⟩
      | @recorded key ware invoice amount put =>
          by_cases isKey : pubkey = key ∧ resource = ware
          · obtain ⟨rfl, rfl⟩ := isKey
            have read := current index _ thread pubkey resource invoice amount
              rfl found rfl grant stored
            have expired := (upsert_expired pays read).2
            exact .inr (.inl (step.saw ⟨thread, member, expired⟩))
          · refine .inl ⟨grant, ?_, rfl⟩
            rw [← stored]
            exact (congrFun₂ put pubkey resource).trans (if_neg isKey)
      | @confirmed confirmedId marked =>
          refine .inl ⟨grant.confirm confirmedId pool.state.unixTime.seconds,
            ?_, grant.confirm_invoiceId ..⟩
          refine (congrFun₂ marked pubkey resource).trans ?_
          rw [stored, Option.map_some]
      | @consumed key ware deleted =>
          by_cases isKey : pubkey = key ∧ resource = ware
          · obtain ⟨rfl, rfl⟩ := isKey
            obtain ⟨headers, body, request, signed⟩ := pays.consumes
            have bound := (List.getElem?_eq_some_iff.mp found).1
            exact .inr (.inr ⟨_, List.mem_set bound _, headers, body, request,
              signed, _, List.mem_append_right _ List.mem_cons_self, rfl,
              grant, stored, rfl⟩)
          · refine .inl ⟨grant, ?_, rfl⟩
            rw [← stored]
            exact (congrFun₂ deleted pubkey resource).trans (if_neg isKey)

theorem InvoiceKept.step {permitted}
    (reachable : (server ext cfg).Reachable permitted pool)
    (step : (server ext cfg).Step pool label later)
    (current : upsertsCurrent pool label later)
    (kept : InvoiceKept pool pubkey resource invoiceId) :
    InvoiceKept later pubkey resource invoiceId := by
  rcases kept with recorded | expired | spent
  · exact recorded.step reachable step current
  · exact .inr (.inl (step.saw expired))
  · exact .inr (.inr (spent.mono step))

theorem recorded_of_step {env : Env} {op : Op} {state : World}
    {threads : List FloonetThread}
    (quotes : History.Quoted
      [((server ext cfg).taken env op state).toEvent] pubkey resource
        invoiceId) :
    InvoiceRecorded ⟨(op.exec env state).2, threads⟩ pubkey resource
      invoiceId := by
  rcases quotes with ⟨grant, saw, same⟩ | ⟨invoice, price, saw, same⟩
  · obtain ⟨rfl, answer⟩ := taken_eq (List.mem_singleton.mp saw).symm
    exact ⟨grant, answer.symm, same⟩
  · obtain ⟨rfl, -⟩ := taken_eq (List.mem_singleton.mp saw).symm
    refine ⟨Db.pendingGrant pubkey resource invoice.id invoice.payUrl
      (MachineInt.asI64 price) state.unixTime.seconds, ?_, same⟩
    refine (congrFun₂ (state.db.putPendingGrant_grant ..) pubkey
      resource).trans ?_
    exact if_pos ⟨rfl, rfl⟩

theorem History.Quoted.of_append {past new : History}
    (quoted : History.Quoted (past ++ new) pubkey resource invoiceId) :
    past.Quoted pubkey resource invoiceId ∨
      new.Quoted pubkey resource invoiceId := by
  rcases quoted with ⟨grant, saw, same⟩ | ⟨invoice, price, saw, same⟩
  · exact (List.mem_append.mp saw).imp (fun old => .inl ⟨grant, old, same⟩)
      fun fresh => .inl ⟨grant, fresh, same⟩
  · exact (List.mem_append.mp saw).imp
      (fun old => .inr ⟨invoice, price, old, same⟩)
      fun fresh => .inr ⟨invoice, price, fresh, same⟩

/-- What a request has read or recorded is kept. -/
theorem Reachable.quotedKept
    (reachable : (server ext cfg).Reachable upsertsCurrent pool) :
    ∀ thread ∈ pool.threads, ∀ pubkey resource invoiceId,
      History.Quoted thread.events pubkey resource invoiceId →
        InvoiceKept pool pubkey resource invoiceId := by
  refine Reachable.induct (motive := fun pool => ∀ thread ∈ pool.threads,
    ∀ pubkey resource invoiceId,
      History.Quoted thread.events pubkey resource invoiceId →
        InvoiceKept pool pubkey resource invoiceId) ?start ?step reachable
  case start => simp
  case step =>
    intro pool label later before induction step current thread member pubkey
      resource invoiceId quoted
    obtain ⟨index, found⟩ := List.getElem?_of_mem member
    rcases step.thread_cases found with
      ⟨request, -, rfl⟩ | ⟨old, op, next, env, oldFound, -, -, after, rfl⟩ |
      ⟨same, -⟩
    · rcases quoted with ⟨_, saw, -⟩ | ⟨_, _, saw, -⟩ <;> cases saw
    · rw [Thread.advance_events] at quoted
      rcases quoted.of_append with earlier | now
      · exact (induction old (List.mem_of_getElem? oldFound) pubkey resource
          invoiceId earlier).step before step current
      · obtain ⟨state, threads⟩ := later
        cases after
        exact .inl (recorded_of_step now)
    · exact (induction thread (List.mem_of_getElem? same) pubkey resource
        invoiceId quoted).step before step current

/-- An invoice that a client was asked to pay is kept. -/
theorem asked_invoice_kept
    (reachable : (server ext cfg).Reachable upsertsCurrent pool)
    (member : thread ∈ pool.threads) {headers : Headers} {body : Bytes}
    (request : thread.request = .register headers body ∨
      thread.request = .quote headers body)
    {payUrl : String} {price : Nat} (signed : headers.signer = some pubkey)
    (finished : thread.program =
      .done (paymentRequired resource invoiceId payUrl price)) :
    InvoiceKept pool pubkey resource invoiceId := by
  have charged := Reachable.charged reachable member finished
  have asks : Asks headers thread.events
      (paymentRequired resource invoiceId payUrl price) := by
    rcases request with isRegister | isQuote
    · rw [isRegister] at charged
      exact charged.1
    · rw [isQuote] at charged
      exact charged
  obtain ⟨pubkey', resource', invoiceId', _, _, signed', same, quoted⟩ :=
    asks rfl
  obtain ⟨rfl, rfl⟩ := paymentRequired_inj same
  rw [signed] at signed'
  cases signed'
  exact Reachable.quotedKept reachable thread member pubkey resource
    invoiceId quoted

/-- A step sets no paid row back. -/
theorem paid_row_kept
    (reachable : (server ext cfg).Reachable upsertsCurrent pool)
    (step : (server ext cfg).Step pool label later)
    (current : upsertsCurrent pool label later) {grant grant' : Grant}
    (stored : pool.state.db.grant pubkey resource = some grant)
    (paid : grant.status = .paid)
    (stored' : later.state.db.grant pubkey resource = some grant') :
    grant' = grant := by
  cases step with
  | arrive => exact Option.some.inj (stored'.symm.trans stored)
  | tick => exact Option.some.inj (stored'.symm.trans stored)
  | @act index thread op next env found pending =>
      have pays := Reachable.pays reachable (List.mem_of_getElem? found)
        pending
      cases op.exec_grants env pool.state with
      | kept _ same =>
          have stored' := (congrFun₂ same pubkey resource).symm.trans stored'
          exact Option.some.inj (stored'.symm.trans stored)
      | @recorded key ware invoice amount put =>
          have after := (congrFun₂ put pubkey resource).symm.trans stored'
          split at after
          · rename_i isKey
            obtain ⟨rfl, rfl⟩ := isKey
            have read := current index _ thread pubkey resource invoice
              amount rfl found rfl grant stored
            exact absurd paid (upsert_expired pays read).1
          · exact Option.some.inj (after.symm.trans stored)
      | @confirmed confirmedId marked =>
          have after := (congrFun₂ marked pubkey resource).symm.trans stored'
          rw [stored, Option.map_some, Grant.confirm_of_paid paid] at after
          exact (Option.some.inj after).symm
      | @consumed key ware deleted =>
          have after := (congrFun₂ deleted pubkey resource).symm.trans stored'
          split at after
          · cases after
          · exact Option.some.inj (after.symm.trans stored)

/-- While upserts replace no other row than the one their request read, an
invoice that a client was asked to pay is kept, and a paid row is never set
back. -/
theorem invoices_kept
    (reachable : (server ext cfg).Reachable upsertsCurrent pool) :
    (∀ thread ∈ pool.threads, ∀ headers body,
      thread.request = .register headers body ∨
          thread.request = .quote headers body →
        ∀ pubkey resource invoiceId payUrl price,
          headers.signer = some pubkey → thread.program =
              .done (paymentRequired resource invoiceId payUrl price) →
            InvoiceKept pool pubkey resource invoiceId) ∧
    ∀ label later, (server ext cfg).Step pool label later →
      upsertsCurrent pool label later → ∀ pubkey resource grant,
        pool.state.db.grant pubkey resource = some grant →
          grant.status = .paid → ∀ grant',
            later.state.db.grant pubkey resource = some grant' →
              grant' = grant := by
  constructor
  · intro thread member headers body request pubkey resource invoiceId payUrl
      price signed finished
    exact asked_invoice_kept reachable member request signed finished
  · intro label later step current pubkey resource grant stored paid grant'
      stored'
    exact paid_row_kept reachable step current stored paid stored'

section Schedules

open Sample

/-- The thread has asked the key to pay an invoice for a name. -/
def asksFor (pubkey invoiceId : String) (thread : FloonetThread) : Bool :=
  thread.request.registers &&
    decide (thread.request.signer = some pubkey) &&
    thread.program.result?.any fun response =>
      decide (response.status = .paymentRequired ∧
        (response.body.get "resource").bind Json.asStr = some "name" ∧
        (response.body.get "invoice_id").bind Json.asStr = some invoiceId)

theorem asksFor_iff {permitted}
    (reachable : PayingMarket.Reachable permitted pool)
    {thread : FloonetThread} (member : thread ∈ pool.threads)
    (asks : asksFor pubkey invoiceId thread = true) :
    ∃ headers body payUrl price, thread.request = .register headers body ∧
      headers.signer = some pubkey ∧ thread.program =
        .done (paymentRequired "name" invoiceId payUrl price) := by
  simp only [asksFor, Bool.and_eq_true, decide_eq_true_iff,
    Request.registers_iff] at asks
  obtain ⟨⟨⟨headers, body, request⟩, signed⟩, asked⟩ := asks
  rw [request] at signed
  obtain ⟨response, finished, asked⟩ := (Option.any_eq_true _ _).mp asked
  rw [result?_eq_some] at finished
  obtain ⟨status, resource, invoice⟩ := of_decide_eq_true asked
  have charged := Reachable.charged reachable member finished
  rw [request] at charged
  obtain ⟨_, resource', invoiceId', payUrl, price, -, rfl, -⟩ :=
    charged.1 status
  have isResource : resource' = "name" := Option.some.inj resource
  have isInvoice : invoiceId' = invoiceId := Option.some.inj invoice
  rw [isResource, isInvoice] at finished
  exact ⟨headers, body, payUrl, price, request, signed, finished⟩

/-- Invoices are recorded where there is no grant. -/
def recordsAfresh (pool : FloonetPool) :
    Label World Request Op Op.Ans → Bool
  | .act _ taken =>
      match taken.op with
      | .db (.putPendingGrant pubkey resource _ _) =>
          (pool.state.db.grant pubkey resource).isNone
      | _ => true
  | _ => true

theorem upsertsCurrent_of_recordsAfresh {pool later : FloonetPool}
    {label : Label World Request Op Op.Ans}
    (afresh : recordsAfresh pool label = true) :
    upsertsCurrent pool label later := by
  rintro index taken thread pubkey resource invoice amount rfl found records
    grant stored
  simp only [recordsAfresh, records, Option.isNone_iff_eq_none] at afresh
  rw [afresh] at stored
  cases stored

/-- The seller is asked to pay for a name. -/
theorem invoices_kept_purchase : ∃ pool : FloonetPool,
    PayingMarket.Reachable upsertsCurrent pool ∧ ∃ thread ∈ pool.threads,
      ∃ payUrl price, thread.program =
          .done (paymentRequired "name" "first" payUrl price) ∧
        InvoiceKept pool seller "name" "first" := by
  have reached : ∃ pool, PayingMarket.Reachable upsertsCurrent pool ∧
      pool.threads.any (asksFor seller "first") = true :=
    play_reaches (fun pool label _ => recordsAfresh pool label)
      (fun _ _ _ => upsertsCurrent_of_recordsAfresh) world_initial purchase
      (by decide +kernel)
  obtain ⟨pool, reachable, asked⟩ := reached
  obtain ⟨thread, member, asked⟩ := List.any_eq_true.mp asked
  obtain ⟨headers, body, payUrl, price, request, signed, finished⟩ :=
    asksFor_iff reachable member asked
  exact ⟨pool, reachable, thread, member, payUrl, price, finished,
    (invoices_kept reachable).1 thread member headers body (.inl request)
      seller "name" "first" payUrl price signed finished⟩

/-- A registration that saw no grant records its invoice over the one the
seller was asked to pay and has paid. -/
def crossedPurchases : List PayingMarket.Move :=
  PayingMarket.alone firstBuy 0 (backend "second" "pending") 11 ++
    PayingMarket.alone secondBuy 1 (backend "first" "pending") 12 ++
    PayingMarket.alone thirdBuy 2 (backend "none" "paid") 15

/-- Steps after which an invoice need not be on record any more. -/
def Op.closes : (op : Op) → op.Ans → Bool
  | .invoiceStatus _, .ok status => status == "expired"
  | .db (.consumeGrant _ _), _ => true
  | _, _ => false

theorem not_kept {grant : Grant}
    (stored : pool.state.db.grant pubkey resource = some grant)
    (other : grant.invoiceId ≠ invoiceId)
    (open_ : (pool.threads.all fun thread => thread.past.all fun taken =>
      !taken.op.closes taken.answer) = true) :
    ¬ InvoiceKept pool pubkey resource invoiceId := by
  have opened : ∀ thread ∈ pool.threads, ∀ taken ∈ thread.past,
      taken.op.closes taken.answer = false := by
    simpa [List.all_eq_true] using open_
  rintro (⟨grant', stored', same⟩ | ⟨thread, member, saw⟩ |
    ⟨thread, member, -, -, -, -, taken, takenMember, consumes, -⟩)
  · rw [stored] at stored'
    cases stored'
    exact other same
  · obtain ⟨taken, takenMember, isEvent⟩ := Thread.mem_events.mp saw
    have closes := opened thread member taken takenMember
    obtain ⟨⟨op, answer⟩, before, after⟩ := taken
    cases isEvent
    exact absurd closes (by simp [Op.closes])
  · have closes := opened thread member taken takenMember
    obtain ⟨⟨op, answer⟩, before, after⟩ := taken
    cases consumes
    cases closes

/-- A paid grant is set back to a new invoice, and the one that the seller
was asked to pay and has paid is lost. -/
theorem paid_invoice_lost : ∃ (pool : FloonetPool) (label : _)
    (later : FloonetPool), PayingMarket.Reachable anyMove pool ∧
      PayingMarket.Step pool label later ∧
      (∃ thread ∈ pool.threads, ∃ headers body payUrl price,
        thread.request = .register headers body ∧
          headers.signer = some seller ∧ thread.program =
            .done (paymentRequired "name" "first" payUrl price)) ∧
      (∃ grant, pool.state.db.grant seller "name" = some grant ∧
        grant.invoiceId = "first" ∧ grant.status = .paid) ∧
      (∃ grant, later.state.db.grant seller "name" = some grant ∧
        grant.invoiceId = "second" ∧ grant.status = .pending) ∧
      ¬ InvoiceKept later seller "name" "first" := by
  obtain ⟨pool, label, later, reachable, step, -, crossed⟩ :
      ∃ (pool : FloonetPool) (label : _) (later : FloonetPool),
        PayingMarket.Reachable anyMove pool ∧
        PayingMarket.Step pool label later ∧ anyMove pool label later ∧
        (pool.threads.any (asksFor seller "first") = true ∧
        ((pool.state.db.grant seller "name").any fun grant =>
          decide (grant.invoiceId = "first" ∧ grant.status = .paid)) = true ∧
        ((later.state.db.grant seller "name").any fun grant =>
          decide (grant.invoiceId = "second" ∧ grant.status = .pending)) =
            true ∧
        (later.threads.all fun thread => thread.past.all fun taken =>
          !taken.op.closes taken.answer) = true) :=
    play_steps_once (fun _ _ _ => true) (fun _ _ _ _ => trivial) world_initial
      crossedPurchases (.act 0 (backend "none" "pending")) (by decide +kernel)
  obtain ⟨asked, before, after, open_⟩ := crossed
  obtain ⟨thread, member, asked⟩ := List.any_eq_true.mp asked
  obtain ⟨old, stored, paid⟩ := (Option.any_eq_true _ _).mp before
  obtain ⟨new, stored', pending⟩ := (Option.any_eq_true _ _).mp after
  rw [decide_eq_true_iff] at paid pending
  refine ⟨pool, label, later, reachable, step,
    ⟨thread, member, asksFor_iff reachable member asked⟩,
    ⟨old, stored, paid⟩, ⟨new, stored', pending⟩, ?_⟩
  refine not_kept stored' ?_ open_
  rw [pending.1]
  decide

end Schedules

end Floonet
