import Floonet.PaidGrants

/-!
# Backends that never reuse an invoice id

With such a backend an invoice is recorded once: between its creation and the
upsert nobody can have seen it in a grant.
-/

namespace Floonet

open Concurrent Program System

variable {ext : Extern} {cfg : Config}
  {permitted : Permission World Request Op Op.Ans Response}
  {pool later : FloonetPool} {thread : FloonetThread}
  {label : Label World Request Op Op.Ans} {invoiceId : String}

/-- The backend answered a request for a new invoice with this id. -/
def InvoiceIssued (pool : FloonetPool) (invoiceId : String) : Prop :=
  ∃ orderRef price memo invoice,
    pool.Saw ⟨.createInvoice orderRef price memo, .ok invoice⟩ ∧
      invoice.id = invoiceId

/-- The backend never answers with an id that it has issued before. -/
def freshInvoices : Permission World Request Op Op.Ans Response :=
  fun pool label _ => ∀ index taken orderRef price memo invoice,
    label = .act index taken →
      taken.toEvent = ⟨.createInvoice orderRef price memo, .ok invoice⟩ →
        ¬ InvoiceIssued pool invoice.id

/-- Some request has recorded the invoice in a grant. -/
def InvoicePlaced (pool : FloonetPool) (invoiceId : String) : Prop :=
  ∃ pubkey resource invoice amount,
    pool.Saw ⟨.db (.putPendingGrant pubkey resource invoice amount), ()⟩ ∧
      invoice.id = invoiceId

/-- The request has received the invoice, and done nothing since. -/
def History.JustIssued (past : History) (invoiceId : String) : Prop :=
  ∃ orderRef price memo invoice,
    past.EndsWith (.createInvoice orderRef price memo) (.ok invoice) ∧
      invoice.id = invoiceId

theorem InvoiceIssued.mono (step : (server ext cfg).Step pool label later)
    (issued : InvoiceIssued pool invoiceId) :
    InvoiceIssued later invoiceId := by
  obtain ⟨orderRef, price, memo, invoice, saw, same⟩ := issued
  exact ⟨orderRef, price, memo, invoice, step.saw saw, same⟩

theorem InvoicePlaced.mono (step : (server ext cfg).Step pool label later)
    (placed : InvoicePlaced pool invoiceId) :
    InvoicePlaced later invoiceId := by
  obtain ⟨pubkey, resource, invoice, amount, saw, same⟩ := placed
  exact ⟨pubkey, resource, invoice, amount, step.saw saw, same⟩

theorem History.EndsWith.last {past : History} {op other : Op}
    {answer : op.Ans} {answer' : other.Ans}
    (ends : History.EndsWith (past ++ [⟨other, answer'⟩]) op answer) :
    (⟨other, answer'⟩ : Concurrent.Event Op Op.Ans) = ⟨op, answer⟩ := by
  obtain ⟨earlier, same⟩ := ends
  exact List.head_eq_of_cons_eq (List.append_inj' same rfl).2

theorem History.not_justIssued_nil : ¬ History.JustIssued [] invoiceId := by
  rintro ⟨_, _, _, _, ⟨earlier, same⟩, -⟩
  simp at same

theorem History.JustIssued.issued
    (just : History.JustIssued thread.events invoiceId)
    (member : thread ∈ pool.threads) : InvoiceIssued pool invoiceId := by
  obtain ⟨orderRef, price, memo, invoice, ⟨earlier, same⟩, isId⟩ := just
  refine ⟨orderRef, price, memo, invoice, ⟨thread, member, ?_⟩, isId⟩
  rw [same]
  exact List.mem_append_right _ List.mem_cons_self

theorem Reachable.justIssued
    (reachable : (server ext cfg).Reachable permitted pool)
    (member : thread ∈ pool.threads) {pubkey resource : String}
    {invoice : Invoice} {amount : Nat} {next : Unit → Handler Response}
    (pending : thread.program =
      .step (.db (.putPendingGrant pubkey resource invoice amount)) next) :
    History.JustIssued thread.events invoice.id := by
  have pays := Reachable.pays reachable member pending
  generalize thread.request = request at pays
  cases pays with
  | uncharged uncharged => cases uncharged
  | record created _ =>
      obtain ⟨price, memo, ends⟩ := created
      exact ⟨_, price, memo, invoice, ends, rfl⟩

theorem InvoicePlaced.of_step
    (reachable : (server ext cfg).Reachable permitted pool)
    (step : (server ext cfg).Step pool label later)
    (placed : InvoicePlaced later invoiceId) :
    InvoicePlaced pool invoiceId ∨ ∃ index taken actor,
      label = .act index taken ∧ pool.threads[index]? = some actor ∧
        History.JustIssued actor.events invoiceId := by
  obtain ⟨pubkey, resource, invoice, amount, saw, rfl⟩ := placed
  rcases (step.saw_iff _).mp saw with old | ⟨index, taken, rfl, isPut⟩
  · exact .inl ⟨pubkey, resource, invoice, amount, old, rfl⟩
  · cases step with
    | @act _ actor op next env found pending =>
        obtain ⟨rfl, -⟩ := taken_eq isPut
        exact .inr ⟨index, _, actor, rfl, found,
          Reachable.justIssued reachable (List.mem_of_getElem? found) pending⟩

structure InvoicesFresh (pool : FloonetPool) : Prop where
  issued : ∀ invoiceId, InvoicePlaced pool invoiceId →
    InvoiceIssued pool invoiceId
  unplaced : ∀ thread ∈ pool.threads, ∀ invoiceId,
    History.JustIssued thread.events invoiceId →
      ¬ InvoicePlaced pool invoiceId
  single : ∀ (index index' : Nat) (thread thread' : FloonetThread) invoiceId,
    pool.threads[index]? = some thread →
      pool.threads[index']? = some thread' →
        History.JustIssued thread.events invoiceId →
          History.JustIssued thread'.events invoiceId → index = index'
  stored : ∀ pubkey resource grant,
    pool.state.db.grant pubkey resource = some grant →
      InvoicePlaced pool grant.invoiceId
  read : ∀ pubkey resource grant,
    pool.Saw ⟨.db (.grant pubkey resource), some grant⟩ →
      InvoicePlaced pool grant.invoiceId

/-- A thread whose invoice was just issued has just received it, or did not
move. -/
theorem justIssued_of_step (step : (server ext cfg).Step pool label later)
    (fresh : freshInvoices pool label later) {index : Nat}
    (found : later.threads[index]? = some thread)
    (just : History.JustIssued thread.events invoiceId) :
    (¬ InvoiceIssued pool invoiceId ∧ ∃ taken, label = .act index taken) ∨
    (pool.threads[index]? = some thread ∧
      ∀ taken, label ≠ .act index taken) := by
  rcases step.thread_cases found with
    ⟨request, -, rfl⟩ | ⟨old, op, next, env, -, -, isAct, -, rfl⟩ | same
  · exact absurd just History.not_justIssued_nil
  · obtain ⟨orderRef, price, memo, invoice, ends, rfl⟩ := just
    rw [Thread.advance_events] at ends
    exact .inl ⟨fresh index _ orderRef price memo invoice isAct ends.last,
      _, isAct⟩
  · exact .inr same

theorem InvoicesFresh.step
    (reachable : (server ext cfg).Reachable permitted pool)
    (step : (server ext cfg).Step pool label later)
    (fresh : freshInvoices pool label later) (inv : InvoicesFresh pool) :
    InvoicesFresh later := by
  constructor
  case issued =>
    intro invoiceId placed
    rcases placed.of_step reachable step with
      old | ⟨index, taken, actor, -, found, just⟩
    · exact (inv.issued invoiceId old).mono step
    · exact (just.issued (List.mem_of_getElem? found)).mono step
  case unplaced =>
    intro thread member invoiceId just placed
    obtain ⟨index, found⟩ := List.getElem?_of_mem member
    rcases justIssued_of_step step fresh found just with
      ⟨unissued, -⟩ | ⟨same, notOwn⟩
    · rcases placed.of_step reachable step with
        old | ⟨_, _, actor, -, actorFound, actorJust⟩
      · exact unissued (inv.issued invoiceId old)
      · exact unissued (actorJust.issued (List.mem_of_getElem? actorFound))
    · rcases placed.of_step reachable step with
        old | ⟨_, taken, actor, isAct, actorFound, actorJust⟩
      · exact inv.unplaced thread (List.mem_of_getElem? same) invoiceId just old
      · have isActor := inv.single _ _ thread actor invoiceId same actorFound
          just actorJust
        rw [← isActor] at isAct
        exact notOwn taken isAct
  case single =>
    intro index index' thread thread' invoiceId found found' just just'
    rcases justIssued_of_step step fresh found just,
        justIssued_of_step step fresh found' just' with
      ⟨⟨unissued, taken, isAct⟩ | ⟨same, notOwn⟩,
        ⟨unissued', taken', isAct'⟩ | ⟨same', notOwn'⟩⟩
    · rw [isAct] at isAct'
      cases isAct'
      rfl
    · exact absurd (just'.issued (List.mem_of_getElem? same')) unissued
    · exact absurd (just.issued (List.mem_of_getElem? same)) unissued'
    · exact inv.single index index' thread thread' invoiceId same same' just
        just'
  case stored =>
    intro pubkey resource grant stored
    cases step with
    | arrive request =>
        have step : (server ext cfg).Step pool _ _ := .arrive pool request
        exact (inv.stored pubkey resource grant stored).mono step
    | tick elapsed =>
        have step : (server ext cfg).Step pool _ _ := .tick pool elapsed
        exact (inv.stored pubkey resource grant stored).mono step
    | act env found pending =>
        have step : (server ext cfg).Step pool _ _ := .act env found pending
        rcases Op.exec_grant_origin env stored with
          ⟨old, oldStored, same⟩ | ⟨invoice, amount, rfl, same⟩
        · rw [← same]
          exact (inv.stored pubkey resource old oldStored).mono step
        · exact ⟨pubkey, resource, invoice, amount,
            (step.saw_iff _).mpr (.inr ⟨_, _, rfl, rfl⟩), same.symm⟩
  case read =>
    intro pubkey resource grant saw
    rcases (step.saw_iff _).mp saw with old | ⟨index, taken, rfl, isRead⟩
    · exact (inv.read pubkey resource grant old).mono step
    · cases step with
      | act env found pending =>
          have step : (server ext cfg).Step pool _ _ := .act env found pending
          obtain ⟨rfl, answer⟩ := taken_eq isRead
          exact (inv.stored pubkey resource grant answer.symm).mono step

theorem Reachable.invoicesFresh
    (reachable : (server ext cfg).Reachable freshInvoices pool) :
    InvoicesFresh pool := by
  refine Reachable.induct (motive := InvoicesFresh) ?start
    (fun _ _ _ reachable inv step fresh => inv.step reachable step fresh)
    reachable
  intro state initial
  have nothing : ∀ event, ¬ Pool.Saw (⟨state, []⟩ : FloonetPool) event := by
    rintro event ⟨thread, member, -⟩
    cases member
  have none : ∀ pubkey resource, state.db.grant pubkey resource = none := by
    intro pubkey resource
    rw [initial.db]
    rfl
  constructor
  case issued =>
    rintro invoiceId ⟨_, _, _, _, saw, -⟩
    exact absurd saw (nothing _)
  case unplaced => exact fun thread member => nomatch member
  case single => exact fun _ _ thread _ _ found => nomatch found
  case stored =>
    intro pubkey resource grant stored
    rw [none] at stored
    cases stored
  case read =>
    intro pubkey resource grant saw
    exact absurd saw (nothing _)

end Floonet
