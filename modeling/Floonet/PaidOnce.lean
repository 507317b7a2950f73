import Floonet.FreshInvoices
import Floonet.InvoiceRecords
import Floonet.Registrations
import Mathlib.Data.List.Dedup

/-!
# One payment, one registration

A registration checks the grant, inserts the name and deletes the grant in
three steps.  Two registrations can pass on one grant only if the name of the
first is released while the second is still under way.
-/

namespace Floonet

open Concurrent Program System

variable {ext : Extern} {cfg : Config}
  {permitted : Permission World Request Op Op.Ans Response}
  {pool later : FloonetPool} {thread : FloonetThread}
  {label : Label World Request Op Op.Ans} {pubkey invoiceId : String}

/-! ## Registrations and their invoices -/

namespace History

/-- The request has read the invoice in the grant for names. -/
def ReadInvoice (past : History) (pubkey invoiceId : String) : Prop :=
  ∃ grant, past.Saw (.db (.grant pubkey "name")) (some grant) ∧
    grant.invoiceId = invoiceId

/-- The request has registered a name for the key. -/
def Registered (past : History) (pubkey : String) : Prop :=
  ∃ name count, past.Saw (.db (.insertName name pubkey)) (.ok (count + 1))

/-- The request has registered a name for the key, and had read the invoice
before. -/
def RegisteredWith (past : History) (pubkey invoiceId : String) : Prop :=
  ∃ (earlier : History) (name : String) (count : Nat),
    earlier ++ [⟨.db (.insertName name pubkey), .ok (count + 1)⟩] <+: past ∧
      earlier.ReadInvoice pubkey invoiceId

theorem ReadInvoice.append {past : History}
    (read : past.ReadInvoice pubkey invoiceId) (new : History) :
    History.ReadInvoice (past ++ new) pubkey invoiceId := by
  obtain ⟨grant, saw, same⟩ := read
  exact ⟨grant, saw.append new, same⟩

theorem Registered.append {past : History} (registered : past.Registered pubkey)
    (new : History) : History.Registered (past ++ new) pubkey := by
  obtain ⟨name, count, saw⟩ := registered
  exact ⟨name, count, saw.append new⟩

theorem RegisteredWith.append {past : History}
    (bought : past.RegisteredWith pubkey invoiceId) (new : History) :
    History.RegisteredWith (past ++ new) pubkey invoiceId := by
  obtain ⟨earlier, name, count, begins, read⟩ := bought
  exact ⟨earlier, name, count, begins.trans (List.prefix_append _ _), read⟩

theorem RegisteredWith.registered {past : History}
    (bought : past.RegisteredWith pubkey invoiceId) :
    past.Registered pubkey := by
  obtain ⟨earlier, name, count, begins, -⟩ := bought
  exact ⟨name, count, begins.subset (by simp)⟩

theorem RegisteredWith.read {past : History}
    (bought : past.RegisteredWith pubkey invoiceId) :
    past.ReadInvoice pubkey invoiceId := by
  obtain ⟨earlier, name, count, ⟨rest, rfl⟩, read⟩ := bought
  exact (read.append _).append _

theorem RegisteredWith.snoc_cases {past : History} {op : Op} {answer : op.Ans}
    (bought : History.RegisteredWith (past ++ [⟨op, answer⟩]) pubkey
      invoiceId) :
    past.RegisteredWith pubkey invoiceId ∨
      past.ReadInvoice pubkey invoiceId ∧ ∃ name count,
        (⟨op, answer⟩ : Concurrent.Event Op Op.Ans) =
          ⟨.db (.insertName name pubkey), .ok (count + 1)⟩ := by
  obtain ⟨earlier, name, count, begins, read⟩ := bought
  rcases List.prefix_concat_iff.mp begins with last | old
  · obtain ⟨rfl, same⟩ := List.append_inj' last rfl
    exact .inr ⟨read, name, count, (List.head_eq_of_cons_eq same).symm⟩
  · exact .inl ⟨earlier, name, count, old, read⟩

theorem not_readInvoice_nil : ¬ History.ReadInvoice [] pubkey invoiceId := by
  rintro ⟨grant, saw, -⟩
  cases saw

end History

/-- The thread serves a registration signed by the key. -/
def RegistersFor (thread : FloonetThread) (pubkey : String) : Prop :=
  ∃ headers body, thread.request = .register headers body ∧
    headers.signer = some pubkey

/-- The step takes a name away from the key. -/
def Op.releases (db : Db) (pubkey : String) : Op → Prop
  | .db (.releaseName name) => db.lookup name = some pubkey
  | .db (.runClaimTxn offer _ _ _) =>
      offer.sellerPubkey = pubkey ∧ db.lookup offer.name = some pubkey
  | _ => False

/-- No name is taken away from a key while a registration for it is under way
that has read an invoice with which one has registered already. -/
def releasesApart : Permission World Request Op Op.Ans Response :=
  fun pool label _ => ∀ index taken pubkey, label = .act index taken →
    taken.op.releases pool.state.db pubkey →
      ∀ thread ∈ pool.threads, RegistersFor thread pubkey →
        ¬ thread.Finished → ∀ invoiceId,
          History.ReadInvoice thread.events pubkey invoiceId →
            ∀ other ∈ pool.threads,
              ¬ History.RegisteredWith other.events pubkey invoiceId

/-- The backend does not reuse invoice ids, and releases stay apart from
registrations. -/
def registersApart : Permission World Request Op Op.Ans Response :=
  fun pool label later =>
    freshInvoices pool label later ∧ releasesApart pool label later

/-! ## One step -/

theorem Op.keeps_nameOf (env : Env) {op : Op} {world : World} {name : String}
    (named : world.db.nameOf pubkey = some name)
    (keeps : ¬ op.releases world.db pubkey) :
    (op.exec env world).2.db.nameOf pubkey = some name := by
  have owned := Db.lookup_eq_some_iff_nameOf.mpr named
  refine Db.lookup_eq_some_iff_nameOf.mp (Classical.byContradiction ?_)
  intro lost
  rcases (op.exec_effect env world).loses owned lost with
    rfl | ⟨offer, _, _, _, rfl, rfl, rfl⟩
  · exact keeps owned
  · exact keeps ⟨rfl, owned⟩

/-- While releases stay apart, a key keeps its name. -/
theorem named_of_step (step : (server ext cfg).Step pool label later)
    (apart : releasesApart pool label later) {name : String}
    (named : pool.state.db.nameOf pubkey = some name)
    (member : thread ∈ pool.threads) (registers : RegistersFor thread pubkey)
    (running : ¬ thread.Finished)
    (read : History.ReadInvoice thread.events pubkey invoiceId)
    {other : FloonetThread} (otherMember : other ∈ pool.threads)
    (bought : History.RegisteredWith other.events pubkey invoiceId) :
    later.state.db.nameOf pubkey = some name := by
  cases step with
  | arrive => exact named
  | tick => exact named
  | @act index actor op next env found pending =>
      refine Op.keeps_nameOf env named fun releases => ?_
      exact apart index _ pubkey rfl releases thread member registers running
        invoiceId read other otherMember bought

/-- The step registers a name for the key, on behalf of this thread. -/
structure Enters (pool : FloonetPool) (label : Label World Request Op Op.Ans)
    (later : FloonetPool) (index : Nat) (thread : FloonetThread)
    (pubkey : String) : Prop where
  found : pool.threads[index]? = some thread
  acts : ∃ taken, label = .act index taken
  running : ¬ thread.Finished
  registers : RegistersFor thread pubkey
  nameless : pool.state.db.nameOf pubkey = none
  named : ∃ name, later.state.db.nameOf pubkey = some name

theorem Pays.registers {request : Request} {past : History} {name : String}
    (pays : Pays cfg request past (.db (.insertName name pubkey))) :
    (∃ headers body, request = .register headers body ∧
      headers.signer = some pubkey) ∧
    (cfg.payMode = .name → past.Admitted pubkey "name") := by
  cases pays with
  | uncharged uncharged => cases uncharged
  | acquire signed admitted => exact ⟨⟨_, _, rfl, signed⟩, admitted⟩

theorem enters_of_insertName
    (reachable : (server ext cfg).Reachable permitted pool) {index : Nat}
    (found : pool.threads[index]? = some thread) {name : String} {count : Nat}
    {next : Except SqlError Nat → Handler Response} (env : Env)
    (pending : thread.program = .step (.db (.insertName name pubkey)) next)
    (done : ((Op.db (.insertName name pubkey)).exec env pool.state).1 =
      .ok (count + 1))
    (acts : label = .act index ((server ext cfg).taken env
      (.db (.insertName name pubkey)) pool.state))
    (after : later.state =
      ((Op.db (.insertName name pubkey)).exec env pool.state).2) :
    Enters pool label later index thread pubkey := by
  have pays := Reachable.pays reachable (List.mem_of_getElem? found) pending
  have effect := (Op.db (.insertName name pubkey)).exec_effect env pool.state
  rw [done] at effect
  refine ⟨found, ⟨_, acts⟩, Thread.not_finished_of_pending pending,
    pays.registers.1, ?_, name, ?_⟩
  · cases effect with
    | kept silent => cases silent
    | registered _ nameless _ _ _ => exact nameless
  · rw [after]
    apply Db.lookup_eq_some_iff_nameOf.mp
    cases effect with
    | kept silent => cases silent
    | registered _ _ reassigned _ _ =>
        rw [reassigned name, if_pos rfl]

theorem registeredWith_of_step
    (reachable : (server ext cfg).Reachable permitted pool)
    (step : (server ext cfg).Step pool label later) {index : Nat}
    (found : later.threads[index]? = some thread)
    (bought : History.RegisteredWith thread.events pubkey invoiceId) :
    (∃ old, pool.threads[index]? = some old ∧
      History.RegisteredWith old.events pubkey invoiceId) ∨
    ∃ old, Enters pool label later index old pubkey ∧
      History.ReadInvoice old.events pubkey invoiceId := by
  rcases step.thread_cases found with
    ⟨request, -, rfl⟩ |
    ⟨old, op, next, env, oldFound, pending, acts, after, rfl⟩ | ⟨same, -⟩
  · exact absurd bought.read History.not_readInvoice_nil
  · rw [Thread.advance_events] at bought
    rcases bought.snoc_cases with before | ⟨read, name, count, isInsert⟩
    · exact .inl ⟨old, oldFound, before⟩
    · obtain ⟨rfl, done⟩ := taken_eq isInsert
      exact .inr ⟨old, enters_of_insertName reachable oldFound env pending
        done.symm acts after, read⟩
  · exact .inl ⟨thread, same, bought⟩

/-! ## What a registration has paid with -/

/-- Every registration has read an invoice that was created for its key and
reported paid. -/
theorem Reachable.bought
    (reachable : (server ext cfg).Reachable permitted pool)
    (mode : cfg.payMode = .name) :
    ∀ thread ∈ pool.threads, ∀ pubkey,
      History.Registered thread.events pubkey →
        RegistersFor thread pubkey ∧ ∃ invoiceId,
          History.RegisteredWith thread.events pubkey invoiceId ∧
          InvoiceCreated pool pubkey "name" invoiceId ∧
          InvoiceReported pool invoiceId "paid" := by
  refine Reachable.induct (motive := fun pool => ∀ thread ∈ pool.threads,
    ∀ pubkey, History.Registered thread.events pubkey →
      RegistersFor thread pubkey ∧ ∃ invoiceId,
        History.RegisteredWith thread.events pubkey invoiceId ∧
        InvoiceCreated pool pubkey "name" invoiceId ∧
        InvoiceReported pool invoiceId "paid") ?start ?step reachable
  case start => simp
  case step =>
    intro pool label later before induction step allowed thread member pubkey
      registered
    obtain ⟨index, found⟩ := List.getElem?_of_mem member
    rcases step.thread_cases found with
      ⟨request, -, rfl⟩ | ⟨old, op, next, env, oldFound, pending, -, -, rfl⟩ |
      ⟨same, -⟩
    · obtain ⟨_, _, saw⟩ := registered
      cases saw
    · have oldMember := List.mem_of_getElem? oldFound
      obtain ⟨name, count, saw⟩ := registered
      rw [Thread.advance_events] at saw ⊢
      rcases List.mem_append.mp saw with earlier | now
      · obtain ⟨registers, invoiceId, bought, created, reported⟩ :=
          induction old oldMember pubkey ⟨name, count, earlier⟩
        exact ⟨registers, invoiceId, bought.append _, created.mono step,
          step.saw reported⟩
      · have isInsert := (List.mem_singleton.mp now).symm
        obtain ⟨rfl, answer⟩ := taken_eq isInsert
        have pays := (Reachable.pays before oldMember pending).registers
        obtain ⟨grant, read, paid⟩ := pays.2 mode
        have backed := (Reachable.grantsBacked before).read pubkey "name" grant
          ⟨old, oldMember, read⟩
        have reported : InvoiceReported pool grant.invoiceId "paid" :=
          paid.elim backed.confirmed fun heard => ⟨old, oldMember, heard⟩
        refine ⟨pays.1, grant.invoiceId,
          ⟨old.events, name, count, ?_, grant, read, rfl⟩,
          backed.created.mono step, step.saw reported⟩
        simp only [isInsert, List.prefix_refl]
    · obtain ⟨registers, invoiceId, bought, created, reported⟩ :=
        induction thread (List.mem_of_getElem? same) pubkey registered
      exact ⟨registers, invoiceId, bought, created.mono step,
        step.saw reported⟩

/-! ## No invoice is used twice -/

/-- What holds of the registrations for a key. -/
structure PaidOnce (pool : FloonetPool) (pubkey : String) : Prop where
  running : ∀ thread ∈ pool.threads,
    History.Registered thread.events pubkey → ¬ thread.Finished →
      ∃ name, pool.state.db.nameOf pubkey = some name
  finished : ∀ thread ∈ pool.threads, ∀ invoiceId,
    History.RegisteredWith thread.events pubkey invoiceId → thread.Finished →
      ∀ grant, pool.state.db.grant pubkey "name" = some grant →
        grant.invoiceId ≠ invoiceId
  blocked : ∀ (index index' : Nat) (thread thread' : FloonetThread) invoiceId,
    pool.threads[index]? = some thread → pool.threads[index']? = some thread' →
      index ≠ index' → History.RegisteredWith thread.events pubkey invoiceId →
        RegistersFor thread' pubkey →
          History.ReadInvoice thread'.events pubkey invoiceId →
            History.Registered thread'.events pubkey ∨ thread'.Finished ∨
              ∃ name, pool.state.db.nameOf pubkey = some name
  distinct : ∀ (index index' : Nat) (thread thread' : FloonetThread) invoiceId,
    pool.threads[index]? = some thread → pool.threads[index']? = some thread' →
      index ≠ index' → History.RegisteredWith thread.events pubkey invoiceId →
        ¬ History.RegisteredWith thread'.events pubkey invoiceId

namespace PaidOnce

/-- A thread that has registered, and is still running, keeps the name from
being released. -/
theorem named_later (once : PaidOnce pool pubkey)
    (reachable : (server ext cfg).Reachable permitted pool)
    (mode : cfg.payMode = .name)
    (step : (server ext cfg).Step pool label later)
    (apart : releasesApart pool label later) (member : thread ∈ pool.threads)
    (registered : History.Registered thread.events pubkey)
    (running : ¬ thread.Finished) :
    ∃ name, later.state.db.nameOf pubkey = some name := by
  obtain ⟨name, named⟩ := once.running thread member registered running
  obtain ⟨registers, invoiceId, bought, -⟩ :=
    Reachable.bought reachable mode thread member pubkey registered
  exact ⟨name, named_of_step step apart named member registers running
    bought.read member bought⟩

theorem running_step (once : PaidOnce pool pubkey)
    (reachable : (server ext cfg).Reachable permitted pool)
    (mode : cfg.payMode = .name)
    (step : (server ext cfg).Step pool label later)
    (apart : releasesApart pool label later) (member : thread ∈ later.threads)
    (registered : History.Registered thread.events pubkey)
    (running : ¬ thread.Finished) :
    ∃ name, later.state.db.nameOf pubkey = some name := by
  obtain ⟨index, found⟩ := List.getElem?_of_mem member
  rcases step.thread_cases found with
    ⟨request, -, rfl⟩ |
    ⟨old, op, next, env, oldFound, pending, acts, after, rfl⟩ | ⟨same, -⟩
  · obtain ⟨_, _, saw⟩ := registered
    cases saw
  · obtain ⟨name, count, saw⟩ := registered
    rw [Thread.advance_events] at saw
    rcases List.mem_append.mp saw with earlier | now
    · exact once.named_later reachable mode step apart
        (List.mem_of_getElem? oldFound) ⟨name, count, earlier⟩
        (Thread.not_finished_of_pending pending)
    · obtain ⟨rfl, done⟩ := taken_eq (List.mem_singleton.mp now).symm
      exact (enters_of_insertName reachable oldFound env pending done.symm acts
        after).named
  · exact once.named_later reachable mode step apart
      (List.mem_of_getElem? same) registered running

/-- A registration that has come to its end has deleted the grant, and the
next one has another invoice. -/
theorem finished_step (once : PaidOnce pool pubkey)
    (reachable : (server ext cfg).Reachable permitted pool)
    (reachable' : (server ext cfg).Reachable permitted later)
    (mode : cfg.payMode = .name) (inv : InvoicesFresh pool)
    (step : (server ext cfg).Step pool label later)
    (member : thread ∈ later.threads)
    (bought : History.RegisteredWith thread.events pubkey invoiceId)
    (finished : thread.Finished) {grant : Grant}
    (stored : later.state.db.grant pubkey "name" = some grant) :
    grant.invoiceId ≠ invoiceId := by
  obtain ⟨index, found⟩ := List.getElem?_of_mem member
  rcases step.thread_cases found with
    ⟨request, -, rfl⟩ |
    ⟨old, op, next, env, oldFound, pending, acts, after, rfl⟩ | ⟨same, -⟩
  · exact absurd bought.read History.not_readInvoice_nil
  · -- The last step of a registration that went through deletes the grant.
    obtain ⟨response, done⟩ := finished
    have registered := bought.registered
    obtain ⟨⟨headers, body, request, signed⟩, -⟩ :=
      Reachable.bought reachable' mode _ member pubkey registered
    have charged := Reachable.charged reachable' member done
    rw [request] at charged
    obtain ⟨name, count, saw⟩ := registered
    have ends := charged.2 mode pubkey name count signed saw
    rw [Thread.advance_events] at ends
    obtain ⟨rfl, -⟩ := taken_eq ends.last
    rw [after] at stored
    have deleted := (congrFun₂ (pool.state.db.consumeGrant_grant pubkey "name")
      pubkey "name").symm.trans stored
    rw [if_pos ⟨rfl, rfl⟩] at deleted
    cases deleted
  · have oldMember := List.mem_of_getElem? same
    have before := once.finished thread oldMember invoiceId bought finished
    cases step with
    | arrive => exact before grant stored
    | tick => exact before grant stored
    | act env actorFound pending =>
        rcases Op.exec_grant_origin env stored with
          ⟨old, oldStored, sameId⟩ | ⟨invoice, amount, rfl, isNew⟩
        · rw [← sameId]
          exact before old oldStored
        · intro sameId
          have actorMember := List.mem_of_getElem? actorFound
          have just := Reachable.justIssued reachable actorMember pending
          obtain ⟨read, saw, isRead⟩ := bought.read
          have placed := inv.read pubkey "name" read ⟨thread, oldMember, saw⟩
          rw [isRead, ← sameId, isNew] at placed
          exact inv.unplaced _ actorMember _ just placed

theorem blocked_step (once : PaidOnce pool pubkey)
    (reachable : (server ext cfg).Reachable permitted pool)
    (mode : cfg.payMode = .name)
    (step : (server ext cfg).Step pool label later)
    (apart : releasesApart pool label later) {index index' : Nat}
    {thread' : FloonetThread} (found : later.threads[index]? = some thread)
    (found' : later.threads[index']? = some thread')
    (different : index ≠ index')
    (bought : History.RegisteredWith thread.events pubkey invoiceId)
    (registers : RegistersFor thread' pubkey)
    (read : History.ReadInvoice thread'.events pubkey invoiceId) :
    History.Registered thread'.events pubkey ∨ thread'.Finished ∨
      ∃ name, later.state.db.nameOf pubkey = some name := by
  by_cases finished : thread'.Finished
  · exact .inr (.inl finished)
  rcases registeredWith_of_step reachable step found bought with
    ⟨old, oldFound, bought⟩ | ⟨old, enters, -⟩
  swap
  · exact .inr (.inr enters.named)
  have oldMember := List.mem_of_getElem? oldFound
  -- The other registration has read the invoice before, or reads it now.
  rcases step.thread_cases found' with
    ⟨request, -, rfl⟩ |
    ⟨reader, op, next, env, readerFound, pending, -, -, rfl⟩ | ⟨same, -⟩
  · exact absurd read History.not_readInvoice_nil
  · obtain ⟨grant, saw, sameId⟩ := read
    rw [Thread.advance_events] at saw ⊢
    rcases List.mem_append.mp saw with earlier | now
    · have readerMember := List.mem_of_getElem? readerFound
      have running := Thread.not_finished_of_pending pending
      rcases once.blocked index index' old reader invoiceId oldFound readerFound
          different bought registers ⟨grant, earlier, sameId⟩ with
        registered | done | ⟨name, named⟩
      · exact .inl (registered.append _)
      · exact absurd done running
      · exact .inr (.inr ⟨name, named_of_step step apart named readerMember
          registers running ⟨grant, earlier, sameId⟩ oldMember bought⟩)
    · obtain ⟨rfl, answer⟩ := taken_eq (List.mem_singleton.mp now).symm
      have running : ¬ old.Finished := fun done =>
        once.finished old oldMember invoiceId bought done grant answer.symm
          sameId
      exact .inr (.inr (once.named_later reachable mode step apart oldMember
        bought.registered running))
  · rcases once.blocked index index' old thread' invoiceId oldFound same
        different bought registers read with
      registered | done | ⟨name, named⟩
    · exact .inl registered
    · exact absurd done finished
    · exact .inr (.inr ⟨name, named_of_step step apart named
        (List.mem_of_getElem? same) registers finished read oldMember bought⟩)

/-- A registration cannot enter with an invoice that is already used. -/
theorem not_enters (once : PaidOnce pool pubkey) {index index' : Nat}
    {other : FloonetThread} (found : pool.threads[index]? = some other)
    (different : index ≠ index')
    (bought : History.RegisteredWith other.events pubkey invoiceId)
    (read : History.ReadInvoice thread.events pubkey invoiceId) :
    ¬ Enters pool label later index' thread pubkey := by
  intro enters
  have unnamed : ¬ ∃ name, pool.state.db.nameOf pubkey = some name := by
    rintro ⟨name, named⟩
    rw [enters.nameless] at named
    cases named
  rcases once.blocked index index' other thread invoiceId found enters.found
      different bought enters.registers read with registered | done | named
  · exact unnamed (once.running thread (List.mem_of_getElem? enters.found)
      registered enters.running)
  · exact enters.running done
  · exact unnamed named

theorem distinct_step (once : PaidOnce pool pubkey)
    (reachable : (server ext cfg).Reachable permitted pool)
    (step : (server ext cfg).Step pool label later) {index index' : Nat}
    {thread' : FloonetThread} (found : later.threads[index]? = some thread)
    (found' : later.threads[index']? = some thread')
    (different : index ≠ index')
    (bought : History.RegisteredWith thread.events pubkey invoiceId) :
    ¬ History.RegisteredWith thread'.events pubkey invoiceId := by
  intro bought'
  rcases registeredWith_of_step reachable step found bought,
      registeredWith_of_step reachable step found' bought' with
    ⟨⟨old, oldFound, bought⟩ | ⟨old, enters, read⟩,
      ⟨old', oldFound', bought'⟩ | ⟨old', enters', read'⟩⟩
  · exact once.distinct index index' old old' invoiceId oldFound oldFound'
      different bought bought'
  · exact once.not_enters oldFound different bought read' enters'
  · exact once.not_enters oldFound' different.symm bought' read enters
  · obtain ⟨⟨_, isAct⟩, ⟨_, isAct'⟩⟩ := And.intro enters.acts enters'.acts
    rw [isAct] at isAct'
    cases isAct'
    exact different rfl

end PaidOnce

theorem Reachable.paidOnce
    (reachable : (server ext cfg).Reachable registersApart pool)
    (mode : cfg.payMode = .name) (pubkey : String) : PaidOnce pool pubkey := by
  refine Reachable.induct (motive := fun pool => PaidOnce pool pubkey)
    ?start ?step reachable
  case start =>
    intro state _
    constructor <;> simp
  case step =>
    intro pool label later before once step allowed
    have fresh : InvoicesFresh pool := Reachable.invoicesFresh
      (before.mono fun _ _ _ _ _ allowed => allowed.1)
    have after := before.step step allowed
    exact
      { running := fun thread member registered running =>
          once.running_step before mode step allowed.2 member registered running
        finished := fun thread member invoiceId bought finished grant stored =>
          once.finished_step before after mode fresh step member bought finished
            stored
        blocked := fun index index' thread thread' invoiceId found found'
            different bought registers read =>
          once.blocked_step before mode step allowed.2 found found' different
            bought registers read
        distinct := fun index index' thread thread' invoiceId found found'
            different bought =>
          once.distinct_step before step found found' different bought }

/-! ## Counting -/

/-- The invoice that the backend has created for a name of the key. -/
def nameInvoice (pubkey : String) :
    Concurrent.Event Op Op.Ans → Option String
  | ⟨.createInvoice ref _ _, .ok invoice⟩ =>
      if ref = orderRef pubkey "name" then some invoice.id else none
  | _ => none

/-- The backend was asked about the invoice and answered `status`. -/
def reports (invoiceId status : String) :
    Concurrent.Event Op Op.Ans → Bool
  | ⟨.invoiceStatus asked, .ok answer⟩ =>
      decide (asked = invoiceId) && decide (answer = status)
  | _ => false

def Pool.events (pool : FloonetPool) : History :=
  pool.threads.flatMap Thread.events

/-- The distinct invoices for a name of the key that were reported paid. -/
def paidInvoices (pool : FloonetPool) (pubkey : String) : List String :=
  ((Pool.events pool).filterMap (nameInvoice pubkey)).dedup.filter
    fun invoiceId => (Pool.events pool).any (reports invoiceId "paid")

/-- The thread has registered a name for the key and answered 201. -/
def registeredFor (pubkey : String) (thread : FloonetThread) : Bool :=
  thread.request.registers &&
    decide (thread.request.signer = some pubkey) && answersCreated thread

theorem Pool.mem_events {event : Concurrent.Event Op Op.Ans} :
    event ∈ Pool.events pool ↔ pool.Saw event :=
  List.mem_flatMap

theorem mem_paidInvoices
    (created : InvoiceCreated pool pubkey "name" invoiceId)
    (reported : InvoiceReported pool invoiceId "paid") :
    invoiceId ∈ paidInvoices pool pubkey := by
  obtain ⟨thread, member, invoice, rfl, price, memo, saw⟩ := created
  simp only [paidInvoices, List.mem_filter, List.mem_dedup,
    List.mem_filterMap, List.any_eq_true]
  refine ⟨⟨_, Pool.mem_events.mpr ⟨thread, member, saw⟩, ?_⟩,
    _, Pool.mem_events.mpr reported, ?_⟩
  · exact if_pos rfl
  · simp [reports]

theorem countP_le_length {Item Choice : Type} [DecidableEq Choice]
    (picks : Item → Choice → Prop) {counted : Item → Bool} {items : List Item}
    {choices : List Choice}
    (chosen : ∀ item ∈ items, counted item = true →
      ∃ choice ∈ choices, picks item choice)
    (apart : items.Pairwise fun left right =>
      ∀ choice, picks left choice → ¬ picks right choice) :
    items.countP counted ≤ choices.length := by
  induction items generalizing choices with
  | nil => exact Nat.zero_le _
  | cons head tail induction =>
      obtain ⟨headApart, tailApart⟩ := List.pairwise_cons.mp apart
      by_cases counts : counted head = true
      · obtain ⟨choice, member, picked⟩ :=
          chosen head List.mem_cons_self counts
        have others : ∀ item ∈ tail, counted item = true →
            ∃ other ∈ choices.erase choice, picks item other := by
          intro item itemMember itemCounts
          obtain ⟨other, otherMember, otherPicked⟩ :=
            chosen item (List.mem_cons_of_mem _ itemMember) itemCounts
          have different : other ≠ choice := by
            rintro rfl
            exact headApart item itemMember other picked otherPicked
          exact ⟨other, (List.mem_erase_of_ne different).mpr otherMember,
            otherPicked⟩
        have bound := induction others tailApart
        rw [List.length_erase_of_mem member] at bound
        have positive := List.length_pos_of_mem member
        rw [List.countP_cons_of_pos counts]
        omega
      · rw [List.countP_cons_of_neg counts]
        exact induction (fun item itemMember => chosen item
          (List.mem_cons_of_mem _ itemMember)) tailApart

theorem request_of_registeredFor
    (registered : registeredFor pubkey thread = true) :
    ∃ headers body response, thread.request = .register headers body ∧
      headers.signer = some pubkey ∧ thread.program = .done response ∧
        response.status = .created := by
  simp only [registeredFor, Bool.and_eq_true, decide_eq_true_iff,
    Request.registers_iff] at registered
  obtain ⟨⟨⟨headers, body, request⟩, signed⟩, created⟩ := registered
  rw [request] at signed
  obtain ⟨response, finished, isCreated⟩ := answersCreated_iff.mp created
  exact ⟨headers, body, response, request, signed, finished, isCreated⟩

theorem registered_of_registeredFor
    (reachable : (server ext cfg).Reachable permitted pool)
    (member : thread ∈ pool.threads)
    (registered : registeredFor pubkey thread = true) :
    History.Registered thread.events pubkey := by
  obtain ⟨headers, body, response, request, signed, finished, created⟩ :=
    request_of_registeredFor registered
  have answered := Reachable.answered reachable member finished
  rw [request] at answered
  obtain ⟨authPubkey, name, owner, count, signed', accepted, saw⟩ :=
    answered.1 created
  cases signed.symm.trans signed'
  rw [registerRequest_pubkey ext cfg accepted] at saw
  exact ⟨name, count, saw⟩

/-- While the backend does not reuse invoice ids and no name is released
beside a registration that has read a used invoice, a key has at most as many
registrations as paid invoices. -/
theorem registrations_paid
    (reachable : (server ext cfg).Reachable registersApart pool)
    (mode : cfg.payMode = .name) (pubkey : String) :
    pool.threads.countP (registeredFor pubkey) ≤
      (paidInvoices pool pubkey).length := by
  have once := Reachable.paidOnce reachable mode pubkey
  refine countP_le_length (fun thread invoiceId =>
    History.RegisteredWith thread.events pubkey invoiceId) ?chosen ?apart
  case chosen =>
    intro thread member registered
    obtain ⟨-, invoiceId, bought, created, reported⟩ :=
      Reachable.bought reachable mode thread member pubkey
        (registered_of_registeredFor reachable member registered)
    exact ⟨invoiceId, mem_paidInvoices created reported, bought⟩
  case apart =>
    apply List.pairwise_iff_getElem.mpr
    intro index index' bound bound' less invoiceId bought
    exact once.distinct index index' _ _ invoiceId
      (List.getElem?_eq_getElem bound) (List.getElem?_eq_getElem bound')
      (Nat.ne_of_lt less) bought

section Schedules

open Sample

/-- Nothing is released, and the backend creates one invoice. -/
def oneInvoice (pool : FloonetPool) :
    Label World Request Op Op.Ans → Bool
  | .act _ taken =>
      match taken.op with
      | .db (.releaseName _) => false
      | .db (.runClaimTxn _ _ _ _) => false
      | .createInvoice _ _ _ => (Pool.events pool).all fun event =>
          match event.op with
          | .createInvoice _ _ _ => false
          | _ => true
      | _ => true
  | _ => true

theorem registersApart_of_oneInvoice
    (one : oneInvoice pool label = true) : registersApart pool label later := by
  constructor
  · rintro index taken orderRef price memo invoice rfl isCreate
      ⟨_, _, _, _, saw, -⟩
    obtain ⟨⟨op, answer⟩, before, after⟩ := taken
    cases isCreate
    have quiet := List.all_eq_true.mp one _ (Pool.mem_events.mpr saw)
    cases quiet
  · rintro index taken key rfl releases
    obtain ⟨⟨op, answer⟩, before, after⟩ := taken
    dsimp only at releases
    unfold Op.releases at releases
    split at releases
    · cases one
    · cases one
    · exact releases.elim

/-- The seller pays for a name and registers it. -/
def paidRegistration : List PayingMarket.Move :=
  PayingMarket.alone firstBuy 0 (backend "first" "pending") 12 ++
    PayingMarket.alone secondBuy 1 (backend "none" "paid") 17

theorem registrations_paid_purchase : ∃ pool : FloonetPool,
    PayingMarket.Reachable registersApart pool ∧
      pool.threads.countP (registeredFor seller) = 1 ∧
      1 ≤ (paidInvoices pool seller).length := by
  have reached : ∃ pool, PayingMarket.Reachable registersApart pool ∧
      pool.threads.countP (registeredFor seller) = 1 :=
    play_reaches (fun pool label _ => oneInvoice pool label)
      (fun _ _ _ => registersApart_of_oneInvoice) world_initial
      paidRegistration (by decide +kernel)
  obtain ⟨pool, reachable, once⟩ := reached
  refine ⟨pool, reachable, once, ?_⟩
  rw [← once]
  exact registrations_paid reachable rfl seller

def giveUpId : String :=
  "d32840e7466744e8839f5474a535d456c4023d22f85e8ef35512ce81c60acb74"

/-- The seller releases a name. -/
def giveUp (name : String) (lower : host.cases.toLowercase name = name) :
    PayingMarket.Served where
  request := .unregister name (signRequest host payingConfig
    (.ofHex giveUpId) (.ofHex seller) (.ofNat start) .delete
    s!"/api/v1/register/{name}" [])
  program := opened payingConfig "unreg"
    (MachineInt.asI64 (UInt64.ofNat start).toNat) giveUpId
    (unregisterName seller name)
  serves := by
    have validId : validPubkeyHex giveUpId = true := by decide +kernel
    have serves := unregister_signRequest host payingConfig (.ofHex giveUpId)
      (.ofHex seller) (.ofNat start) lower
    rw [Bytes32.toHex_ofHex validId, Bytes32.toHex_ofHex seller_valid] at serves
    exact serves

/-- One registration has read the paid grant when another one goes through
and its name is released. -/
def overtaken : List PayingMarket.Move :=
  PayingMarket.alone firstBuy 0 (backend "first" "pending") 12 ++
    PayingMarket.alone secondBuy 1 (backend "none" "paid") 15 ++
    PayingMarket.alone thirdBuy 2 (backend "none" "paid") 10 ++
    List.replicate 2 (.act 1 (backend "none" "paid")) ++
    PayingMarket.alone (giveUp "alice" (by decide +kernel)) 3
      (backend "none" "paid") 8 ++
    List.replicate 2 (.act 2 (backend "none" "paid"))

/-- One payment buys two registrations. -/
theorem payment_registers_twice : ∃ pool : FloonetPool,
    PayingMarket.Reachable anyMove pool ∧ payingConfig.payMode = .name ∧
      (∀ thread ∈ pool.threads, thread.request.signer = some seller) ∧
      (paidInvoices pool seller).length = 1 ∧
      pool.threads.countP (registeredFor seller) = 2 := by
  have reached : ∃ pool, PayingMarket.Reachable anyMove pool ∧
      ((pool.threads.all fun thread =>
          decide (thread.request.signer = some seller)) = true ∧
        (paidInvoices pool seller).length = 1 ∧
        pool.threads.countP (registeredFor seller) = 2) :=
    play_reaches (fun _ _ _ => true) (fun _ _ _ _ => trivial) world_initial
      overtaken (by decide +kernel)
  obtain ⟨pool, reachable, signed, paid, twice⟩ := reached
  refine ⟨pool, reachable, rfl, fun thread member => ?_, paid, twice⟩
  exact of_decide_eq_true (List.all_eq_true.mp signed thread member)

end Schedules

end Floonet
