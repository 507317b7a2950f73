import Floonet.PaidGrants

/-!
# Invoices and the public status

The public status of a key reads its grant and polls the backend about a
pending one.  It creates an invoice exactly if the backend answers that the
old one has expired, and in no other state of the grants.
-/

namespace Floonet

open Concurrent Program System

variable {ext : Extern} {cfg : Config}
  {permitted : Permission World Request Op Op.Ans Response}
  {pool later : FloonetPool} {thread : FloonetThread}

/-! ## Histories -/

def Op.creates : Op → Bool
  | .createInvoice _ _ _ => true
  | _ => false

namespace History

variable (past : History)

/-- An invoice was asked for. -/
def HasCreated : Prop := ∃ event ∈ past, event.op.creates = true

/-- The backend answered that an invoice has expired. -/
def HeardExpired : Prop :=
  ∃ invoiceId, past.Saw (.invoiceStatus invoiceId) (.ok "expired")

/-- A write grant was read and is gone when it is read again. -/
def LostGrant : Prop :=
  ∃ earlier rest pubkey grant,
    past = earlier ++ ⟨.db (.grant pubkey "write"), none⟩ :: rest ∧
      History.Saw earlier (.db (.grant pubkey "write")) (some grant)

/-- No invoice was asked for and none is known to have expired. -/
structure Calm : Prop where
  created : ¬ past.HasCreated
  expired : ¬ past.HeardExpired

/-- An invoice is created exactly if one has expired, unless a grant is
lost. -/
def CreatesIfExpired (next : Option Op) : Prop :=
  ((past.HasCreated ∨ next.any Op.creates = true) ↔ past.HeardExpired) ∨
    past.LostGrant

variable {past}

theorem calm_nil : Calm [] where
  created := by
    rintro ⟨_, member, -⟩
    cases member
  expired := by
    rintro ⟨_, member⟩
    cases member

theorem Calm.concat (calm : past.Calm) (op : Op) (answer : op.Ans)
    (other : op.creates = false)
    (unexpired : ∀ invoiceId, (⟨op, answer⟩ : Concurrent.Event Op Op.Ans) ≠
      ⟨.invoiceStatus invoiceId, .ok "expired"⟩) :
    History.Calm (past ++ [⟨op, answer⟩]) where
  created := by
    rintro ⟨event, member, creates⟩
    rcases List.mem_append.mp member with old | new
    · exact calm.created ⟨event, old, creates⟩
    · rw [List.mem_singleton.mp new, other] at creates
      cases creates
  expired := by
    rintro ⟨invoiceId, saw⟩
    rcases List.mem_append.mp saw with old | new
    · exact calm.expired ⟨invoiceId, old⟩
    · exact unexpired invoiceId (List.mem_singleton.mp new).symm

theorem Calm.status (calm : past.Calm) (invoiceId : String)
    {answer : Except String String} (unexpired : answer ≠ .ok "expired") :
    History.Calm (past ++ [⟨.invoiceStatus invoiceId, answer⟩]) := by
  refine calm.concat _ _ rfl fun invoiceId' same => ?_
  cases same
  exact unexpired rfl

/-- Until then nothing but the creation of an invoice is out of order. -/
theorem Calm.createsIfExpired (calm : past.Calm) {next : Option Op}
    (other : next.any Op.creates = false) : past.CreatesIfExpired next := by
  left
  simp [calm.created, calm.expired, other]

theorem HasCreated.append (created : past.HasCreated) (new : History) :
    History.HasCreated (past ++ new) := by
  obtain ⟨event, member, creates⟩ := created
  exact ⟨event, List.mem_append_left _ member, creates⟩

theorem HeardExpired.append (heard : past.HeardExpired) (new : History) :
    History.HeardExpired (past ++ new) := by
  obtain ⟨invoiceId, saw⟩ := heard
  exact ⟨invoiceId, saw.append new⟩

theorem LostGrant.append (lost : past.LostGrant) (new : History) :
    History.LostGrant (past ++ new) := by
  obtain ⟨earlier, rest, pubkey, grant, rfl, saw⟩ := lost
  exact ⟨earlier, rest ++ new, pubkey, grant, by simp, saw⟩

theorem createsIfExpired_of_created
    (reason : past.HeardExpired ∨ past.LostGrant) (created : past.HasCreated)
    (next : Option Op) : past.CreatesIfExpired next := by
  rcases reason with heard | lost
  · exact .inl (iff_of_true (.inl created) heard)
  · exact .inr lost

end History

/-! ## Programs -/

section Programs

variable {past : History} {pubkey resource : String} {price : Nat}

/-- The program keeps to `History.CreatesIfExpired`. -/
abbrev CreatingRightly {Res : Type} (program : Handler Res) (past : History) :
    Prop :=
  program.Every (fun (past : History) op => past.CreatesIfExpired (some op))
    (fun (past : History) _ => past.CreatesIfExpired none) past

theorem newGrant_creates (reason : past.HeardExpired ∨ past.LostGrant) :
    CreatingRightly (newGrant cfg pubkey resource price) past := by
  unfold newGrant
  refine every_perform_bind.mpr ⟨?_, fun answer => ?_⟩
  · rcases reason with heard | lost
    · exact .inl (iff_of_true (.inr rfl) heard)
    · exact .inr lost
  have later : ∀ new : History, ∀ next, History.CreatesIfExpired
      (past ++ [⟨.createInvoice _ _ _, answer⟩] ++ new) next := by
    intro new next
    apply History.createsIfExpired_of_created
    · exact reason.imp (fun heard => (heard.append _).append new)
        fun lost => (lost.append _).append new
    · apply History.HasCreated.append
      exact ⟨_, History.saw_last _ _ answer, rfl⟩
  have now : ∀ next, History.CreatesIfExpired
      (past ++ [⟨.createInvoice _ _ _, answer⟩]) next := by
    simpa using later []
  split
  · exact every_perform_bind.mpr ⟨now _, fun _ => later [_] none⟩
  · exact now none

theorem pollGrant_creates {grant : Grant} (calm : past.Calm) :
    CreatingRightly (pollGrant cfg grant pubkey resource price) past := by
  unfold pollGrant App.cooldownActive
  refine every_perform_bind.mpr ⟨calm.createsIfExpired rfl, fun now => ?_⟩
  replace calm := calm.concat .instantNow now rfl nofun
  refine every_perform_bind.mpr ⟨calm.createsIfExpired rfl, fun active => ?_⟩
  replace calm := calm.concat (.cooldownActive _ _ _ _) active rfl nofun
  split
  · exact calm.createsIfExpired rfl
  refine every_perform_bind.mpr ⟨calm.createsIfExpired rfl, fun recorded => ?_⟩
  replace calm := calm.concat (.recordOp _ _) recorded rfl nofun
  refine every_perform_bind.mpr ⟨calm.createsIfExpired rfl, fun answer => ?_⟩
  split
  · rename_i status
    by_cases expired : status = "expired"
    · rw [if_neg (by rw [expired]; decide), if_pos expired]
      apply newGrant_creates
      rw [expired]
      exact .inl ⟨_, History.saw_last _ _ _⟩
    · have unexpired : (.ok status : Except String String) ≠ .ok "expired" :=
        fun same => expired (Except.ok.inj same)
      replace calm := calm.status grant.invoiceId unexpired
      rw [if_neg expired]
      split
      · refine every_perform_bind.mpr
          ⟨calm.createsIfExpired rfl, fun marked => ?_⟩
        exact (calm.concat (.db (.markGrantPaid _)) marked rfl
          nofun).createsIfExpired rfl
      · exact calm.createsIfExpired rfl
  · rename_i reason
    have unexpired : (.error reason : Except String String) ≠ .ok "expired" :=
      nofun
    exact (calm.status grant.invoiceId unexpired).createsIfExpired rfl

theorem ensurePaid_creates {grant : Grant} (calm : past.Calm)
    (read : past.Saw (.db (.grant pubkey "write")) (some grant)) :
    CreatingRightly (ensurePaid cfg pubkey "write") past := by
  unfold ensurePaid
  split
  · exact calm.createsIfExpired rfl
  refine every_perform_bind.mpr ⟨calm.createsIfExpired rfl, fun found => ?_⟩
  replace calm := calm.concat (.db (.grant pubkey "write")) found rfl nofun
  split
  · exact newGrant_creates (.inr ⟨past, [], pubkey, grant, rfl, read⟩)
  · split
    · exact calm.createsIfExpired rfl
    · exact pollGrant_creates calm

theorem paidStatus_creates (raw : String) (headers : Headers) :
    CreatingRightly (paidStatus ext cfg raw headers) [] := by
  have calm := History.calm_nil
  unfold paidStatus App.allowRead App.allow
  refine every_perform_bind.mpr ⟨calm.createsIfExpired rfl, fun now => ?_⟩
  replace calm := calm.concat .instantNow now rfl nofun
  refine every_perform_bind.mpr ⟨calm.createsIfExpired rfl, fun allowed => ?_⟩
  replace calm := calm.concat (.allow _ _ _ _ _) allowed rfl nofun
  split
  · exact calm.createsIfExpired rfl
  dsimp only
  split
  · exact calm.createsIfExpired rfl
  split
  · exact calm.createsIfExpired rfl
  refine every_perform_bind.mpr ⟨calm.createsIfExpired rfl, fun found => ?_⟩
  replace calm := calm.concat (.db (.grant _ "write")) found rfl nofun
  split
  · exact calm.createsIfExpired rfl
  rename_i grant
  split
  · exact calm.createsIfExpired rfl
  refine every_bind.mpr ((ensurePaid_creates calm
    (History.saw_last _ _ _)).mono (fun _ _ _ rightly => rightly) ?_)
  intro past outcome _ rightly
  split <;> exact rightly

end Programs

/-! ## Write grants stay -/

/-- No request consumes a write grant. -/
theorem Op.exec_writeGrant (env : Env) {op : Op} {world : World}
    {request : Request} {past : History} (pays : Pays cfg request past op)
    {pubkey : String}
    (stored : (world.db.grant pubkey "write").isSome = true) :
    ((op.exec env world).2.db.grant pubkey "write").isSome = true := by
  cases op.exec_grants env world with
  | kept _ same =>
      rw [same]
      exact stored
  | recorded put =>
      rw [put]
      dsimp only
      split
      · rfl
      · exact stored
  | confirmed marked =>
      rw [marked]
      simpa using stored
  | consumed deleted =>
      rw [deleted]
      dsimp only
      rw [if_neg]
      · exact stored
      rintro ⟨-, isWrite⟩
      cases pays with
      | uncharged uncharged => cases uncharged
      | consume signed => exact absurd isWrite (by decide)

theorem History.LostGrant.of_concat {past : History} {op : Op}
    {answer : op.Ans} (lost : History.LostGrant (past ++ [⟨op, answer⟩])) :
    past.LostGrant ∨ ∃ pubkey grant,
      (⟨op, answer⟩ : Concurrent.Event Op Op.Ans) =
        ⟨.db (.grant pubkey "write"), none⟩ ∧
      past.Saw (.db (.grant pubkey "write")) (some grant) := by
  obtain ⟨earlier, rest, pubkey, grant, split, saw⟩ := lost
  rcases List.eq_nil_or_concat rest with rfl | ⟨rest, last, rfl⟩
  · obtain ⟨rfl, same⟩ := List.append_inj' split rfl
    exact .inr ⟨pubkey, grant, List.head_eq_of_cons_eq same, saw⟩
  · rw [List.concat_eq_append, ← List.cons_append, ← List.append_assoc]
      at split
    exact .inl ⟨earlier, rest, pubkey, grant, (List.append_inj' split rfl).1,
      saw⟩

/-- The write grants that a thread has read are stored, and none was lost. -/
structure GrantsStay (thread : FloonetThread) (state : World) : Prop where
  stored : ∀ pubkey grant,
    History.Saw thread.events (.db (.grant pubkey "write")) (some grant) →
      (state.db.grant pubkey "write").isSome = true
  kept : ¬ History.LostGrant thread.events

theorem Reachable.grantsStay
    (reachable : (server ext cfg).Reachable permitted pool) :
    ∀ thread ∈ pool.threads, GrantsStay thread pool.state := by
  refine Reachable.localInvariant GrantsStay ?arrive ?own ?others reachable
  case arrive =>
    intro pool request _
    constructor
    · intro _ _ saw
      cases saw
    · rintro ⟨earlier, rest, _, _, split, -⟩
      cases earlier <;> cases split
  case own =>
    intro pool later thread op next env before _ member pending sameState _
      stay
    have pays := Reachable.pays before member pending
    rw [sameState]
    constructor
    · intro pubkey grant saw
      apply op.exec_writeGrant env pays
      rw [Thread.advance_events] at saw
      rcases List.mem_append.mp saw with old | new
      · exact stay.stored pubkey grant old
      · obtain ⟨rfl, answer⟩ := taken_eq (List.mem_singleton.mp new).symm
        exact Option.isSome_iff_exists.mpr ⟨grant, answer.symm⟩
    · rw [Thread.advance_events]
      intro lost
      rcases lost.of_concat with old | ⟨pubkey, grant, isRead, saw⟩
      · exact stay.kept old
      · obtain ⟨rfl, answer⟩ := taken_eq isRead
        have stored := stay.stored pubkey grant saw
        have gone : pool.state.db.grant pubkey "write" = none := answer.symm
        rw [gone] at stored
        cases stored
  case others =>
    intro pool later label index thread before step _ found _ stay
    refine ⟨fun pubkey grant saw => ?_, stay.kept⟩
    have stored := stay.stored pubkey grant saw
    cases step with
    | arrive => exact stored
    | tick => exact stored
    | act env actorFound pending =>
        exact Op.exec_writeGrant env (Reachable.pays before
          (List.mem_of_getElem? actorFound) pending) stored

/-! ## Runs -/

/-- The thread has called `create_invoice`, or is about to. -/
def CallsCreateInvoice (thread : FloonetThread) : Prop :=
  History.HasCreated thread.events ∨
    thread.program.nextOp.any Op.creates = true

/-- In every state of every run, a request for a public status calls
`create_invoice` if and only if the backend has answered it that the invoice
of the pending grant has expired. -/
theorem public_status_creates_iff
    (reachable : (server ext cfg).Reachable permitted pool)
    (member : thread ∈ pool.threads) {raw : String} {headers : Headers}
    (request : thread.request = .paidStatus raw headers) :
    CallsCreateInvoice thread ↔ History.HeardExpired thread.events := by
  have kept := (Reachable.grantsStay reachable thread member).kept
  have follows := reachable.follows thread member
  rw [request] at follows
  have every := follows.every (paidStatus_creates raw headers)
  have rightly : History.CreatesIfExpired thread.events
      thread.program.nextOp := by
    cases isProgram : thread.program with
    | done response =>
        rw [isProgram] at every
        exact every
    | step op next =>
        rw [isProgram] at every
        exact every.1
  exact rightly.resolve_right kept

/-! ## A client that asks for a quote -/

namespace Sample

/-- Write access costs two grin, and the backend is polled every five
seconds. -/
def writeConfig : Config :=
  { Config.forTest with
    payMode := .write
    writePriceNanogrin := 2000000000
    goblinpayUrl := "https://pay.example"
    goblinpayToken := "token"
    paidPollInterval := .fromSecs 5 }

def quoteWrite : Bytes :=
  asciiBytes (braces [stringField ("resource", "write")])

/-- Third-party code that knows the body of the quote. -/
def payHost : Extern :=
  { host with
    quoteBody := fun bytes => if bytes = quoteWrite then some "write" else none
    sha256 := fun bytes =>
      if bytes = quoteWrite then (Text.hexDecode
        "7a362f18981e512d8ec79e0bcf592cd17e54b9dd697d75379e05c32abb031de9").getD
          []
      else host.sha256 bytes }

abbrev WriteMarket : FloonetSystem := server payHost writeConfig

def quoteId : String :=
  "eadfbc0eb14ecb91ea0e76e650d2a992dcb1dffa5966ed8a02d9ee103a6f7966"

theorem quoteId_valid : validPubkeyHex quoteId = true := by decide +kernel

/-- The seller asks for a quote of write access. -/
def askQuote : WriteMarket.Served where
  request := .quote (signRequest payHost writeConfig (.ofHex quoteId)
    (.ofHex seller) (.ofNat start) .post "/api/v1/quote" quoteWrite) quoteWrite
  program := opened writeConfig "quote"
    (MachineInt.asI64 (UInt64.ofNat start).toNat) quoteId
    (quoting writeConfig seller "write")
  serves := by
    have read : payHost.quoteBody quoteWrite = some "write" := by
      simp [payHost]
    have serves := quote_signRequest payHost writeConfig (.ofHex quoteId)
      (.ofHex seller) (.ofNat start) read rfl
    rw [Bytes32.toHex_ofHex quoteId_valid,
      Bytes32.toHex_ofHex seller_valid] at serves
    exact serves

/-- Anyone asks whether the seller has paid. -/
def askStatus : WriteMarket.Served where
  request := .paidStatus seller ⟨.missing, none⟩
  program := paidStatus payHost writeConfig seller ⟨.missing, none⟩
  serves := rfl

def Request.asksStatus : Request → Bool
  | .paidStatus _ headers => headers.authorization = .missing
  | _ => false

/-- The invoice of the quote expires before the status is asked for. -/
def expiry : List WriteMarket.Move :=
  WriteMarket.alone askQuote 0 (backend "first" "pending") 8 ++
    WriteMarket.alone askStatus 1 (backend "second" "expired") 10

theorem asksStatus_iff {request : Request} :
    Request.asksStatus request = true ↔ ∃ raw headers,
      request = .paidStatus raw headers ∧ headers.authorization = .missing := by
  constructor
  · intro asks
    cases request with
    | paidStatus raw headers => exact ⟨raw, headers, rfl, of_decide_eq_true asks⟩
    | _ => cases asks
  · rintro ⟨raw, headers, rfl, missing⟩
    exact decide_eq_true missing

theorem expiry_reached : ∃ pool, WriteMarket.Reachable anyMove pool ∧
    ∃ thread ∈ pool.threads, ∃ raw headers,
      thread.request = .paidStatus raw headers ∧
      headers.authorization = .missing ∧
      History.HasCreated thread.events := by
  have reached : ∃ pool, WriteMarket.Reachable anyMove pool ∧
      (pool.threads.any fun thread => Request.asksStatus thread.request &&
        thread.events.any (·.op.creates)) = true :=
    play_reaches (fun _ _ _ => true) (fun _ _ _ _ => trivial) world_initial
      expiry (by decide +kernel)
  obtain ⟨pool, reachable, found⟩ := reached
  obtain ⟨thread, member, found⟩ := List.any_eq_true.mp found
  rw [Bool.and_eq_true, asksStatus_iff, List.any_eq_true] at found
  obtain ⟨⟨raw, headers, request, missing⟩, created⟩ := found
  exact ⟨pool, reachable, thread, member, raw, headers, request, missing,
    created⟩

end Sample

open Sample

theorem public_status_creates_iff_expiry : ∃ pool : FloonetPool,
    WriteMarket.Reachable anyMove pool ∧ ∃ thread ∈ pool.threads,
      (∃ raw headers, thread.request = .paidStatus raw headers) ∧
      (CallsCreateInvoice thread ↔ History.HeardExpired thread.events) := by
  obtain ⟨pool, reachable, thread, member, raw, headers, request, -⟩ :=
    expiry_reached
  exact ⟨pool, reachable, thread, member, ⟨raw, headers, request⟩,
    public_status_creates_iff reachable member request⟩

/-- A request without authorization creates an invoice. -/
theorem invoice_created_publicly : writeConfig.validate = .ok () ∧
    writeConfig.payMode = .write ∧ ∃ pool : FloonetPool,
      WriteMarket.Reachable anyMove pool ∧ ∃ thread ∈ pool.threads,
        (∃ raw headers, thread.request = .paidStatus raw headers ∧
          headers.authorization = .missing) ∧
        CallsCreateInvoice thread := by
  refine ⟨Validation.toOption_eq_some.mp (by decide +kernel), rfl, ?_⟩
  obtain ⟨pool, reachable, thread, member, raw, headers, request, missing,
    created⟩ := expiry_reached
  exact ⟨pool, reachable, thread, member, ⟨raw, headers, request, missing⟩,
    .inl created⟩

end Floonet
