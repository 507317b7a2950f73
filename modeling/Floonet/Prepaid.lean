import Floonet.Availability
import Floonet.PublicStatus

/-!
# Payments that are honoured

Requests are served one at a time here.  Once a grant is paid, the payment
backend has no say any more: the key registers as if names were free, and its
write access is confirmed without a question to anybody.
-/

namespace Floonet

open Concurrent Program System Text Validation

variable {ext : Extern} {cfg : Config} {env env' : Env} {world : World}
  {pubkey resource : String}

/-- The key holds a paid grant. -/
def Db.Paid (db : Db) (pubkey resource : String) : Prop :=
  ∃ grant, db.grant pubkey resource = some grant ∧ grant.status = .paid

/-- The same authority without a paywall. -/
def Config.free (cfg : Config) : Config := { cfg with payMode := .off }

/-! ## Steps that no remote side answers -/

def Op.isLocal : Op → Bool
  | .tipHeight => false
  | .kernel _ => false
  | .createInvoice _ _ _ => false
  | .invoiceStatus _ => false
  | _ => true

theorem Op.exec_local (op : Op) (state : World) (isLocal : op.isLocal = true) :
    op.exec env state = op.exec env' state := by
  cases op with
  | tipHeight => cases isLocal
  | kernel => cases isLocal
  | createInvoice => cases isLocal
  | invoiceStatus => cases isLocal
  | _ => rfl

theorem authorize_local (bucket : String) (headers : Headers) (method : Method)
    (urlPath : String) (body : Bytes) :
    (authorize ext cfg bucket headers method urlPath body).Uses
      fun _ op => op.isLocal = true := by
  have allows : (App.allowWrite cfg bucket (clientIp headers)).Uses
      fun _ op => op.isLocal = true :=
    uses_perform_bind (fun _ => rfl) fun _ => uses_perform fun _ => rfl
  unfold authorize
  refine allows.bind fun allowed => ?_
  split
  · exact uses_done _
  have verifies : (verifyNip98 ext cfg headers method urlPath body).Uses
      fun _ op => op.isLocal = true :=
    (verifyNip98_reads ext cfg headers method urlPath body).mono
      (by simp [Op.isLocal])
  refine verifies.bind fun result => ?_
  rcases result with ⟨code, message⟩ | ⟨key, authId⟩
  · exact uses_done _
  refine uses_perform_bind (fun _ => rfl) fun _ =>
    uses_perform_bind (fun _ => rfl) fun fresh => ?_
  cases fresh <;> exact uses_done _

/-! ## Registrations -/

/-- A registration that succeeds takes the grant of the key. -/
def spend (pubkey : String) (out : Response × World) : Response × World :=
  (out.1, if out.1.status = .created then
    { out.2 with db := out.2.db.consumeGrant pubkey "name" } else out.2)

theorem spend_other {out : Response × World} (other : out.1.status ≠ .created) :
    spend pubkey out = out := by
  rw [spend, if_neg other]

theorem ensurePaid_paid (paid : world.db.Paid pubkey resource) :
    (ensurePaid cfg pubkey resource).run (Op.exec env) world =
      (.paid, world) := by
  obtain ⟨grant, found, isPaid⟩ := paid
  unfold ensurePaid
  split
  · rfl
  have read : Op.exec env (.db (.grant pubkey resource)) world =
      (some grant, world) := congrArg (·, world) found
  rw [App.grant, run_perform_bind _ read]
  dsimp only
  rw [if_pos isPaid]
  rfl

theorem acquireName_prepaid (mode : cfg.payMode = .name)
    (authPubkey name : String) :
    (acquireName cfg authPubkey name pubkey).run (Op.exec env) world =
      spend authPubkey ((acquireName cfg.free authPubkey name pubkey).run
        (Op.exec env') world) := by
  have unpaid : cfg.free.payMode ≠ .name := nofun
  obtain ⟨answer, after, executed, executed'⟩ : ∃ answer after,
      Op.exec env (.db (.insertName name pubkey)) world = (answer, after) ∧
      Op.exec env' (.db (.insertName name pubkey)) world = (answer, after) :=
    ⟨_, _, rfl, rfl⟩
  unfold acquireName
  rw [App.insertName, run_perform_bind _ executed, run_perform_bind _ executed']
  rcases answer with error | count
  · cases error <;> rfl
  · cases count with
    | zero => rfl
    | succ count =>
        dsimp only
        rw [if_pos mode, if_neg unpaid]
        rfl

theorem registerName_prepaid (mode : cfg.payMode = .name)
    {authPubkey : String} (paid : world.db.Paid authPubkey "name")
    (name : String) :
    (registerName cfg authPubkey name pubkey).run (Op.exec env) world =
      spend authPubkey ((registerName cfg.free authPubkey name pubkey).run
        (Op.exec env') world) := by
  have unpaid : cfg.free.payMode ≠ .name := nofun
  unfold registerName
  rw [lookup_run, lookup_run]
  cases world.db.lookup name with
  | some owner =>
      dsimp only
      split <;> rfl
  | none =>
      dsimp only
      rw [nameOf_run, nameOf_run]
      cases world.db.nameOf pubkey with
      | some existing => rfl
      | none =>
          dsimp only
          have passes : (registerPayment cfg authPubkey).run (Op.exec env)
              world = (none, world) := by
            rw [registerPayment, if_neg (fun other => other mode), run_bind,
              ensurePaid_paid paid]
            rfl
          rw [run_bind, passes, registerPayment, if_pos unpaid, pure_eq_done,
            done_bind]
          exact acquireName_prepaid mode authPubkey name

/-- With a paid grant, a registration is served as if names were free,
whatever any remote side would say. -/
theorem register_prepaid (mode : cfg.payMode = .name) {headers : Headers}
    (signed : headers.signer = some pubkey)
    (paid : world.db.Paid pubkey "name") (body : Bytes) :
    (register ext cfg headers body).run (Op.exec env) world =
      spend pubkey ((register ext cfg.free headers body).run (Op.exec env')
        world) := by
  have isLocal : (authorize ext cfg "reg" headers .post "/api/v1/register"
      body).Uses fun _ op => op.isLocal = true := authorize_local _ _ _ _ _
  have sameAuth : (authorize ext cfg.free "reg" headers .post
      "/api/v1/register" body).run (Op.exec env') world =
      (authorize ext cfg "reg" headers .post "/api/v1/register" body).run
        (Op.exec env) world :=
    (isLocal []).run_congr (fun op state => op.exec_local state) world
  have sameDb := authorize_run ext cfg env world "reg" headers .post
    "/api/v1/register" body
  unfold register
  rw [run_bind, run_bind, sameAuth]
  cases authorized : ((authorize ext cfg "reg" headers .post
    "/api/v1/register" body).run (Op.exec env) world).1 with
  | error refusal =>
      have turned : refusal.status ≠ .created :=
        (authorize_refusal authorized).status_ne nofun nofun
      exact (spend_other turned).symm
  | ok authPubkey =>
      have signer := authorize_signer authorized
      rw [signed] at signer
      cases signer
      generalize ((authorize ext cfg "reg" headers .post "/api/v1/register"
        body).run (Op.exec env) world).2 = admitted at sameDb ⊢
      obtain ⟨cooling, later, cooled, cooled', keptDb⟩ :
          ∃ cooling later,
            (App.cooldownActive "namechange" pubkey cfg.nameChangeCooldown).run
              (Op.exec env) admitted = (cooling, later) ∧
            (App.cooldownActive "namechange" pubkey
              cfg.free.nameChangeCooldown).run (Op.exec env') admitted =
                (cooling, later) ∧ later.db = admitted.db :=
        ⟨_, _, rfl, rfl, rfl⟩
      have sameRequest : registerRequest ext cfg.free pubkey body =
          registerRequest ext cfg pubkey body := rfl
      dsimp only
      rw [run_bind, cooled, run_bind, cooled', sameRequest]
      dsimp only
      split
      · rfl
      cases checked : registerRequest ext cfg pubkey body with
      | error refusal =>
          have refused : refusal.status ≠ .created :=
            registerRequest_refuses ext cfg .created nofun nofun nofun pubkey
              body refusal checked
          exact (spend_other refused).symm
      | ok accepted =>
          rw [← sameDb, ← keptDb] at paid
          exact registerName_prepaid mode paid accepted.1

/-! ## Statuses -/

theorem paidStatus_prepaid (mode : cfg.payMode = .write)
    (paid : world.db.Paid pubkey "write") {raw : String} {visitor : Headers}
    (allowed : Allowed cfg env world visitor)
    (isKey : ext.cases.toLowercase raw = pubkey)
    (valid : validPubkeyHex pubkey = true) :
    ((server ext cfg).exchange env (.paidStatus raw visitor) world).response =
      paidBody pubkey true := by
  subst isKey
  obtain ⟨grant, found, isPaid⟩ := paid
  have read : Op.exec env (.db (.grant (ext.cases.toLowercase raw) "write"))
      ((App.allowRead cfg (clientIp visitor)).run (Op.exec env) world).2 =
        (some grant,
          ((App.allowRead cfg (clientIp visitor)).run (Op.exec env) world).2) :=
    congrArg (·, _) found
  show ((paidStatus ext cfg raw visitor).run (Op.exec env) world).1 = _
  unfold paidStatus
  rw [allowed.run_bind]
  simp only [Bool.not_true, Bool.false_eq_true, if_false, valid]
  rw [if_neg (not_not_intro mode), App.grant, run_perform_bind _ read]
  dsimp only
  rw [if_pos isPaid]
  rfl

/-! ## Paid grants stay -/

/-- The step neither replaces nor takes the grant. -/
def Op.spares (pubkey resource : String) : Op → Prop
  | .db (.putPendingGrant key ware _ _) => ¬(pubkey = key ∧ resource = ware)
  | .db (.consumeGrant key ware) => ¬(pubkey = key ∧ resource = ware)
  | _ => True

theorem Db.Paid.step (env : Env) (op : Op) (state : World)
    (spares : op.spares pubkey resource)
    (paid : state.db.Paid pubkey resource) :
    (op.exec env state).2.db.Paid pubkey resource := by
  obtain ⟨grant, found, isPaid⟩ := paid
  refine ⟨grant, ?_, isPaid⟩
  cases op.exec_grants env state with
  | kept _ same => rw [same, found]
  | recorded put =>
      rw [put]
      exact (if_neg spares).trans found
  | confirmed marked =>
      rw [marked]
      dsimp only
      rw [found, Option.map_some, Grant.confirm_of_paid isPaid]
  | consumed deleted =>
      rw [deleted]
      exact (if_neg spares).trans found

theorem Op.spares_of_free {op : Op} (free : op.charges = false) :
    op.spares pubkey resource := by
  cases op with
  | db op =>
      cases op with
      | putPendingGrant => cases free
      | consumeGrant => cases free
      | _ => trivial
  | _ => trivial

/-- Served alone, the program leaves a paid grant alone. -/
abbrev KeepsPaid {Res : Type} (env : Env) (pubkey resource : String)
    (program : Handler Res) : Prop :=
  Triple (Op.exec env) (fun world => world.db.Paid pubkey resource) program
    fun _ world => world.db.Paid pubkey resource

theorem keepsPaid_of_spares {Res : Type} {program : Handler Res}
    (uses : program.Uses fun _ op => op.spares pubkey resource) :
    KeepsPaid env pubkey resource program :=
  (uses []).triple fun op state spares paid => paid.step env op state spares

section Ensure

variable {key ware : String} (other : ¬(pubkey = key ∧ resource = ware))

include other

theorem newGrant_spares (price : Nat) :
    (newGrant cfg key ware price).Uses fun _ op =>
      op.spares pubkey resource := by
  unfold newGrant
  refine uses_perform_bind (fun _ => trivial) fun answer => ?_
  cases answer with
  | error => exact uses_done _
  | ok invoice => exact uses_perform_bind (fun _ => other) fun _ => uses_done _

theorem pollGrant_spares (grant : Grant) (price : Nat) :
    (pollGrant cfg grant key ware price).Uses fun _ op =>
      op.spares pubkey resource := by
  unfold pollGrant
  refine uses_perform_bind (fun _ => trivial) fun _ =>
    uses_perform_bind (fun _ => trivial) fun active => ?_
  split
  · exact uses_done _
  refine uses_perform_bind (fun _ => trivial) fun _ =>
    uses_perform_bind (fun _ => trivial) fun answer => ?_
  split
  · split
    · exact uses_perform_bind (fun _ => trivial) fun _ => uses_done _
    split
    · exact newGrant_spares other price
    · exact uses_done _
  · exact uses_done _

theorem ensurePaid_spares : (ensurePaid cfg key ware).Uses fun _ op =>
    op.spares pubkey resource := by
  unfold ensurePaid
  split
  · exact uses_done _
  refine uses_perform_bind (fun _ => trivial) fun found => ?_
  split
  · exact newGrant_spares other _
  split
  · exact uses_done _
  · exact pollGrant_spares other _ _

end Ensure

theorem ensurePaid_keeps (key ware : String) :
    KeepsPaid env pubkey resource (ensurePaid cfg key ware) := by
  by_cases same : pubkey = key ∧ resource = ware
  · obtain ⟨rfl, rfl⟩ := same
    intro state paid
    rw [ensurePaid_paid paid]
    exact paid
  · exact keepsPaid_of_spares (ensurePaid_spares same)

/-- A registration of the key has used up its grant. -/
def Spends (pubkey resource : String) (request : Request)
    (response : Response) : Prop :=
  resource = "name" ∧ request.registers = true ∧
    request.signer = some pubkey ∧ response.status = .created

theorem authorize_keeps (bucket : String) (headers : Headers) (method : Method)
    (urlPath : String) (body : Bytes) :
    Triple (Op.exec env) (fun state => state.db.Paid pubkey resource)
      (authorize ext cfg bucket headers method urlPath body)
      fun result state => state.db.Paid pubkey resource ∧
        ∀ authPubkey, result = .ok authPubkey →
          headers.signer = some authPubkey := by
  intro state paid
  refine ⟨?_, fun authPubkey authorized => authorize_signer authorized⟩
  rw [authorize_run]
  exact paid

theorem acquireName_keeps (authPubkey name key : String) :
    Triple (Op.exec env) (fun state => state.db.Paid pubkey resource)
      (acquireName cfg authPubkey name key) fun response state =>
        state.db.Paid pubkey resource ∨
          resource = "name" ∧ authPubkey = pubkey ∧
            response.status = .created := by
  unfold acquireName
  have inserts : KeepsPaid env pubkey resource (App.insertName name key) :=
    fun state paid => paid.step env _ state trivial
  refine inserts.bind fun answer => ?_
  rcases answer with error | count
  · cases error <;> exact triple_done fun _ paid => .inl paid
  cases count with
  | zero => exact triple_done fun _ paid => .inl paid
  | succ count =>
      dsimp only
      split
      · intro state paid
        by_cases same : pubkey = authPubkey ∧ resource = "name"
        · exact .inr ⟨same.2, same.1.symm, rfl⟩
        · exact .inl (paid.step env (.db (.consumeGrant authPubkey "name")) state
            same)
      · exact triple_done fun _ paid => .inl paid

theorem registerName_keeps (authPubkey name key : String) :
    Triple (Op.exec env) (fun state => state.db.Paid pubkey resource)
      (registerName cfg authPubkey name key) fun response state =>
        state.db.Paid pubkey resource ∨
          resource = "name" ∧ authPubkey = pubkey ∧
            response.status = .created := by
  have looks : KeepsPaid env pubkey resource (App.lookup name) :=
    keepsPaid_of_spares (uses_perform fun _ => trivial)
  have names : KeepsPaid env pubkey resource (App.nameOf key) :=
    keepsPaid_of_spares (uses_perform fun _ => trivial)
  have pays : KeepsPaid env pubkey resource
      (registerPayment cfg authPubkey) := by
    unfold registerPayment
    split
    · exact triple_done fun _ paid => paid
    refine (ensurePaid_keeps authPubkey "name").bind fun outcome => ?_
    cases outcome <;> exact triple_done fun _ paid => paid
  unfold registerName
  refine looks.bind fun found => ?_
  split
  · split <;> exact triple_done fun _ paid => .inl paid
  refine names.bind fun named => ?_
  split
  · exact triple_done fun _ paid => .inl paid
  refine pays.bind fun refusal => ?_
  split
  · exact triple_done fun _ paid => .inl paid
  · exact acquireName_keeps authPubkey name key

theorem register_keeps (headers : Headers) (body : Bytes) :
    Triple (Op.exec env) (fun state => state.db.Paid pubkey resource)
      (register ext cfg headers body) fun response state =>
        state.db.Paid pubkey resource ∨
          Spends pubkey resource (.register headers body) response := by
  unfold register
  refine (authorize_keeps "reg" headers .post "/api/v1/register" body).bind
    fun result => Triple.given fun signed => ?_
  rcases result with refusal | authPubkey
  · exact triple_done fun _ paid => .inl paid
  have cools : KeepsPaid env pubkey resource (App.cooldownActive "namechange"
      authPubkey cfg.nameChangeCooldown) :=
    keepsPaid_of_spares (uses_perform_bind (fun _ => trivial) fun _ =>
      uses_perform fun _ => trivial)
  dsimp only
  refine cools.bind fun active => ?_
  split
  · exact triple_done fun _ paid => .inl paid
  split
  · exact triple_done fun _ paid => .inl paid
  · refine (registerName_keeps authPubkey _ _).mono ?_
    rintro response later (paid | ⟨isName, rfl, created⟩)
    · exact .inl paid
    · exact .inr ⟨isName, rfl, signed _ rfl, created⟩

theorem quote_keeps (headers : Headers) (body : Bytes) :
    KeepsPaid env pubkey resource (quote ext cfg headers body) := by
  unfold quote
  refine (authorize_keeps "quote" headers .post "/api/v1/quote" body).bind
    fun result => Triple.given fun _ => ?_
  rcases result with refusal | authPubkey
  · exact triple_done fun _ paid => paid
  dsimp only
  split
  · split
    · exact triple_done fun _ paid => paid
    refine (ensurePaid_keeps authPubkey _).bind fun outcome => ?_
    cases outcome <;> exact triple_done fun _ paid => paid
  · exact triple_done fun _ paid => paid

theorem paidStatus_keeps (raw : String) (headers : Headers) :
    KeepsPaid env pubkey resource (paidStatus ext cfg raw headers) := by
  have allows : KeepsPaid env pubkey resource
      (App.allowRead cfg (clientIp headers)) :=
    keepsPaid_of_spares (uses_perform_bind (fun _ => trivial) fun _ =>
      uses_perform fun _ => trivial)
  have reads : ∀ key, KeepsPaid env pubkey resource (App.grant key "write") :=
    fun key => keepsPaid_of_spares (uses_perform fun _ => trivial)
  unfold paidStatus
  refine allows.bind fun allowed => ?_
  split
  · exact triple_done fun _ paid => paid
  dsimp only
  split
  · exact triple_done fun _ paid => paid
  split
  · exact triple_done fun _ paid => paid
  refine (reads _).bind fun found => ?_
  split
  · exact triple_done fun _ paid => paid
  split
  · exact triple_done fun _ paid => paid
  refine (ensurePaid_keeps _ "write").bind fun outcome => ?_
  split <;> exact triple_done fun _ paid => paid

/-- A webhook confirms grants, and takes none. -/
theorem goblinpayWebhook_spares (signature : Option String) (body : Bytes) :
    (goblinpayWebhook ext cfg signature body).Uses fun _ op =>
      op.spares pubkey resource := by
  have confirms : ∀ invoiceId, (confirmInvoice cfg invoiceId).Uses
      fun _ op => op.spares pubkey resource := by
    intro invoiceId
    unfold confirmInvoice
    split
    · exact uses_done _
    refine uses_perform_bind (fun _ => True.intro) fun answer => ?_
    cases answer <;> exact uses_done _
  unfold goblinpayWebhook
  split
  · split
    · exact uses_done _
    split
    · split
      · refine uses_perform_bind (fun _ => True.intro) fun found => ?_
        split
        · exact uses_done _
        dsimp only
        split
        · refine (confirms _).bind fun confirmed => ?_
          split
          · exact uses_perform_bind (fun _ => True.intro) fun _ => uses_done _
          · exact uses_done _
        · exact uses_done _
      · exact uses_done _
    · exact uses_done _
  · exact uses_done _

/-- Whatever is asked, a paid grant stays until a registration of its key has
used it up. -/
theorem routes_keeps (request : Request) :
    Triple (Op.exec env) (fun state => state.db.Paid pubkey resource)
      (routes ext cfg request) fun response state =>
        state.db.Paid pubkey resource ∨
          Spends pubkey resource request response := by
  have ofFree : request.charges = false →
      KeepsPaid env pubkey resource (routes ext cfg request) := by
    intro free
    refine keepsPaid_of_spares fun past =>
      ((routes_uses ext cfg request) past).mono ?_ fun _ _ _ _ => trivial
    intro past op _ within
    apply Op.spares_of_free
    cases charges : op.charges with
    | false => rfl
    | true =>
        have paying := within.charged charges
        rw [free] at paying
        cases paying
  cases request with
  | register headers body => exact register_keeps headers body
  | quote headers body =>
      exact (quote_keeps headers body).mono fun _ _ paid => .inl paid
  | paidStatus raw headers =>
      exact (paidStatus_keeps raw headers).mono fun _ _ paid => .inl paid
  | goblinpayWebhook signature body =>
      exact (keepsPaid_of_spares (goblinpayWebhook_spares signature body)).mono
        fun _ _ paid => .inl paid
  | _ => exact (ofFree rfl).mono fun _ _ paid => .inl paid

/-! ## Serial runs -/

theorem SerialRun.paid {log before after : List FloonetExchange}
    {first : FloonetExchange} (run : (server ext cfg).SerialRun log world)
    (parts : log = before ++ first :: after)
    (paid : first.after.db.Paid pubkey resource)
    (unspent : ∀ served ∈ after,
      ¬ Spends pubkey resource served.request served.response) :
    world.db.Paid pubkey resource := by
  induction run generalizing after with
  | start initial => simp at parts
  | tick elapsed _ induction => exact induction parts unspent
  | @serve log state env request run induction =>
      rcases List.eq_nil_or_concat after with rfl | ⟨middle, last, rfl⟩
      · obtain ⟨-, same⟩ := List.append_inj' parts rfl
        cases same
        exact paid
      · rw [List.concat_eq_append, ← List.cons_append, ← List.append_assoc]
          at parts
        obtain ⟨same, isLast⟩ := List.append_inj' parts rfl
        have stays := induction same fun served member =>
          unspent served (by simp [member])
        cases isLast
        have kept := @routes_keeps ext cfg env pubkey resource request state
          stays
        rcases kept with kept | spent
        · exact kept
        · have member : (server ext cfg).exchange env request state ∈
              middle.concat ((server ext cfg).exchange env request state) := by
            simp
          exact absurd spent (unspent _ member)

/-- A payment is honoured: until a registration has used up a grant that is
paid, a registration of its key is served as if names were free and write
access is confirmed, and no remote side has any say in it. -/
theorem payment_honoured {before after : List FloonetExchange}
    {first : FloonetExchange}
    (run : (server ext cfg).SerialRun (before ++ first :: after) world)
    (paid : first.after.db.Paid pubkey resource)
    (unspent : ∀ served ∈ after,
      ¬ Spends pubkey resource served.request served.response) :
    (cfg.payMode = .name → resource = "name" →
      ∀ env env' headers body, headers.signer = some pubkey →
        let paying := (server ext cfg).exchange env (.register headers body)
          world
        let free := (server ext cfg.free).exchange env'
          (.register headers body) world
        paying.response = free.response ∧
          paying.after = if free.response.status = .created then
              { free.after with
                db := free.after.db.consumeGrant pubkey "name" }
            else free.after) ∧
    (cfg.payMode = .write → resource = "write" →
      ∀ env raw visitor, Allowed cfg env world visitor →
        ext.cases.toLowercase raw = pubkey → validPubkeyHex pubkey = true →
          ((server ext cfg).exchange env (.paidStatus raw visitor)
            world).response = paidBody pubkey true) := by
  have stays := SerialRun.paid run rfl paid unspent
  constructor
  · rintro mode rfl env env' headers body signed
    have served : (register ext cfg headers body).run (Op.exec env) world =
        spend pubkey ((register ext cfg.free headers body).run (Op.exec env')
          world) := register_prepaid mode signed stays body
    exact Prod.ext_iff.mp served
  · rintro mode rfl env raw visitor allowed isKey valid
    exact paidStatus_prepaid mode stays allowed isKey valid

namespace Sample

def quoteName : Bytes := asciiBytes (braces [stringField ("resource", "name")])

/-- Third-party code that knows the body of a quote of a name. -/
def nameHost : Extern :=
  { host with
    quoteBody := fun bytes => if bytes = quoteName then some "name" else none
    sha256 := fun bytes =>
      if bytes = quoteName then (Text.hexDecode
        "80011d09d81f580aaf7cf07af74c59063e087b747c039fe054448ffe35892e7b").getD
          []
      else host.sha256 bytes }

abbrev NameMarket : FloonetSystem := server nameHost payingConfig

/-- The seller asks for a quote of a name. -/
def askName (id : String) (createdAt : Nat)
    (validId : validPubkeyHex id = true) : NameMarket.Served where
  request := .quote (signRequest nameHost payingConfig (.ofHex id)
    (.ofHex seller) (.ofNat createdAt) .post "/api/v1/quote" quoteName)
    quoteName
  program := opened payingConfig "quote"
    (MachineInt.asI64 (UInt64.ofNat createdAt).toNat) id
    (quoting payingConfig seller "name")
  serves := by
    have read : nameHost.quoteBody quoteName = some "name" := by
      simp [nameHost]
    have serves := quote_signRequest nameHost payingConfig (.ofHex id)
      (.ofHex seller) (.ofNat createdAt) read rfl
    rw [Bytes32.toHex_ofHex validId, Bytes32.toHex_ofHex seller_valid] at serves
    exact serves

def askFirst : NameMarket.Served :=
  askName "7c7a0da395a45f178e3f4b3cd62e54f9295dfa942611a15e241762979ea92fa3"
    start (by decide +kernel)

def askAgain : NameMarket.Served :=
  askName "d630de647ca235c5a80e15a0099cd93c5fa20b145bd06ddf1bb81b893a4575d6"
    (start + 1) (by decide +kernel)

/-- The first quote names an invoice. -/
def nameQuoted : FloonetExchange :=
  askFirst.exchange (backend "first" "pending") Sample.world

/-- The second one is asked for when the invoice is paid. -/
def nameSettled : FloonetExchange :=
  askAgain.exchange (backend "none" "paid") nameQuoted.after

theorem paid_of_grant {db : Db} {pubkey resource : String}
    (found : ((db.grant pubkey resource).any fun grant =>
      decide (grant.status = .paid)) = true) : db.Paid pubkey resource := by
  obtain ⟨grant, isGrant, paid⟩ := (Option.any_eq_true _ _).mp found
  exact ⟨grant, isGrant, of_decide_eq_true paid⟩

theorem nameSettled_paid : nameSettled.after.db.Paid seller "name" :=
  paid_of_grant (by decide +kernel)

/-- The seller asks once more, and the backend would open another invoice. -/
def nameQuotedLater : FloonetExchange :=
  (askName "3f0a2b7f4c5d6e8f90a1b2c3d4e5f60718293a4b5c6d7e8f9a0b1c2d3e4f5061"
    (start + 2) (by decide +kernel)).exchange (backend "second" "expired")
      nameSettled.after

def lookUpName : NameMarket.Served where
  request := .availability "carol" ⟨.missing, none⟩
  program := availability nameHost payingConfig "carol" ⟨.missing, none⟩
  serves := rfl

/-- Somebody looks a name up. -/
def nameLookedUp : FloonetExchange :=
  lookUpName.exchange (backend "none" "none") nameQuotedLater.after

end Sample

open Sample

/-- Whatever the seller registers now is not asked for a payment. -/
theorem payment_honoured_quoted :
    NameMarket.SerialRun
      ([nameQuoted] ++ nameSettled :: [nameQuotedLater, nameLookedUp])
      nameLookedUp.after ∧
    ∀ env env' headers body, headers.signer = some seller →
      (NameMarket.exchange env (.register headers body)
        nameLookedUp.after).response =
      ((server nameHost payingConfig.free).exchange env'
        (.register headers body) nameLookedUp.after).response := by
  have run : NameMarket.SerialRun
      ([nameQuoted] ++ nameSettled :: [nameQuotedLater, nameLookedUp])
      nameLookedUp.after :=
    ((((SerialRun.start world_initial).serveBy (backend "first" "pending")
      askFirst).serveBy (backend "none" "paid") askAgain).serveBy
        (backend "second" "expired") _).serveBy (backend "none" "none")
          lookUpName
  refine ⟨run, fun env env' headers body signed => ?_⟩
  have unspent : ∀ served ∈ [nameQuotedLater, nameLookedUp],
      ¬ Spends seller "name" served.request served.response := by
    rintro served member ⟨-, registers, -⟩
    simp only [List.mem_cons, List.not_mem_nil, or_false] at member
    rcases member with rfl | rfl
    · cases registers
    · cases registers
  obtain ⟨honoured, -⟩ := payment_honoured run nameSettled_paid unspent
  exact (honoured rfl rfl env env' headers body signed).1

end Floonet
