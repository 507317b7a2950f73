import Floonet.ClaimOutcome
import Floonet.Clocks
import Floonet.RateRecords
import Floonet.Registrations

/-!
# Availability and registration

The availability endpoint and the registration decide whether a name is free
by two copies of the same checks.  In every reachable state they agree, and
the public lookups then report the registration.
-/

namespace Floonet

open Concurrent Program SlidingWindow System Validation

section Agreement

variable {ext : Extern} {cfg : Config} {env : Env} {world : World}

/-! ## What authorization does to the rate map -/

def Op.offRate : Op → Bool
  | .allow _ _ _ _ _ | .cooldownActive _ _ _ _ | .recordOp _ _ => false
  | _ => true

theorem Op.exec_offRate {op : Op} (off : op.offRate = true) (env : Env)
    (world : World) : (op.exec env world).2.rate = world.rate := by
  cases op with
  | allow => cases off
  | cooldownActive => cases off
  | recordOp => cases off
  | _ => rfl

theorem authorize_rate (bucket : String) (headers : Headers) (method : Method)
    (urlPath : String) (body : Bytes) :
    ((authorize ext cfg bucket headers method urlPath body).run (Op.exec env)
      world).2.rate =
        (world.rate.allow bucket (clientIp headers) cfg.writeRateMax
          cfg.writeRateWindow world.instant).2 := by
  let allowed := (App.allowWrite cfg bucket (clientIp headers)).run
    (Op.exec env) world
  have counted : allowed.2.rate =
      (world.rate.allow bucket (clientIp headers) cfg.writeRateMax
        cfg.writeRateWindow world.instant).2 := rfl
  unfold authorize
  rw [run_bind, ← counted]
  change (Program.run _ _ allowed.2).2.rate = _
  have kept : ∀ (op : Op) (state : World), op.offRate = true →
      state.rate = allowed.2.rate → (op.exec env state).2.rate =
        allowed.2.rate := by
    intro op state off same
    rw [Op.exec_offRate off, same]
  split
  · rfl
  · refine Every.run_preserves (fun later : World =>
      later.rate = allowed.2.rate) kept (?_ : Every
        (fun _ (op : Op) => op.offRate = true) (fun _ _ => True) _ []) rfl
    have verifies : (verifyNip98 ext cfg headers method urlPath body).Uses
        fun _ op => op.offRate = true :=
      (verifyNip98_reads ext cfg headers method urlPath body).mono
        (by simp [Op.offRate])
    refine every_bind.mpr ((verifies []).mono (fun _ _ _ => id) ?_)
    rintro past result - -
    rcases result with ⟨code, message⟩ | ⟨pubkey, authId⟩
    · trivial
    · refine ⟨rfl, fun _ => ⟨rfl, fun fresh => ?_⟩⟩
      cases fresh <;> trivial

/-- The key may change its name at this instant. -/
def World.rested (cfg : Config) (world : World) (pubkey : String) : Prop :=
  (world.rate.cooldownActive "namechange" pubkey cfg.nameChangeCooldown
    world.instant).1 = false

theorem World.rested_iff {pubkey : String} :
    world.rested cfg pubkey ↔
      recent cfg.nameChangeCooldown world.instant
        (world.rate.hits (RateMap.key "namechange" pubkey)) = [] := by
  rw [rested, RateMap.cooldownActive_fst, decide_eq_false_iff_not,
    Decidable.not_not]

theorem World.rested.authorize (ext : Extern) (env : Env) {pubkey : String}
    (rested : world.rested cfg pubkey) (keyed : world.rate.Keyed)
    (headers : Headers) (method : Method) (urlPath : String) (body : Bytes) :
    World.rested cfg ((Floonet.authorize ext cfg "reg" headers method urlPath
      body).run (Op.exec env) world).2 pubkey := by
  have different : RateMap.key "namechange" pubkey ≠
      RateMap.key "reg" (clientIp headers) := by
    intro same
    have buckets := (RateMap.key_inj (by decide) (by decide) same).1
    exact absurd buckets (by decide)
  have sameInstant : ((Floonet.authorize ext cfg "reg" headers method urlPath
      body).run (Op.exec env) world).2.instant = world.instant :=
    run_preserves (Op.exec env) (fun later => later.instant = world.instant)
      (fun op later same => (op.exec_instant env later).trans same) _ world rfl
  rw [rested_iff] at rested ⊢
  rw [authorize_rate, sameInstant]
  rw [recent_eq_nil] at rested ⊢
  intro time member
  exact rested time ((RateMap.allow_hits_other_sublist keyed different).subset
    member)

/-! ## Free names -/

/-- The name may be registered by a key without a name. -/
structure Db.Free (ext : Extern) (cfg : Config) (db : Db) (name : String) :
    Prop where
  valid : ValidName cfg (ext.cases.toLowercase name)
  absent : db.lookup (ext.cases.toLowercase name) = none

def Response.saysAvailable (response : Response) : Prop :=
  response.status = .ok ∧ response.body.get "available" = some (.bool true)

/-- The visitor's read is within the rate limit. -/
def Allowed (cfg : Config) (env : Env) (world : World) (headers : Headers) :
    Prop :=
  ((App.allowRead cfg (clientIp headers)).run (Op.exec env) world).1 = true

theorem Allowed.run_bind {headers : Headers}
    (allowed : Allowed cfg env world headers) {Res : Type}
    (rest : Bool → Handler Res) :
    (App.allowRead cfg (clientIp headers) >>= rest).run (Op.exec env) world =
      (rest true).run (Op.exec env)
        ((App.allowRead cfg (clientIp headers)).run (Op.exec env) world).2 := by
  have granted : ((App.allowRead cfg (clientIp headers)).run (Op.exec env)
    world).1 = true := allowed
  rw [Program.run_bind, granted]

theorem lookup_run (env : Env) (world : World) (name : String) {Res : Type}
    (rest : Option String → Handler Res) :
    (App.lookup name >>= rest).run (Op.exec env) world =
      (rest (world.db.lookup name)).run (Op.exec env) world := rfl

theorem nameOf_run (env : Env) (world : World) (pubkey : String) {Res : Type}
    (rest : Option String → Handler Res) :
    (App.nameOf pubkey >>= rest).run (Op.exec env) world =
      (rest (world.db.nameOf pubkey)).run (Op.exec env) world := rfl

/-- The endpoint says that exactly the free names are available. -/
theorem availability_iff {name : String} {headers : Headers}
    (allowed : Allowed cfg env world headers) :
    ((availability ext cfg name headers).run (Op.exec env)
        world).1.saysAvailable ↔ world.db.Free ext cfg name := by
  have unavailable : ∀ reason : String,
      ¬Response.saysAvailable ⟨.ok, .object
        [("name", .string (ext.cases.toLowercase name)),
          ("available", .bool false), ("reason", .string reason)]⟩ := by
    rintro reason ⟨-, claimed⟩
    cases claimed
  unfold availability
  rw [allowed.run_bind]
  dsimp only
  cases valid : validName (ext.cases.toLowercase name) cfg.nameMin
      cfg.nameMax with
  | false =>
      refine iff_of_false (unavailable "invalid") fun free => ?_
      rw [free.valid.valid] at valid
      cases valid
  | true =>
      cases reserved : isReserved (ext.cases.toLowercase name)
          cfg.extraReserved with
      | true =>
          refine iff_of_false (unavailable "reserved") fun free => ?_
          rw [free.valid.unreserved] at reserved
          cases reserved
      | false =>
          simp only [Bool.not_true, Bool.false_eq_true, if_false, lookup_run]
          change Response.saysAvailable (Program.run _ (if
            (world.db.lookup (ext.cases.toLowercase name)).isSome = true
              then _ else _) _).1 ↔ _
          cases found : world.db.lookup (ext.cases.toLowercase name) with
          | none =>
              exact iff_of_true ⟨rfl, rfl⟩ ⟨⟨valid, reserved⟩, found⟩
          | some owner =>
              refine iff_of_false (unavailable "taken") fun free => ?_
              rw [free.absent] at found
              cases found

/-! ## Registrations -/

theorem Bytes32.toHex_valid (value : Bytes32) :
    validPubkeyHex value.toHex = true := by
  have digits : ∀ digit : Fin 16,
      (Text.isHexDigit (Text.hexDigit digit.val) &&
        !Text.isAsciiUppercase (Text.hexDigit digit.val)) = true := by decide
  apply validPubkeyHex_of_chars rfl
  rw [Text.length_hexEncodeChars, value.property, Bool.and_eq_true,
    List.all_eq_true]
  refine ⟨rfl, fun c member => ?_⟩
  obtain ⟨digit, rfl⟩ := Text.mem_hexEncodeChars member
  exact digits digit

/-- A request to register `name` that a key without a name and without a
cooldown has signed, and that the rate limit lets through. -/
structure Registrant (ext : Extern) (cfg : Config) (env : Env) (world : World)
    (headers : Headers) (body : Bytes) (name pubkey : String) : Prop where
  authorized : ((authorize ext cfg "reg" headers .post "/api/v1/register"
    body).run (Op.exec env) world).1 = .ok pubkey
  asks : ∃ text, ext.registerBody body = some ⟨name, text⟩ ∧
    ext.cases.toLowercase text = pubkey
  nameless : world.db.nameOf pubkey = none
  rested : world.rested cfg pubkey

/-- The tables after a registration. -/
structure Db.RegisteredIn (after : Db) (name pubkey : String) : Prop where
  lookup : after.lookup name = some pubkey
  nameOf : after.nameOf pubkey = some name

theorem acquireName_run (env : Env) (world : World)
    (authPubkey : String) {name pubkey : String} (mode : cfg.payMode ≠ .name)
    (absent : world.db.lookup name = none)
    (nameless : world.db.nameOf pubkey = none) :
    ((acquireName cfg authPubkey name pubkey).run (Op.exec env)
        world).1.status = .created ∧
      ((acquireName cfg authPubkey name pubkey).run (Op.exec env)
        world).2.db.RegisteredIn name pubkey := by
  rcases world.db.insertName_cases name pubkey world.unixTime.seconds with
    ⟨-, owner, owned⟩ | ⟨-, -, other, taken⟩ | ⟨names, done, -, -, rows⟩
  · rw [absent] at owned
    cases owned
  · rw [nameless] at taken
    cases taken
  · have inserted : Op.exec env (.db (.insertName name pubkey)) world =
        (.ok 1, { world with db := { world.db with names } }) := by
      simp only [Op.exec, DbOp.exec, done]
    have active : Db.lookup { world.db with names } name = some pubkey :=
      Db.lookup_eq_some.mpr ⟨_, (rows _).mpr (.inl rfl), rfl, rfl, rfl⟩
    rw [acquireName, App.insertName, run_perform_bind _ inserted]
    dsimp only
    rw [if_neg mode]
    exact ⟨rfl, active, Db.lookup_eq_some_iff_nameOf.mp active⟩

theorem registerName_run (env : Env) (world : World)
    (authPubkey name : String) {pubkey : String}
    (mode : cfg.payMode ≠ .name) (nameless : world.db.nameOf pubkey = none) :
    (((registerName cfg authPubkey name pubkey).run (Op.exec env)
        world).1.status = .created ↔ world.db.lookup name = none) ∧
      (world.db.lookup name = none →
        ((registerName cfg authPubkey name pubkey).run (Op.exec env)
          world).2.db.RegisteredIn name pubkey) := by
  unfold registerName
  rw [lookup_run]
  cases found : world.db.lookup name with
  | some owner =>
      refine ⟨iff_of_false ?_ nofun, nofun⟩
      dsimp only
      split <;> nofun
  | none =>
      dsimp only
      rw [nameOf_run, nameless]
      dsimp only
      rw [registerPayment, if_pos mode, pure_eq_done, done_bind]
      obtain ⟨created, registered⟩ :=
        acquireName_run env world authPubkey mode found nameless
      exact ⟨iff_of_true created rfl, fun _ => registered⟩

theorem registerRequest_iff {name pubkey text : String} {body : Bytes}
    {accepted : String × String}
    (asks : ext.registerBody body = some ⟨name, text⟩)
    (isKey : ext.cases.toLowercase text = pubkey)
    (validKey : validPubkeyHex pubkey = true) :
    registerRequest ext cfg pubkey body = .ok accepted ↔
      ValidName cfg (ext.cases.toLowercase name) ∧
        accepted = (ext.cases.toLowercase name, pubkey) := by
  subst isKey
  simp only [registerRequest, bind_eq_ok, require_eq_ok, demand_eq_ok,
    pure_eq_ok, asks, Option.some.injEq]
  constructor
  · rintro ⟨_, rfl, _, -, _, -, _, valid, _, unreserved, same⟩
    exact ⟨⟨valid, (Bool.not_eq_true' _).mp unreserved⟩, same.symm⟩
  · rintro ⟨valid, rfl⟩
    exact ⟨_, rfl, (), validKey, (), BEq.rfl, (), valid.valid, (),
      (Bool.not_eq_true' _).mpr valid.unreserved, rfl⟩

namespace Registrant

variable {headers : Headers} {body : Bytes} {name pubkey : String}
  (registrant : Registrant ext cfg env world headers body name pubkey)

include registrant

theorem validKey : validPubkeyHex pubkey = true := by
  have signed := authorize_signer registrant.authorized
  unfold Headers.signer at signed
  split at signed
  · rename_i event _
    cases signed
    exact event.pubkey.toHex_valid
  · cases signed

theorem register_run (keyed : world.rate.Keyed) (mode : cfg.payMode ≠ .name) :
    (((register ext cfg headers body).run (Op.exec env) world).1.status =
        .created ↔ world.db.Free ext cfg name) ∧
      (world.db.Free ext cfg name →
        ((register ext cfg headers body).run (Op.exec env)
          world).2.db.RegisteredIn (ext.cases.toLowercase name) pubkey) := by
  obtain ⟨text, asks, isKey⟩ := registrant.asks
  have sameDb := authorize_run ext cfg env world "reg" headers .post
    "/api/v1/register" body
  have rested := registrant.rested.authorize ext env keyed headers .post
    "/api/v1/register" body
  have nameless := registrant.nameless
  rw [register, run_bind, registrant.authorized]
  generalize ((authorize ext cfg "reg" headers .post "/api/v1/register"
    body).run (Op.exec env) world).2 = admitted at sameDb rested ⊢
  obtain ⟨counted, cooled, keptDb⟩ : ∃ counted : World,
      (App.cooldownActive "namechange" pubkey cfg.nameChangeCooldown).run
        (Op.exec env) admitted = (false, counted) ∧
      counted.db = admitted.db := ⟨_, congrArg (·, _) rested, rfl⟩
  dsimp only
  rw [run_bind, cooled]
  dsimp only
  rw [if_neg Bool.false_ne_true, ← sameDb, ← keptDb]
  rw [← sameDb, ← keptDb] at nameless
  cases checked : registerRequest ext cfg pubkey body with
  | error refusal =>
      have notFree : ¬counted.db.Free ext cfg name := by
        intro free
        have accepted := (registerRequest_iff asks isKey
          registrant.validKey).mpr ⟨free.valid, rfl⟩
        rw [checked] at accepted
        cases accepted
      have refused : refusal.status ≠ .created :=
        registerRequest_refuses ext cfg .created nofun nofun nofun pubkey body
          refusal checked
      exact ⟨iff_of_false refused notFree, fun free => absurd free notFree⟩
  | ok accepted =>
      obtain ⟨valid, rfl⟩ := (registerRequest_iff asks isKey
        registrant.validKey).mp checked
      dsimp only
      obtain ⟨created, registered⟩ := registerName_run env counted pubkey
        (ext.cases.toLowercase name) mode nameless
      exact ⟨created.trans ⟨fun absent => ⟨valid, absent⟩, Db.Free.absent⟩,
        fun free => registered free.absent⟩

end Registrant

/-! ## Public lookups -/

/-- The answers of the public lookups, in a state where their reads are within
the limit, to every spelling of a name and of its key. -/
structure Reported (ext : Extern) (cfg : Config) (env : Env) (world : World)
    (headers : Headers) (name pubkey : String) : Prop where
  wellKnown : ∀ query, ext.cases.toLowercase query = name →
    ((wellKnown ext cfg (some query) headers).run (Op.exec env) world).1 =
      wellKnownBody cfg (some (name, pubkey))
  profile : ∀ query, ext.cases.toLowercase query = name →
    ((profile ext cfg query headers).run (Op.exec env) world).1 =
      profileBody name pubkey
  byPubkey : ∀ query, ext.cases.toLowercase query = pubkey →
    ((byPubkey ext cfg query headers).run (Op.exec env) world).1 =
      profileBody name pubkey

theorem Db.RegisteredIn.reported {name pubkey : String} {headers : Headers}
    (registered : world.db.RegisteredIn name pubkey)
    (valid : ValidName cfg name) (validKey : validPubkeyHex pubkey = true)
    (allowed : Allowed cfg env world headers) :
    Reported ext cfg env world headers name pubkey := by
  have sameDb : ((App.allowRead cfg (clientIp headers)).run (Op.exec env)
    world).2.db = world.db := rfl
  constructor
  · intro query asked
    unfold Floonet.wellKnown
    rw [allowed.run_bind]
    simp only [Bool.not_true, Bool.false_eq_true, if_false, Option.map_some,
      asked, valid.valid, lookup_run, sameDb, registered.lookup]
    rfl
  · intro query asked
    unfold Floonet.profile
    rw [allowed.run_bind]
    simp only [Bool.not_true, Bool.false_eq_true, if_false, asked, valid.valid,
      lookup_run, sameDb, registered.lookup]
    rfl
  · intro query asked
    unfold Floonet.byPubkey
    rw [allowed.run_bind]
    simp only [Bool.not_true, Bool.false_eq_true, if_false, asked, validKey,
      nameOf_run, sameDb, registered.nameOf]
    rfl

variable {permitted : Permission World Request Op Op.Ans Response}
  {pool : FloonetPool}

end Agreement

namespace Sample

def registerId : String :=
  "3758b71054853f4967ecbfba8087c20e14b623f2f58f0ec14f117fea1bee51e7"

def registerHeaders : Headers :=
  signed registerId seller start .post "/api/v1/register"
    (registerBody "alice" seller)

theorem alice_lower : host.cases.toLowercase "alice" = "alice" :=
  toLowercase_plain host.cases rfl (by decide)

theorem alice_authorized : ((authorize host config "reg" registerHeaders .post
    "/api/v1/register" (registerBody "alice" seller)).run
      (Op.exec (node 100 100)) world).1 = .ok seller := by
  have admitted : ((served "reg" start (Bytes32.ofHex registerId).toHex
      (return ⟨.created, .null⟩)).run (Op.exec (node 100 100))
        world).1.status = .created := by decide +kernel
  have authorized : ((authorize host config "reg" registerHeaders .post
      "/api/v1/register" (registerBody "alice" seller)).run
        (Op.exec (node 100 100)) world).1 = .ok (Bytes32.ofHex seller).toHex :=
    authorize_signed admitted
  rwa [Bytes32.toHex_ofHex seller_valid] at authorized

theorem alice_known : registrations.lookup (registerBody "alice" seller) =
    some ⟨"alice", seller⟩ := lookup_head _ _ _

theorem alice_registrant : Registrant host config (node 100 100) world
    registerHeaders (registerBody "alice" seller) "alice" seller where
  authorized := alice_authorized
  asks := ⟨seller, alice_known, toLowercase_plain host.cases rfl (by decide)⟩
  nameless := rfl
  rested := rfl

theorem alice_free : world.db.Free host config "alice" where
  valid := by
    rw [alice_lower]
    exact ⟨by decide, by decide⟩
  absent := by
    rw [alice_lower]
    rfl

end Sample

end Floonet
