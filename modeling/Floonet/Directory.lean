import Floonet.Authenticity
import Floonet.Relational.Registry

/-!
# The directory

The active names as a registry.  Every request about names has one instant at
which the directory gives its answer and makes its move, whatever the other
requests do meanwhile and however many lives of the process they span.
-/

namespace Floonet

open Concurrent Program Relational System Validation

/-- Who owns which name: at most one key for a name, and one name for a key. -/
abbrev Directory := String ≃. String

/-- The names and their keys, both ways. -/
def Db.directory (db : Db) : Directory where
  toFun := db.lookup
  invFun := db.nameOf
  inv _ _ := Db.lookup_eq_some_iff_nameOf.symm

@[simp] theorem Db.directory_apply (db : Db) (name : String) :
    db.directory name = db.lookup name := rfl

@[simp] theorem Db.directory_symm_apply (db : Db) (pubkey : String) :
    db.directory.symm pubkey = db.nameOf pubkey := rfl

/-! ## Statements as moves -/

section Moves

variable {before after : Db} {name : String}

theorem Db.directory_congr (same : after.names = before.names) :
    after.directory = before.directory :=
  PEquiv.ext fun other => congrFun (Db.lookup_congr same) other

theorem Db.Reassigned.assign {pubkey : String}
    (reassigned : before.Reassigned after name (some pubkey))
    (free : before.directory name = none)
    (nameless : before.directory.symm pubkey = none) :
    after.directory =
      Registry.assign before.directory name pubkey free nameless :=
  PEquiv.ext reassigned

theorem Db.Reassigned.release (reassigned : before.Reassigned after name none) :
    after.directory = Registry.release before.directory name :=
  PEquiv.ext reassigned

/-- Where a key has taken over a name, it had no other. -/
theorem Db.Reassigned.nameless {pubkey : String}
    (reassigned : before.Reassigned after name (some pubkey)) :
    ∀ other, before.directory other = some pubkey → other = name := by
  intro other owned
  apply Classical.byContradiction
  intro different
  have kept := reassigned other
  have moved := reassigned name
  rw [if_neg different] at kept
  rw [if_pos rfl] at moved
  have first := Db.lookup_eq_some_iff_nameOf.mp (kept.trans owned)
  have second := Db.lookup_eq_some_iff_nameOf.mp moved
  exact different (Option.some.inj (first.symm.trans second))

theorem Db.Reassigned.handOver {pubkey : String}
    (reassigned : before.Reassigned after name (some pubkey)) :
    after.directory = Registry.handOver before.directory name pubkey
      reassigned.nameless := by
  refine PEquiv.ext fun other => ?_
  rw [Registry.handOver_apply]
  exact reassigned other

/-- Every step keeps the directory or moves it. -/
theorem Effect.moves {now : Int} {op : Op} {answer : op.Ans}
    (effect : Effect now before after op answer) :
    after.directory = before.directory ∨
      Registry.Move before.directory after.directory := by
  cases effect with
  | kept _ same => exact .inl (Db.directory_congr same.names)
  | @registered name pubkey free nameless reassigned _ _ =>
      right
      rw [reassigned.assign free nameless]
      exact .assign before.directory name pubkey free nameless
  | @released name owner owned reassigned _ _ =>
      right
      rw [reassigned.release]
      exact .release before.directory name owner owned
  | lodged _ names _ _ => exact .inl (Db.directory_congr names)
  | died _ _ _ names _ _ => exact .inl (Db.directory_congr names)
  | revised names _ _ => exact .inl (Db.directory_congr names)
  | @claimed offer _ _ _ claimed =>
      right
      rw [claimed.reassigned.handOver]
      exact .handOver before.directory offer.name offer.sellerPubkey
        offer.buyerPubkey claimed.owned _

end Moves

/-! ## What requests ask of a directory -/

/-- The request looks names up, registers one or releases one. -/
def Request.names : Request → Bool
  | .wellKnown _ _ | .availability _ _ | .profile _ _ | .byPubkey _ _
  | .register _ _ | .unregister _ _ => true
  | _ => false

/-- A refusal that says nothing about the directory. -/
def Response.TurnsBack (response : Response) : Prop :=
  response.status ∈ [.tooManyRequests, .unauthorized, .badRequest,
    .paymentRequired, .internalServerError, .serviceUnavailable] ∨
    response = err .forbidden "name reserved"

section Views

variable (ext : Extern) (cfg : Config) (directory : Directory)

/-- The owner of a name, if the name is valid. -/
def Directory.owner (name : String) : Option String :=
  if validName name cfg.nameMin cfg.nameMax then directory name else none

/-- What `availability` answers by a directory. -/
def Directory.availability (name : String) : Response :=
  let unavailable := fun reason : String => (⟨.ok, .object
    [("name", .string name), ("available", .bool false),
      ("reason", .string reason)]⟩ : Response)
  if !validName name cfg.nameMin cfg.nameMax then unavailable "invalid"
  else if isReserved name cfg.extraReserved then unavailable "reserved"
  else if (directory name).isSome then unavailable "taken"
  else ⟨.ok, .object [("name", .string name), ("available", .bool true)]⟩

/-- The response to a public lookup. -/
def Directory.view : Request → Option Response
  | .wellKnown name _ =>
      let found := (name.map ext.cases.toLowercase).bind fun name =>
        (directory.owner cfg name).map fun pubkey => (name, pubkey)
      some (wellKnownBody cfg found)
  | .availability name _ =>
      some (directory.availability cfg (ext.cases.toLowercase name))
  | .profile name _ =>
      let name := ext.cases.toLowercase name
      let found := (directory.owner cfg name).map (profileBody name)
      some (found.getD (err .notFound "not found"))
  | .byPubkey pubkey _ =>
      let pubkey := ext.cases.toLowercase pubkey
      let named := if validPubkeyHex pubkey then directory.symm pubkey else none
      let found := named.map (profileBody · pubkey)
      some (found.getD (err .notFound "not found"))
  | _ => none

end Views

/-- A directory answers a request and becomes another one. -/
inductive Directory.Serves (ext : Extern) (cfg : Config) :
    Request → Directory → Response → Directory → Prop where
  | viewed {request : Request} {directory : Directory} {response : Response}
      (view : directory.view ext cfg request = some response) :
      Serves ext cfg request directory response directory
  | registered {headers : Headers} {body : Bytes} {directory : Directory}
      {name pubkey : String}
      (accepted : registerRequest ext cfg pubkey body = .ok (name, pubkey))
      (free : directory name = none) (nameless : directory.symm pubkey = none) :
      Serves ext cfg (.register headers body) directory
        ⟨.created, nameBody cfg name⟩
        (Registry.assign directory name pubkey free nameless)
  | owned {headers : Headers} {body : Bytes} {directory : Directory}
      {name pubkey : String}
      (accepted : registerRequest ext cfg pubkey body = .ok (name, pubkey))
      (owned : directory name = some pubkey) :
      Serves ext cfg (.register headers body) directory
        ⟨.ok, nameBody cfg name⟩ directory
  | taken {headers : Headers} {body : Bytes} {directory : Directory}
      {name pubkey owner : String}
      (accepted : registerRequest ext cfg pubkey body = .ok (name, pubkey))
      (taken : directory name = some owner) :
      Serves ext cfg (.register headers body) directory
        (err .conflict "name taken") directory
  | named {headers : Headers} {body : Bytes} {directory : Directory}
      {name pubkey existing : String} {response : Response}
      (accepted : registerRequest ext cfg pubkey body = .ok (name, pubkey))
      (named : directory.symm pubkey = some existing)
      (told : response = pubkeyHasName existing ∨
        response = err .conflict "pubkey already has a name") :
      Serves ext cfg (.register headers body) directory response directory
  | unknown {raw : String} {headers : Headers} {directory : Directory}
      (free : directory (ext.cases.toLowercase raw) = none) :
      Serves ext cfg (.unregister raw headers) directory
        (err .notFound "name not found") directory
  | foreign {raw : String} {headers : Headers} {directory : Directory}
      {pubkey owner : String} (signed : headers.signer = some pubkey)
      (owned : directory (ext.cases.toLowercase raw) = some owner)
      (different : owner ≠ pubkey) :
      Serves ext cfg (.unregister raw headers) directory
        (err .forbidden "not the owner") directory
  | released {raw : String} {headers : Headers} {directory : Directory} :
      Serves ext cfg (.unregister raw headers) directory
        ⟨.ok, .object [("name", .string (ext.cases.toLowercase raw)),
          ("released", .bool true)]⟩
        (Registry.release directory (ext.cases.toLowercase raw))

variable (ext : Extern) (cfg : Config)

/-- In any state, the step makes the directory answer the request so. -/
def Op.Answers (request : Request) (op : Op) (answer : op.Ans)
    (response : Response) : Prop :=
  ∀ env world, answer = (op.exec env world).1 →
    Directory.Serves ext cfg request world.db.directory response
      (op.exec env world).2.db.directory

/-- One step of the history answers the request, and no other touches the
names. -/
def Pinpointed (request : Request) (past : History) (response : Response) :
    Prop :=
  ∃ (earlier new : History) (op : Op) (answer : op.Ans),
    past = earlier ++ [⟨op, answer⟩] ++ new ∧ earlier.KeepsNames ∧
    new.KeepsNames ∧ op.Answers ext cfg request answer response

variable {ext cfg} {request : Request} {past : History} {response : Response}

theorem History.KeepsNames.nil : History.KeepsNames [] :=
  fun _ member => nomatch member

theorem Pinpointed.last {op : Op} {answer : op.Ans} (keeps : past.KeepsNames)
    (answers : op.Answers ext cfg request answer response) :
    Pinpointed ext cfg request (past ++ [⟨op, answer⟩]) response :=
  ⟨past, [], op, answer, (List.append_nil _).symm, keeps, .nil,
    answers⟩

/-- A step that reports no change answers what the directory says. -/
theorem Op.answers_of_keeps {op : Op} {answer : op.Ans}
    (keeps : op.reassigns answer = false)
    (serves : ∀ env world, answer = (op.exec env world).1 →
      Directory.Serves ext cfg request world.db.directory response
        world.db.directory) :
    op.Answers ext cfg request answer response := by
  intro env world answered
  have effect := op.exec_effect env world
  rw [← answered] at effect
  have same := Db.directory_congr (effect.names keeps)
  rw [same]
  exact serves env world answered

/-! ## The public lookups -/

theorem allow_steps (bucket ip : String) (max : Nat) (window : Duration)
    (past : History) :
    SilentProgram (App.allow bucket ip max window) (fun past' _ => past' ≠ [])
      past :=
  ⟨rfl, fun _ => ⟨rfl, fun _ => by simp⟩⟩

/-- A view that does not depend on the directory is one of any moment. -/
theorem Pinpointed.constant (keeps : past.KeepsNames) (stepped : past ≠ [])
    (view : ∀ directory : Directory,
      directory.view ext cfg request = some response) :
    Pinpointed ext cfg request past response := by
  obtain rfl | ⟨earlier, ⟨op, answer⟩, rfl⟩ := List.eq_nil_or_concat past
  · exact absurd rfl stepped
  rw [List.concat_eq_append] at keeps ⊢
  have before : History.KeepsNames earlier := fun event member =>
    keeps event (List.mem_append_left _ member)
  have kept : op.reassigns answer = false :=
    keeps ⟨op, answer⟩ (List.mem_append_right _ List.mem_cons_self)
  exact .last before (Op.answers_of_keeps kept fun _ world _ =>
    .viewed (view world.db.directory))

theorem Pinpointed.lookup {name : String} {owner : Option String}
    (keeps : past.KeepsNames)
    (view : ∀ directory : Directory, directory name = owner →
      directory.view ext cfg request = some response) :
    Pinpointed ext cfg request (past ++ [⟨.db (.lookup name), owner⟩])
      response := by
  refine .last keeps (Op.answers_of_keeps rfl fun env world answered => ?_)
  exact .viewed (view world.db.directory answered.symm)

theorem Pinpointed.nameOf {pubkey : String} {name : Option String}
    (keeps : past.KeepsNames)
    (view : ∀ directory : Directory, directory.symm pubkey = name →
      directory.view ext cfg request = some response) :
    Pinpointed ext cfg request (past ++ [⟨.db (.nameOf pubkey), name⟩])
      response := by
  refine .last keeps (Op.answers_of_keeps rfl fun env world answered => ?_)
  exact .viewed (view world.db.directory answered.symm)

variable (ext cfg)

/-- What a request about names has done when it answers. -/
def Consulted (request : Request) (past : History) (response : Response) :
    Prop :=
  (response.TurnsBack ∧ past.KeepsNames) ∨
    Pinpointed ext cfg request past response

theorem wellKnown_consults (name : Option String) (headers : Headers) :
    (wellKnown ext cfg name headers).Every (fun _ _ => True)
      (Consulted ext cfg (.wellKnown name headers)) [] := by
  unfold wellKnown
  refine (allow_steps "read" (clientIp headers) cfg.readRateMax
    cfg.readRateWindow []).quiet_bind (fun _ _ _ => trivial)
    fun past allowed silent stepped => ?_
  have keeps : History.KeepsNames ([] ++ past) := .of_silent silent
  split
  · exact .inl ⟨.inl (by decide), keeps⟩
  split
  · rename_i name' asked
    split
    · rename_i invalid
      rw [Bool.not_eq_true'] at invalid
      refine .inr (.constant keeps stepped fun directory => ?_)
      simp [Directory.view, Directory.owner, asked, invalid]
    rename_i valid
    rw [Bool.not_eq_true', Bool.not_eq_false] at valid
    refine every_perform_bind.mpr ⟨trivial, fun owner => ?_⟩
    cases owner with
    | some pubkey =>
        refine .inr (.lookup keeps fun directory owned => ?_)
        simp [Directory.view, Directory.owner, asked, valid, owned]
    | none =>
        refine .inr (.lookup keeps fun directory owned => ?_)
        simp [Directory.view, Directory.owner, asked, valid, owned]
  · rename_i unasked
    have nothing := Option.eq_none_iff_forall_ne_some.mpr unasked
    refine .inr (.constant keeps stepped fun directory => ?_)
    simp [Directory.view, nothing]

theorem profile_consults (name : String) (headers : Headers) :
    (profile ext cfg name headers).Every (fun _ _ => True)
      (Consulted ext cfg (.profile name headers)) [] := by
  unfold profile
  refine (allow_steps "read" (clientIp headers) cfg.readRateMax
    cfg.readRateWindow []).quiet_bind (fun _ _ _ => trivial)
    fun past allowed silent stepped => ?_
  have keeps : History.KeepsNames ([] ++ past) := .of_silent silent
  split
  · exact .inl ⟨.inl (by decide), keeps⟩
  dsimp only
  split
  · rename_i invalid
    rw [Bool.not_eq_true'] at invalid
    refine .inr (.constant keeps stepped fun directory => ?_)
    simp [Directory.view, Directory.owner, invalid]
  rename_i valid
  rw [Bool.not_eq_true', Bool.not_eq_false] at valid
  refine every_perform_bind.mpr ⟨trivial, fun owner => ?_⟩
  cases owner with
  | some pubkey =>
      refine .inr (.lookup keeps fun directory owned => ?_)
      simp [Directory.view, Directory.owner, valid, owned]
  | none =>
      refine .inr (.lookup keeps fun directory owned => ?_)
      simp [Directory.view, Directory.owner, valid, owned]

theorem byPubkey_consults (pubkey : String) (headers : Headers) :
    (byPubkey ext cfg pubkey headers).Every (fun _ _ => True)
      (Consulted ext cfg (.byPubkey pubkey headers)) [] := by
  unfold byPubkey
  refine (allow_steps "read" (clientIp headers) cfg.readRateMax
    cfg.readRateWindow []).quiet_bind (fun _ _ _ => trivial)
    fun past allowed silent stepped => ?_
  have keeps : History.KeepsNames ([] ++ past) := .of_silent silent
  split
  · exact .inl ⟨.inl (by decide), keeps⟩
  dsimp only
  split
  · rename_i invalid
    rw [Bool.not_eq_true'] at invalid
    refine .inr (.constant keeps stepped fun directory => ?_)
    simp [Directory.view, invalid]
  rename_i valid
  rw [Bool.not_eq_true', Bool.not_eq_false] at valid
  refine every_perform_bind.mpr ⟨trivial, fun name => ?_⟩
  cases name with
  | some name =>
      refine .inr (.nameOf keeps fun directory named => ?_)
      simp [Directory.view, valid, named]
  | none =>
      refine .inr (.nameOf keeps fun directory named => ?_)
      simp [Directory.view, valid, named]

theorem availability_consults (name : String) (headers : Headers) :
    (availability ext cfg name headers).Every (fun _ _ => True)
      (Consulted ext cfg (.availability name headers)) [] := by
  unfold availability
  refine (allow_steps "read" (clientIp headers) cfg.readRateMax
    cfg.readRateWindow []).quiet_bind (fun _ _ _ => trivial)
    fun past allowed silent stepped => ?_
  have keeps : History.KeepsNames ([] ++ past) := .of_silent silent
  split
  · exact .inl ⟨.inl (by decide), keeps⟩
  dsimp only
  split
  · rename_i invalid
    refine .inr (.constant keeps stepped fun directory => ?_)
    rw [Directory.view, Directory.availability, if_pos invalid]
  rename_i valid
  split
  · rename_i reserved
    refine .inr (.constant keeps stepped fun directory => ?_)
    rw [Directory.view, Directory.availability, if_neg valid, if_pos reserved]
  rename_i unreserved
  refine every_perform_bind.mpr ⟨trivial, fun owner => ?_⟩
  split
  · rename_i taken
    refine .inr (.lookup keeps fun directory owned => ?_)
    rw [Directory.view, Directory.availability, if_neg valid,
      if_neg unreserved, owned, if_pos taken]
  · rename_i free
    refine .inr (.lookup keeps fun directory owned => ?_)
    rw [Directory.view, Directory.availability, if_neg valid,
      if_neg unreserved, owned, if_neg free]

/-! ## Registration and release -/

theorem registerRequest_turnsBack (authPubkey : String) (body : Bytes) :
    Refuses Response.TurnsBack (registerRequest ext cfg authPubkey body) := by
  unfold registerRequest
  refine Refuses.bind (refuses_demand (.inl (by decide))) fun req => ?_
  refine Refuses.bind (refuses_require (.inl (by decide))) fun _ => ?_
  refine Refuses.bind (refuses_require (.inl (by decide))) fun _ => ?_
  refine Refuses.bind (refuses_require (.inl (by decide))) fun _ => ?_
  refine Refuses.bind (refuses_require (.inr rfl)) fun _ => ?_
  exact refuses_pure _

theorem registerPayment_turnsBack (authPubkey : String) (past : History) :
    SilentProgram (registerPayment cfg authPubkey)
      (fun _ result => ∀ refusal ∈ result, refusal.TurnsBack) past := by
  unfold registerPayment
  split
  · exact nofun
  · refine (ensurePaid_silent cfg authPubkey "name" past).quiet_bind
      (fun _ _ silent => silent) fun new outcome _ _ => ?_
    split
    · exact nofun
    · rintro refusal ⟨⟩
      exact .inl (by simp [paymentRequired])
    · rintro refusal ⟨⟩
      exact .inl (by simp [paymentUnavailable, err])

theorem Response.TurnsAway.turnsBack {response : Response}
    (away : response.TurnsAway) : response.TurnsBack := by
  rcases away with same | same <;> exact .inl (by simp [same])

theorem Op.answers_registered {headers : Headers} {body : Bytes}
    {name pubkey : String} {count : Nat}
    (accepted : registerRequest ext cfg pubkey body = .ok (name, pubkey)) :
    (Op.db (.insertName name pubkey)).Answers ext cfg (.register headers body)
      (.ok (count + 1)) ⟨.created, nameBody cfg name⟩ := by
  intro env world answered
  simp only [exec, DbOp.exec] at answered ⊢
  rcases world.db.insertName_cases name pubkey world.unixTime.seconds
    with ⟨done, -⟩ | ⟨done, -⟩ | ⟨names, done, free, nameless, rows⟩
  · rw [done] at answered
    cases answered
  · rw [done] at answered
    cases answered
  · rw [done]
    have reassigned := Db.reassigned_of_rows world.db { world.db with names }
      ⟨name, pubkey, _, none⟩ rfl rows
    rw [Db.Reassigned.assign reassigned free nameless]
    exact .registered accepted _ _

theorem Op.answers_taken {headers : Headers} {body : Bytes}
    {name pubkey : String}
    (accepted : registerRequest ext cfg pubkey body = .ok (name, pubkey)) :
    (Op.db (.insertName name pubkey)).Answers ext cfg (.register headers body)
      (.ok 0) (err .conflict "name taken") := by
  refine Op.answers_of_keeps rfl fun env world answered => ?_
  simp only [exec, DbOp.exec] at answered
  rcases world.db.insertName_cases name pubkey world.unixTime.seconds
    with ⟨done, owner, owned⟩ | ⟨done, -⟩ | ⟨names, done, -⟩
  · exact .taken accepted owned
  · rw [done] at answered
    cases answered
  · rw [done] at answered
    cases answered

theorem Op.answers_named {headers : Headers} {body : Bytes}
    {name pubkey : String}
    (accepted : registerRequest ext cfg pubkey body = .ok (name, pubkey)) :
    (Op.db (.insertName name pubkey)).Answers ext cfg (.register headers body)
      (.error .constraintViolation)
      (err .conflict "pubkey already has a name") := by
  refine Op.answers_of_keeps rfl fun env world answered => ?_
  simp only [exec, DbOp.exec] at answered
  rcases world.db.insertName_cases name pubkey world.unixTime.seconds
    with ⟨done, -⟩ | ⟨done, -, other, named⟩ | ⟨names, done, -⟩
  · rw [done] at answered
    cases answered
  · exact .named accepted named (.inr rfl)
  · rw [done] at answered
    cases answered

theorem Op.answers_released {raw : String} {headers : Headers} {count : Nat} :
    (Op.db (.releaseName (ext.cases.toLowercase raw))).Answers ext cfg
      (.unregister raw headers) (.ok count)
      ⟨.ok, .object [("name", .string (ext.cases.toLowercase raw)),
        ("released", .bool true)]⟩ := by
  intro env world answered
  simp only [exec, DbOp.exec]
  rcases world.db.releaseName_cases (ext.cases.toLowercase raw)
    world.unixTime.seconds with ⟨done, free⟩ | ⟨names, owner, done, -, reassigned⟩
  · have unchanged : Registry.release world.db.directory
        (ext.cases.toLowercase raw) = world.db.directory :=
      Registry.release_eq_self free
    rw [done]
    have served : Directory.Serves ext cfg (.unregister raw headers)
        world.db.directory _ (Registry.release world.db.directory _) :=
      .released
    rw [unchanged] at served
    exact served
  · rw [done, Db.Reassigned.release reassigned]
    exact .released

theorem register_consults (headers : Headers) (body : Bytes) :
    (register ext cfg headers body).Every (fun _ _ => True)
      (Consulted ext cfg (.register headers body)) [] := by
  unfold register
  refine (authorize_silent ext cfg "reg" headers .post "/api/v1/register" body
    []).quiet_bind (fun _ _ _ => trivial) fun past result silent authorized => ?_
  have keeps : History.KeepsNames ([] ++ past) := .of_silent silent
  rcases result with refusal | authPubkey
  · exact .inl ⟨authorized.turnsBack, keeps⟩
  refine (cooldownActive_silent "namechange" authPubkey
    cfg.nameChangeCooldown _).quiet_bind (fun _ _ _ => trivial)
    fun new cooling silent _ => ?_
  replace keeps := keeps.append (.of_silent silent)
  split
  · exact .inl ⟨.inl (by decide), keeps⟩
  split
  · rename_i refusal refused
    exact .inl ⟨registerRequest_turnsBack ext cfg authPubkey body refusal
      refused, keeps⟩
  rename_i name pubkey accepted
  have same := registerRequest_signer accepted
  subst same
  unfold registerName
  refine every_perform_bind.mpr ⟨trivial, fun owner => ?_⟩
  have looked := keeps.snoc (.db (.lookup name)) owner rfl
  split
  · rename_i owner
    split
    · rename_i isOwner
      subst isOwner
      exact .inr (.last keeps (Op.answers_of_keeps rfl
        fun env world answered => .owned accepted answered.symm))
    · exact .inr (.last keeps (Op.answers_of_keeps rfl
        fun env world answered => .taken accepted answered.symm))
  refine every_perform_bind.mpr ⟨trivial, fun existing => ?_⟩
  replace keeps := looked.snoc (.db (.nameOf pubkey)) existing rfl
  split
  · exact .inr (.last looked (Op.answers_of_keeps rfl
      fun env world answered => .named accepted answered.symm (.inl rfl)))
  refine (registerPayment_turnsBack cfg pubkey _).quiet_bind
    (fun _ _ _ => trivial) fun new payment silent refused => ?_
  replace keeps := keeps.append (.of_silent silent)
  cases payment with
  | some refusal => exact .inl ⟨refused refusal rfl, keeps⟩
  | none =>
      unfold acquireName
      refine every_perform_bind.mpr ⟨trivial, fun answer => ?_⟩
      rcases answer with error | count
      · cases error with
        | constraintViolation =>
            exact .inr (.last keeps (Op.answers_named ext cfg accepted))
        | other => exact .inl ⟨.inl (by simp [err]), keeps.snoc _ _ rfl⟩
      · cases count with
        | zero => exact .inr (.last keeps (Op.answers_taken ext cfg accepted))
        | succ count =>
            have answers := @Op.answers_registered ext cfg headers body
              name pubkey count accepted
            dsimp only
            split
            · exact every_perform_bind.mpr ⟨trivial, fun done => .inr
                ⟨_, [⟨.db (.consumeGrant pubkey "name"), done⟩], _, _, rfl,
                  keeps, .snoc .nil _ _ rfl, answers⟩⟩
            · exact .inr (.last keeps answers)

theorem unregister_consults (raw : String) (headers : Headers) :
    (unregister ext cfg raw headers).Every (fun _ _ => True)
      (Consulted ext cfg (.unregister raw headers)) [] := by
  unfold unregister
  refine (authorize_silent ext cfg "unreg" headers .delete _ []
    []).quiet_bind (fun _ _ _ => trivial) fun past result silent authorized => ?_
  have keeps : History.KeepsNames ([] ++ past) := .of_silent silent
  rcases result with refusal | authPubkey
  · exact .inl ⟨authorized.turnsBack, keeps⟩
  dsimp only
  unfold unregisterName
  refine every_perform_bind.mpr ⟨trivial, fun owner => ?_⟩
  split
  · exact .inr (.last keeps (Op.answers_of_keeps rfl
      fun env world answered => .unknown answered.symm))
  rename_i owner
  have looked := keeps.snoc (.db (.lookup (ext.cases.toLowercase raw)))
    (some owner) rfl
  split
  · rename_i different
    exact .inr (.last keeps (Op.answers_of_keeps rfl
      fun env world answered => .foreign authorized answered.symm different))
  refine every_perform_bind.mpr ⟨trivial, fun released => ?_⟩
  rcases released with error | count
  · exact .inl ⟨.inl (by simp [err]), looked.snoc _ _ rfl⟩
  refine every_perform_bind.mpr ⟨trivial, fun done => .inr ⟨_,
    [⟨.recordOp "namechange" authPubkey, done⟩], _, _, rfl, looked,
    .snoc .nil _ _ rfl, Op.answers_released ext cfg⟩⟩

theorem routes_consults (request : Request) (names : request.names = true) :
    (routes ext cfg request).Every (fun _ _ => True)
      (Consulted ext cfg request) [] := by
  cases request with
  | wellKnown name headers => exact wellKnown_consults ext cfg name headers
  | availability name headers =>
      exact availability_consults ext cfg name headers
  | register headers body => exact register_consults ext cfg headers body
  | unregister name headers => exact unregister_consults ext cfg name headers
  | profile name headers => exact profile_consults ext cfg name headers
  | byPubkey pubkey headers => exact byPubkey_consults ext cfg pubkey headers
  | _ => cases names

/-! ## Every thread -/

section Linear

variable {ext cfg} {permitted : Permission World Request Op Op.Ans Response}
  {pool later : FloonetPool} {thread : FloonetThread}
  {label : Label World Request Op Op.Ans}

theorem Durable.directory_moves (step : (durable ext cfg).Step pool label later) :
    later.state.db.directory = pool.state.db.directory ∨
      Registry.Move pool.state.db.directory later.state.db.directory := by
  cases step with
  | arrive => exact .inl rfl
  | tick incident =>
      exact .inl (congrArg Db.directory
        (World.meets_db incident pool.state))
  | @act index thread op next env found pending =>
      exact (op.exec_effect env pool.state).moves

theorem Durable.directory_kept
    (reachable : (durable ext cfg).Reachable permitted pool)
    (member : thread ∈ pool.threads) {taken : Taken World Op Op.Ans}
    (takenMember : taken ∈ thread.past)
    (keeps : taken.op.reassigns taken.answer = false) :
    taken.after.db.directory = taken.before.db.directory := by
  obtain ⟨env, executed⟩ := reachable.executed thread member taken takenMember
  rw [executed] at keeps ⊢
  exact Db.directory_congr
    ((taken.op.exec_effect env taken.before).names keeps)

theorem Durable.directory_serves
    (reachable : (durable ext cfg).Reachable permitted pool)
    (member : thread ∈ pool.threads) (names : thread.request.names = true)
    {response : Response} (finished : thread.program = .done response) :
    (response.TurnsBack ∧ ∀ taken ∈ thread.past,
      taken.after.db.directory = taken.before.db.directory) ∨
    ∃ earlier taken new, thread.past = earlier ++ taken :: new ∧
      (∀ other ∈ earlier ++ new,
        other.after.db.directory = other.before.db.directory) ∧
      Directory.Serves ext cfg thread.request taken.before.db.directory response
        taken.after.db.directory := by
  have every := (reachable.follows thread member).every
    (routes_consults ext cfg thread.request names)
  rw [finished] at every
  rcases every with ⟨turned, keeps⟩ |
    ⟨earlierEvents, newEvents, op, answer, split, before, after, answers⟩
  · refine .inl ⟨turned, fun taken takenMember => ?_⟩
    exact Durable.directory_kept reachable member takenMember
      (keeps _ (Thread.mem_events.mpr ⟨taken, takenMember, rfl⟩))
  · rw [Thread.events, List.append_assoc] at split
    obtain ⟨earlier, rest, isPast, rfl, tail⟩ := List.map_eq_append_iff.mp split
    obtain ⟨taken, new, rfl, isEvent, rfl⟩ := List.map_eq_cons_iff.mp tail
    refine .inr ⟨earlier, taken, new, isPast, fun other otherMember => ?_, ?_⟩
    · have keeps : other.op.reassigns other.answer = false := by
        rcases List.mem_append.mp otherMember with first | last
        · exact before _ (List.mem_map_of_mem first)
        · exact after _ (List.mem_map_of_mem last)
      refine Durable.directory_kept reachable member ?_ keeps
      rw [isPast]
      rcases List.mem_append.mp otherMember with first | last
      · exact List.mem_append_left _ first
      · exact List.mem_append_right _ (List.mem_cons_of_mem _ last)
    · have takenMember : taken ∈ thread.past := by
        rw [isPast]
        exact List.mem_append_right _ List.mem_cons_self
      obtain ⟨env, executed⟩ :=
        reachable.executed thread member taken takenMember
      have isAfter := congrArg Taken.after executed
      rw [executed] at isEvent
      cases isEvent
      rw [isAfter]
      exact answers env taken.before rfl

/-- Requests about names are linearizable: each is answered by the directory,
and makes its move on it, at one of its own steps, and leaves it alone at all
others; or it is turned back and leaves it alone altogether.  No step of any
request, and no restart, makes more than one move of a registry. -/
theorem directory_linearized
    (reachable : (durable ext cfg).Reachable permitted pool) :
    (∀ thread ∈ pool.threads, thread.request.names = true → ∀ response,
      thread.program = .done response →
        (response.TurnsBack ∧ ∀ taken ∈ thread.past,
          taken.after.db.directory = taken.before.db.directory) ∨
        ∃ earlier taken new, thread.past = earlier ++ taken :: new ∧
          (∀ other ∈ earlier ++ new,
            other.after.db.directory = other.before.db.directory) ∧
          Directory.Serves ext cfg thread.request taken.before.db.directory
            response taken.after.db.directory) ∧
    ∀ label later, (durable ext cfg).Step pool label later →
      later.state.db.directory = pool.state.db.directory ∨
        Registry.Move pool.state.db.directory later.state.db.directory :=
  ⟨fun _ member names _ finished =>
      Durable.directory_serves reachable member names finished,
    fun _ _ step => Durable.directory_moves step⟩

end Linear

section Schedules

open Sample

/-- The registration of the seller is served at one of its own steps. -/
theorem directory_linearized_seller :
    ∃ pool, (durable host config).Reachable anyMove pool ∧
      ∃ thread ∈ pool.threads, ∃ taken ∈ thread.past, ∃ response,
        response.status = .created ∧
        Directory.Serves host config thread.request taken.before.db.directory
          response taken.after.db.directory := by
  have reached : ∃ pool, Market.Reachable anyMove pool ∧
      (pool.threads.any fun thread => thread.request.names &&
        thread.program.result?.any fun response =>
          decide (response.status = .created)) = true :=
    play_reaches (fun _ _ _ => true) (fun _ _ _ _ => trivial) world_initial
      (Market.alone registerSeller 0 (node 100 100) 10) (by decide +kernel)
  obtain ⟨pool, reachable, created⟩ := reached
  obtain ⟨thread, member, holds⟩ := List.any_eq_true.mp created
  rw [Bool.and_eq_true] at holds
  obtain ⟨names, created⟩ := holds
  obtain ⟨response, finished, created⟩ := (Option.any_eq_true _ _).mp created
  have isCreated : response.status = .created := of_decide_eq_true created
  obtain ⟨serves, -⟩ := directory_linearized (Reachable.durable reachable)
  rcases serves thread member names response
    (Program.result?_eq_some.mp finished) with
    ⟨turned, -⟩ | ⟨earlier, taken, new, isPast, -, serves⟩
  · rcases turned with refused | reserved
    · simp [isCreated] at refused
    · rw [reserved] at isCreated
      cases isCreated
  · refine ⟨pool, Reachable.durable reachable, thread, member, taken, ?_,
      response, isCreated, serves⟩
    rw [isPast]
    exact List.mem_append_right _ List.mem_cons_self

end Schedules

end Floonet
