import Floonet.Client
import Floonet.Footprint
import Mathlib.Data.List.Induction

/-!
# What an authorization event is bound to

Of the tags of an event the last one of each kind counts.  So an event fits
requests of one method, one URL and one body only, whatever its tags are.
-/

namespace Floonet

open Concurrent MachineInt Program Text Validation

/-! ## The tags that count -/

def urlTag : List String → Option String
  | "u" :: u :: _ => some u
  | _ => none

def methodTag : List String → Option String
  | "method" :: m :: _ => some m
  | _ => none

/-- A payload tag, with or without a value. -/
def payloadTag : List String → Option (Option String)
  | "payload" :: parts => some parts.head?
  | _ => none

section Last

variable {Value : Type} (read : List String → Option Value)

/-- The value of the last tag of a kind. -/
def lastTag (tags : List (List String)) : Option Value :=
  (tags.filterMap read).getLast?

theorem lastTag_concat (tags : List (List String)) (tag : List String) :
    lastTag read (tags ++ [tag]) = (read tag).or (lastTag read tags) := by
  rw [lastTag, List.filterMap_append]
  cases isRead : read tag with
  | none =>
      rw [List.filterMap_cons_none isRead, List.filterMap_nil, List.append_nil]
      rfl
  | some value =>
      rw [List.filterMap_cons_some isRead, List.filterMap_nil,
        List.getLast?_concat]
      rfl

end Last

theorem AuthTags.read_eq (expectedUrl : String) (method : Method)
    (tags : AuthTags) (tag : List String) :
    tags.read expectedUrl method tag =
      { uOk := ((urlTag tag).map fun u =>
          trimEndSlashes u == trimEndSlashes expectedUrl).getD tags.uOk
        methodOk := ((methodTag tag).map
          (eqIgnoreAsciiCase · method.asStr)).getD tags.methodOk
        payloadHash := (payloadTag tag).getD tags.payloadHash } := by
  unfold AuthTags.read
  split
  · rfl
  · rfl
  · rfl
  · rename_i noUrl noMethod noPayload
    have url : urlTag tag = none := by
      unfold urlTag
      split
      · exact absurd rfl (noUrl _ _)
      · rfl
    have method : methodTag tag = none := by
      unfold methodTag
      split
      · exact absurd rfl (noMethod _ _)
      · rfl
    have payload : payloadTag tag = none := by
      unfold payloadTag
      split
      · exact absurd rfl (noPayload _)
      · rfl
    rw [url, method, payload]
    rfl

theorem foldl_read (expectedUrl : String) (method : Method)
    (tags : List (List String)) :
    tags.foldl (AuthTags.read expectedUrl method) ⟨false, false, none⟩ =
      { uOk := (lastTag urlTag tags).any fun u =>
          trimEndSlashes u == trimEndSlashes expectedUrl
        methodOk := (lastTag methodTag tags).any
          (eqIgnoreAsciiCase · method.asStr)
        payloadHash := (lastTag payloadTag tags).join } := by
  induction tags using List.reverseRecOn with
  | nil => rfl
  | append_singleton tags tag induction =>
      rw [List.foldl_append, induction, List.foldl_cons, List.foldl_nil,
        AuthTags.read_eq]
      simp only [lastTag_concat]
      cases urlTag tag <;> cases methodTag tag <;> cases payloadTag tag <;>
        rfl

/-! ## Accepted events -/

section Checks

variable {ext : Extern} {cfg : Config} {env : Env} {world : World}
  {event : Event} {headers : Headers} {method : Method} {urlPath : String}
  {body : Bytes}

/-- The hash that an event gives, if any, is that of the body. -/
def PayloadFits (ext : Extern) (event : Event) (body : Bytes) : Prop :=
  match (lastTag payloadTag event.tags).join with
  | some expected =>
      eqIgnoreAsciiCase expected (hexEncode (ext.sha256 body)) = true
  | none => body = []

theorem checkAuthTags_eq_ok {baseUrl : String} :
    checkAuthTags ext event method urlPath body baseUrl = .ok () ↔
      (∃ u, lastTag urlTag event.tags = some u ∧
        trimEndSlashes u = trimEndSlashes (baseUrl ++ urlPath)) ∧
      (∃ m, lastTag methodTag event.tags = some m ∧
        eqIgnoreAsciiCase m method.asStr = true) ∧
      PayloadFits ext event body := by
  simp only [checkAuthTags, foldl_read, bind_eq_ok, require_eq_ok,
    Option.any_eq_true, beq_iff_eq]
  unfold PayloadFits
  cases (lastTag payloadTag event.tags).join with
  | some expected => simp
  | none => simp

theorem Event.timely_iff {now : Int} : event.timely cfg now ↔
    ¬(cfg.authMaxAgeSecs < wrapI64 (now - asI64 event.createdAt.toNat) ∨
      wrapI64 (now - asI64 event.createdAt.toNat) < -5) := by
  rw [not_or, Int.not_lt, Int.not_lt]
  exact and_comm

/-- An authorization event of the right kind and age is checked tag by tag. -/
theorem verifyNip98_checked (signed : headers.authorization = .signed event)
    (kind : event.kind = httpAuthKind)
    (timely : event.timely cfg world.unixTime.seconds) :
    ((verifyNip98 ext cfg headers method urlPath body).run (Op.exec env)
        world).1 =
      (checkAuthTags ext event method urlPath body cfg.baseUrl).map
        fun _ => (event.pubkey.toHex, event.id.toHex) := by
  have clock : (Op.exec env Op.unixNow world).1 = world.unixTime.seconds := rfl
  rw [Event.timely_iff] at timely
  unfold verifyNip98
  rw [signed]
  dsimp only
  rw [if_neg (not_not.mpr kind), App.unixNow, perform_bind, run_step, clock,
    if_neg timely]
  cases checkAuthTags ext event method urlPath body cfg.baseUrl with
  | error refusal => rfl
  | ok done => rfl

theorem verifyNip98_eq_ok (signed : headers.authorization = .signed event)
    {identity : String × String} :
    ((verifyNip98 ext cfg headers method urlPath body).run (Op.exec env)
        world).1 = .ok identity ↔
      event.kind = httpAuthKind ∧
      event.timely cfg world.unixTime.seconds ∧
      checkAuthTags ext event method urlPath body cfg.baseUrl = .ok () ∧
      identity = (event.pubkey.toHex, event.id.toHex) := by
  by_cases kind : event.kind = httpAuthKind
  · by_cases timely : event.timely cfg world.unixTime.seconds
    · rw [verifyNip98_checked signed kind timely]
      cases checkAuthTags ext event method urlPath body cfg.baseUrl with
      | error refusal => simp [Except.map]
      | ok done => simp [Except.map, kind, timely, eq_comm]
    · have expired := timely
      rw [Event.timely_iff, not_not] at expired
      have clock : (Op.exec env Op.unixNow world).1 =
          world.unixTime.seconds := rfl
      unfold verifyNip98
      rw [signed]
      dsimp only
      rw [if_neg (not_not.mpr kind), App.unixNow, perform_bind, run_step,
        clock, if_pos expired]
      simp [timely]
  · unfold verifyNip98
    rw [signed]
    dsimp only
    rw [if_pos kind]
    simp [kind]

theorem eqIgnoreAsciiCase_iff {left right : String} :
    eqIgnoreAsciiCase left right = true ↔
      left.toList.map Char.toLower = right.toList.map Char.toLower :=
  beq_iff_eq

theorem PayloadFits.unique {body' : Bytes} (fits : PayloadFits ext event body)
    (fits' : PayloadFits ext event body')
    (noCollision : ext.sha256 body = ext.sha256 body' → body = body') :
    body = body' := by
  unfold PayloadFits at fits fits'
  split at fits
  · rename_i expected isLast
    rw [isLast] at fits'
    dsimp only at fits'
    rw [eqIgnoreAsciiCase_iff, toLower_hexEncode] at fits fits'
    apply noCollision
    apply hexEncode_injective
    apply String.toList_inj.mp
    exact fits.symm.trans fits'
  · rename_i isLast
    rw [isLast] at fits'
    exact fits.trans fits'.symm

/-- Requests that are accepted with one event under one base URL have one
method, one URL and one body, whatever else happens in between. -/
theorem accepted_requests_agree {headers' : Headers} {method' : Method}
    {urlPath' : String} {body' : Bytes} {env' : Env} {world' : World}
    {identity identity' : String × String}
    (signed : headers.authorization = .signed event)
    (signed' : headers'.authorization = .signed event)
    (accepted : ((verifyNip98 ext cfg headers method urlPath body).run
      (Op.exec env) world).1 = .ok identity)
    (accepted' : ((verifyNip98 ext cfg headers' method' urlPath' body').run
      (Op.exec env') world').1 = .ok identity')
    (noCollision : ext.sha256 body = ext.sha256 body' → body = body') :
    eqIgnoreAsciiCase method.asStr method'.asStr = true ∧
      trimEndSlashes (cfg.baseUrl ++ urlPath) =
        trimEndSlashes (cfg.baseUrl ++ urlPath') ∧
      body = body' := by
  obtain ⟨-, -, checked, -⟩ := (verifyNip98_eq_ok signed).mp accepted
  obtain ⟨-, -, checked', -⟩ := (verifyNip98_eq_ok signed').mp accepted'
  obtain ⟨⟨u, isUrl, url⟩, ⟨m, isMethod, fitsMethod⟩, payload⟩ :=
    checkAuthTags_eq_ok.mp checked
  obtain ⟨⟨u', isUrl', url'⟩, ⟨m', isMethod', fitsMethod'⟩, payload'⟩ :=
    checkAuthTags_eq_ok.mp checked'
  cases isUrl.symm.trans isUrl'
  cases isMethod.symm.trans isMethod'
  rw [eqIgnoreAsciiCase_iff] at fitsMethod fitsMethod' ⊢
  exact ⟨fitsMethod.symm.trans fitsMethod', url.symm.trans url',
    payload.unique payload' noCollision⟩

end Checks

namespace Sample

/-- An event that was tagged in disorder. -/
def tangledEvent : Event where
  id := .ofHex
    "84be767ed3d26356fff89e384dc8d53872521120a74674cb3deda22daac5f2e5"
  pubkey := .ofHex seller
  createdAt := .ofNat start
  kind := httpAuthKind
  tags :=
    [["u"], ["payload", "00"], ["u", "https://other.example"],
      ["method", "GET"],
      ["payload",
        "717333F555F4F2112BD8F313232EDF10A116DAC2FE5ADC0BC66EB9B6C22F2783"],
      ["u", "https://floonet.example/api/v1/register//", "x"],
      ["method", "pOsT"], ["method"]]

def tangled : Headers := ⟨.signed tangledEvent, none⟩

def tangledIdentity : String × String :=
  (tangledEvent.pubkey.toHex, tangledEvent.id.toHex)

theorem tangled_accepted (env : Env) :
    ((verifyNip98 host config tangled .post "/api/v1/register"
      (registerBody "alice" seller)).run (Op.exec env) world).1 =
        .ok tangledIdentity ∧
    ((verifyNip98 host config tangled (.other "Post") "/api/v1/register/"
      (registerBody "alice" seller)).run (Op.exec env) world).1 =
        .ok tangledIdentity := by
  have timely : tangledEvent.timely config world.unixTime.seconds := by
    unfold Event.timely
    decide +kernel
  have checked : (checkAuthTags host tangledEvent .post "/api/v1/register"
      (registerBody "alice" seller) config.baseUrl).toOption = some () := by
    decide +kernel
  have checked' : (checkAuthTags host tangledEvent (.other "Post")
      "/api/v1/register/" (registerBody "alice" seller)
      config.baseUrl).toOption = some () := by
    decide +kernel
  constructor
  · exact (verifyNip98_eq_ok rfl).mpr
      ⟨rfl, timely, toOption_eq_some.mp checked, rfl⟩
  · exact (verifyNip98_eq_ok rfl).mpr
      ⟨rfl, timely, toOption_eq_some.mp checked', rfl⟩

end Sample

open Sample

theorem accepted_requests_agree_tangled :
    eqIgnoreAsciiCase Method.post.asStr (Method.other "Post").asStr = true ∧
      trimEndSlashes (config.baseUrl ++ "/api/v1/register") =
        trimEndSlashes (config.baseUrl ++ "/api/v1/register/") ∧
      registerBody "alice" seller = registerBody "alice" seller :=
  accepted_requests_agree rfl rfl (tangled_accepted (node 100 100)).1
    (tangled_accepted (node 200 100)).2 fun _ => rfl

end Floonet
