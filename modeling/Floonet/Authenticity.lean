import Floonet.BaseUrl
import Floonet.Restarts

/-!
# Who has signed a write

A request whose handler asks for a verification performs no write before an
event for its method, URL and body has passed, with a new id and at an age that
the configuration allows.
-/

namespace Floonet

open Concurrent Program System Text Validation

/-- An event that the thread has accepted for its request. -/
structure Verification.PassedBy (verification : Verification) (ext : Extern)
    (cfg : Config) (past : History) (event : Event) : Prop where
  signed : verification.headers.authorization = .signed event
  url : ∃ u, lastTag urlTag event.tags = some u ∧
    trimEndSlashes u = trimEndSlashes (cfg.baseUrl ++ verification.urlPath)
  valid : ∃ now, past.Saw .unixNow now ∧
    event.OtherwiseValid ext cfg verification.method verification.body now
  fresh : ∃ instant, past.Saw
    (.authEventFresh event.id.toHex cfg.authWindow instant) true

/-- The key has signed an event for this very request. -/
def Request.SignedBy (request : Request) (ext : Extern) (cfg : Config)
    (past : History) (pubkey : String) : Prop :=
  ∃ verification event, request.verification ext = some verification ∧
    verification.PassedBy ext cfg past event ∧ event.pubkey.toHex = pubkey

theorem Request.verification_signer {request : Request} {ext : Extern}
    {verification : Verification}
    (verifies : request.verification ext = some verification) :
    request.signer = verification.headers.signer := by
  cases request with
  | register | unregister | quote | lodgeOffer | revokeOffer | claim =>
      cases verifies
      rfl
  | _ => cases verifies

theorem Verification.PassedBy.signer {verification : Verification}
    {ext : Extern} {cfg : Config} {past : History} {event : Event}
    (passed : verification.PassedBy ext cfg past event) :
    verification.headers.signer = some event.pubkey.toHex := by
  rw [Headers.signer, passed.signed]

section Monotone

variable {ext : Extern} {cfg : Config} {past later : History}

theorem Verification.PassedBy.subset {verification : Verification}
    {event : Event} (passed : verification.PassedBy ext cfg past event)
    (more : past ⊆ later) : verification.PassedBy ext cfg later event where
  signed := passed.signed
  url := passed.url
  valid := by
    obtain ⟨now, clock, otherwise⟩ := passed.valid
    exact ⟨now, more clock, otherwise⟩
  fresh := by
    obtain ⟨instant, isNew⟩ := passed.fresh
    exact ⟨instant, more isNew⟩

theorem Request.SignedBy.subset {request : Request} {pubkey : String}
    (signed : request.SignedBy ext cfg past pubkey) (more : past ⊆ later) :
    request.SignedBy ext cfg later pubkey := by
  obtain ⟨verification, event, verifies, passed, signer⟩ := signed
  exact ⟨verification, event, verifies, passed.subset more, signer⟩

end Monotone

section Opening

variable (ext : Extern) (cfg : Config)

theorem verifyNip98_passes (verification : Verification) (past : History) :
    SilentProgram (verification.verify ext cfg)
      (fun past' result => ∀ pubkey authId, result = .ok (pubkey, authId) →
        ∃ event now,
          verification.headers.authorization = .signed event ∧
          pubkey = event.pubkey.toHex ∧ authId = event.id.toHex ∧
          (∃ u, lastTag urlTag event.tags = some u ∧ trimEndSlashes u =
            trimEndSlashes (cfg.baseUrl ++ verification.urlPath)) ∧
          History.Saw past' .unixNow now ∧
          event.OtherwiseValid ext cfg verification.method
            verification.body now) past := by
  unfold Verification.verify verifyNip98
  cases authorization : verification.headers.authorization with
  | signed event =>
      dsimp only
      split
      · exact nofun
      rename_i kind
      refine every_perform_bind.mpr ⟨rfl, fun now => ?_⟩
      split
      · exact nofun
      rename_i timely
      split
      · exact nofun
      rename_i checked
      rintro pubkey authId ⟨⟩
      obtain ⟨url, method, payload⟩ := checkAuthTags_eq_ok.mp checked
      exact ⟨event, now, rfl, rfl, rfl, url, past.saw_last _ _,
        ⟨not_not.mp kind, Event.timely_iff.mpr timely, method, payload⟩⟩
  | _ => exact nofun

theorem authorize_passes (bucket : String) (verification : Verification)
    (past : History) :
    SilentProgram (authorize ext cfg bucket verification.headers
        verification.method verification.urlPath verification.body)
      (fun past' result => ∀ pubkey, result = .ok pubkey →
        ∃ event, verification.PassedBy ext cfg past' event ∧
          event.pubkey.toHex = pubkey) past := by
  have quiet : ∀ (past' : History) (op : Op), op.silent = true →
      op.silent = true := fun _ _ silent => silent
  unfold authorize
  refine (allow_silent bucket (clientIp verification.headers) cfg.writeRateMax
    cfg.writeRateWindow past).quiet_bind quiet fun new allowed _ _ => ?_
  split
  · exact nofun
  refine (verifyNip98_passes ext cfg verification (past ++ new)).quiet_bind
    quiet fun new' result _ passes => ?_
  rcases result with ⟨code, message⟩ | ⟨pubkey, authId⟩
  · exact nofun
  obtain ⟨event, now, signed, rfl, rfl, url, clock, otherwise⟩ :=
    passes _ _ rfl
  refine every_bind.mpr ⟨rfl, fun instant => ⟨rfl, fun fresh => ?_⟩⟩
  cases fresh with
  | false => exact nofun
  | true =>
      rintro _ ⟨⟩
      exact ⟨event, ⟨signed, url, ⟨now, (clock.append _).append _, otherwise⟩,
        ⟨instant, History.saw_last _ _ _⟩⟩, rfl⟩

variable {ext cfg} {request : Request} {verification : Verification}

/-- The handler begins with this verification and ends there if it fails. -/
theorem routes_opening
    (verifies : request.verification ext = some verification) :
    ∃ bucket rest,
      let handler := authorize ext cfg bucket verification.headers
        verification.method verification.urlPath verification.body >>= rest
      (routes ext cfg request = handler ∨
        routes ext cfg request = transferRoute cfg handler) ∧
      ∀ refusal, rest (.error refusal) = .done refusal := by
  cases request with
  | register | unregister | quote =>
      cases verifies
      exact ⟨_, _, .inl rfl, fun _ => rfl⟩
  | lodgeOffer | revokeOffer | claim =>
      cases verifies
      exact ⟨_, _, .inr rfl, fun _ => rfl⟩
  | _ => cases verifies

/-- No write comes before the event. -/
theorem routes_signed
    (verifies : request.verification ext = some verification) :
    (routes ext cfg request).Every
      (fun past op => op.silent = false →
        ∃ pubkey, request.SignedBy ext cfg past pubkey)
      (fun _ _ => True) [] := by
  obtain ⟨bucket, rest, isHandler, ends⟩ := routes_opening verifies
  have opened : (authorize ext cfg bucket verification.headers
      verification.method verification.urlPath verification.body >>=
        rest).Every
      (fun past op => op.silent = false →
        ∃ pubkey, request.SignedBy ext cfg past pubkey)
      (fun _ _ => True) [] := by
    refine (authorize_passes ext cfg bucket verification []).quiet_bind
      (fun past op silent loud => ?_) fun past result _ passes => ?_
    · rw [silent] at loud
      cases loud
    · cases result with
      | error refusal =>
          rw [ends]
          trivial
      | ok pubkey =>
          obtain ⟨event, passed, signer⟩ := passes pubkey rfl
          exact (every_extends _ _).mono
            (fun past' _ extended _ _ => ⟨pubkey, verification, event, verifies,
              passed.subset extended.subset, signer⟩)
            fun _ _ _ _ => trivial
  rcases isHandler with same | same
  · rw [same]
    exact opened
  · rw [same, transferRoute]
    split
    · exact opened
    · trivial

end Opening

theorem registerRequest_signer {ext : Extern} {cfg : Config}
    {authPubkey : String} {body : Bytes}
    {name pubkey : String} (accepted : registerRequest ext cfg authPubkey body =
      .ok (name, pubkey)) : pubkey = authPubkey := by
  simp only [registerRequest, bind_eq_ok, demand_eq_ok, require_eq_ok,
    pure_eq_ok] at accepted
  obtain ⟨req, -, -, -, -, same, -, -, -, -, isPair⟩ := accepted
  cases isPair
  exact beq_iff_eq.mp same

namespace Durable

variable {ext : Extern} {cfg : Config}
  {permitted : Permission World Request Op Op.Ans Response}
  {pool : FloonetPool} {thread : FloonetThread}

theorem signed (reachable : (durable ext cfg).Reachable permitted pool)
    (member : thread ∈ pool.threads) {op : Op}
    {next : op.Ans → Handler Response}
    (pending : thread.program = .step op next) (loud : op.silent = false)
    {verification : Verification}
    (verifies : thread.request.verification ext = some verification)
    {pubkey : String} (carries : thread.request.signer = some pubkey) :
    thread.request.SignedBy ext cfg thread.events pubkey := by
  have every := (reachable.follows thread member).every
    (@routes_signed ext cfg _ _ verifies)
  rw [pending] at every
  obtain ⟨signer, verification', event, verifies', passed, rfl⟩ := every.1 loud
  rw [Request.verification_signer verifies', passed.signer] at carries
  exact ⟨verification', event, verifies', passed, Option.some.inj carries⟩

end Durable

end Floonet
