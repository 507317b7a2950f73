import Floonet.AuthBinding
import Mathlib.Data.List.TakeWhile

/-!
# The base URL and the URL a client requests

A client requests a path of the host and the port in the base URL.  Its events
pass exactly if the base URL has nothing else behind the scheme, which the
start-up checks do not demand.
-/

namespace Floonet

open Concurrent MachineInt Program Text Validation

/-! ## Trailing slashes -/

theorem trimEndSlashes_append (front : String) {back : String} {c : Char}
    (member : c ∈ back.toList) (other : c ≠ '/') :
    trimEndSlashes (front ++ back) = front.toList ++ trimEndSlashes back := by
  have stops : ¬(back.toList.reverse.dropWhile (· == '/')).isEmpty := by
    rw [List.isEmpty_iff, List.dropWhile_eq_nil_iff]
    intro slashes
    have slash := slashes c (List.mem_reverse.mpr member)
    exact other (beq_iff_eq.mp slash)
  rw [trimEndSlashes, trimEndSlashes, String.toList_append, List.reverse_append,
    List.dropWhile_append, if_neg stops, List.reverse_append,
    List.reverse_reverse]

/-! ## Hosts -/

/-- The characters around a host and its port. -/
def delimiters : List Char := ['/', '?', '#', '@']

/-- The host and the port of a URL without its scheme: they end before the
path, the query or the fragment, and start after the user information. -/
def hostAndPort (rest : List Char) : List Char :=
  let authority := rest.takeWhile fun c => !(['/', '?', '#'].contains c)
  (authority.reverse.takeWhile (· != '@')).reverse

example : hostAndPort "user@floonet.example:8443/names?x".toList =
    "floonet.example:8443".toList := by
  decide +kernel

theorem not_mem_delimiters {c : Char} :
    c ∉ delimiters ↔
      (!(['/', '?', '#'].contains c)) = true ∧ (c != '@') = true := by
  simp [delimiters]
  tauto

/-- A text is a host and a port if it has none of the delimiters. -/
theorem hostAndPort_eq_self_iff {rest : List Char} :
    hostAndPort rest = rest ↔ ∀ c ∈ rest, c ∉ delimiters := by
  constructor
  · intro same c member
    rw [← same, hostAndPort, List.mem_reverse] at member
    have inAuthority := List.mem_reverse.mp
      ((List.takeWhile_prefix _).subset member)
    have notAt := List.mem_takeWhile_imp member
    have plain := List.mem_takeWhile_imp inAuthority
    exact not_mem_delimiters.mpr ⟨plain, notAt⟩
  · intro plain
    have authority : rest.takeWhile (fun c => !(['/', '?', '#'].contains c)) =
        rest := by
      rw [List.takeWhile_eq_self_iff]
      exact fun c member => (not_mem_delimiters.mp (plain c member)).1
    have noUser : rest.reverse.takeWhile (· != '@') = rest.reverse := by
      rw [List.takeWhile_eq_self_iff]
      exact fun c member =>
        (not_mem_delimiters.mp (plain c (List.mem_reverse.mp member))).2
    rw [hostAndPort, authority, noUser, List.reverse_reverse]

namespace Config

variable (cfg : Config)

def scheme : String := "https://"

/-- The base URL without its scheme. -/
def afterScheme : List Char := cfg.baseUrl.toList.drop scheme.toList.length

/-- The URL that a client of the host requests. -/
def clientUrl (urlPath : String) : String :=
  scheme ++ String.ofList (hostAndPort cfg.afterScheme) ++ urlPath

variable {cfg}

theorem validate_baseUrl (valid : cfg.validate = .ok ()) :
    cfg.baseUrl = scheme ++ String.ofList cfg.afterScheme := by
  simp only [validate, bind_eq_ok, require_eq_ok] at valid
  obtain ⟨-, -, -, starts, -⟩ := valid
  obtain ⟨rest, isUrl⟩ := List.isPrefixOf_iff_prefix.mp starts
  apply String.toList_inj.mp
  rw [String.toList_append, String.toList_ofList, afterScheme, ← isUrl]
  simp [scheme]

end Config

/-! ## Endpoints -/

/-- What a handler gives to `verify_nip98`. -/
structure Verification where
  headers : Headers
  method : Method
  urlPath : String
  body : Bytes

def Verification.verify (verification : Verification) (ext : Extern)
    (cfg : Config) : Handler (Except (StatusCode × String) (String × String)) :=
  verifyNip98 ext cfg verification.headers verification.method
    verification.urlPath verification.body

/-- The verification that the handler of a request asks for. -/
def Request.verification (ext : Extern) : Request → Option Verification
  | .register headers body => some ⟨headers, .post, "/api/v1/register", body⟩
  | .unregister name headers =>
      some ⟨headers, .delete,
        s!"/api/v1/register/{ext.cases.toLowercase name}", []⟩
  | .quote headers body => some ⟨headers, .post, "/api/v1/quote", body⟩
  | .lodgeOffer headers body =>
      some ⟨headers, .post, "/api/v1/transfer/offer", body⟩
  | .revokeOffer offerId headers =>
      some ⟨headers, .delete, s!"/api/v1/transfer/offer/{offerId}", []⟩
  | .claim headers body =>
      some ⟨headers, .post, "/api/v1/transfer/claim", body⟩
  | _ => none

section Endpoints

variable {ext : Extern} {cfg : Config} {env : Env} {world : World}
  {request : Request} {verification : Verification}

/-- The handler begins with the verification, in some rate-limit bucket. -/
def Request.Opens (request : Request) (ext : Extern) (cfg : Config)
    (verification : Verification) : Prop :=
  ∃ bucket rest,
    let handler := authorize ext cfg bucket verification.headers
      verification.method verification.urlPath verification.body >>= rest
    routes ext cfg request = handler ∨
      routes ext cfg request = transferRoute cfg handler

theorem Request.opens
    (verifies : request.verification ext = some verification) :
    request.Opens ext cfg verification := by
  cases request with
  | register | unregister | quote =>
      cases verifies
      exact ⟨_, _, .inl rfl⟩
  | lodgeOffer | revokeOffer | claim =>
      cases verifies
      exact ⟨_, _, .inr rfl⟩
  | _ => cases verifies

theorem Request.verification_letter
    (verifies : request.verification ext = some verification) :
    'a' ∈ verification.urlPath.toList := by
  cases request with
  | register | unregister | quote | lodgeOffer | revokeOffer | claim =>
      cases verifies
      simp [toString]
  | _ => cases verifies

/-- The event is valid apart from its URL. -/
structure Event.OtherwiseValid (event : Event) (ext : Extern) (cfg : Config)
    (method : Method) (body : Bytes) (now : Int) : Prop where
  kind : event.kind = httpAuthKind
  timely : event.timely cfg now
  method : ∃ m, lastTag methodTag event.tags = some m ∧
    eqIgnoreAsciiCase m method.asStr = true
  payload : PayloadFits ext event body

/-- An otherwise valid event for the URL that a client requests is accepted
by the verification that the handler begins with exactly if the base URL has
a host and a port only. -/
theorem client_url_matches_iff (valid : cfg.validate = .ok ())
    (verifies : request.verification ext = some verification) {event : Event}
    (signed : verification.headers.authorization = .signed event)
    (otherwise : event.OtherwiseValid ext cfg verification.method
      verification.body world.unixTime.seconds)
    (url : lastTag urlTag event.tags =
      some (cfg.clientUrl verification.urlPath)) :
    request.Opens ext cfg verification ∧
      (((verification.verify ext cfg).run (Op.exec env) world).1 =
          .ok (event.pubkey.toHex, event.id.toHex) ↔
        ∀ c ∈ cfg.afterScheme, c ∉ delimiters) := by
  refine ⟨Request.opens verifies, ?_⟩
  have letter := Request.verification_letter verifies
  rw [Verification.verify, verifyNip98_eq_ok signed, checkAuthTags_eq_ok,
    ← hostAndPort_eq_self_iff]
  have same : trimEndSlashes (cfg.clientUrl verification.urlPath) =
      trimEndSlashes (cfg.baseUrl ++ verification.urlPath) ↔
        hostAndPort cfg.afterScheme = cfg.afterScheme := by
    rw [Config.clientUrl, trimEndSlashes_append _ letter (by decide),
      trimEndSlashes_append _ letter (by decide), List.append_cancel_right_eq,
      Config.validate_baseUrl valid]
    simp only [String.toList_append, String.toList_ofList,
      List.append_cancel_left_eq]
  constructor
  · rintro ⟨-, -, ⟨⟨u, isUrl, matching⟩, -, -⟩, -⟩
    cases url.symm.trans isUrl
    exact same.mp matching
  · intro plain
    exact ⟨otherwise.kind, otherwise.timely,
      ⟨⟨_, url, same.mpr plain⟩, otherwise.method, otherwise.payload⟩, rfl⟩

end Endpoints

namespace Sample

/-- The event with which the seller registers `alice`. -/
def registration : Event :=
  authEvent host config (.ofHex
      "3758b71054853f4967ecbfba8087c20e14b623f2f58f0ec14f117fea1bee51e7")
    (.ofHex seller) (.ofNat start) .post "/api/v1/register"
    (registerBody "alice" seller)

def registrationRequest : Request :=
  .register ⟨.signed registration, none⟩ (registerBody "alice" seller)

def registrationVerification : Verification where
  headers := ⟨.signed registration, none⟩
  method := .post
  urlPath := "/api/v1/register"
  body := registerBody "alice" seller

/-- The same host with a slash behind it. -/
def slashed : Config := { config with baseUrl := "https://floonet.example/" }

theorem registration_otherwiseValid {cfg : Config}
    (maxAge : cfg.authMaxAgeSecs = 60) : registration.OtherwiseValid host cfg
      .post (registerBody "alice" seller) world.unixTime.seconds where
  kind := rfl
  timely := by
    rw [Event.timely, maxAge]
    decide +kernel
  method := ⟨"POST", by decide +kernel, BEq.rfl⟩
  payload := by
    have isLast : (lastTag payloadTag registration.tags).join =
        some (hexEncode (host.sha256 (registerBody "alice" seller))) := by
      decide +kernel
    rw [PayloadFits, isLast]
    exact eqIgnoreAsciiCase_iff.mpr rfl

end Sample

open Sample

theorem client_url_matches_iff_registration :
    registrationRequest.Opens host config registrationVerification ∧
      (((registrationVerification.verify host config).run
          (Op.exec (node 100 100)) world).1 =
            .ok (registration.pubkey.toHex, registration.id.toHex) ↔
        ∀ c ∈ config.afterScheme, c ∉ delimiters) :=
  client_url_matches_iff (toOption_eq_some.mp (by decide +kernel))
    (show registrationRequest.verification host =
      some registrationVerification from rfl) rfl
    (registration_otherwiseValid rfl) (by decide +kernel)

/-- With a slash behind the host no event for the URL of a client passes. -/
theorem client_url_refused : slashed.validate = .ok () ∧
    registrationRequest.verification host = some registrationVerification ∧
    registrationVerification.headers.authorization = .signed registration ∧
    registration.OtherwiseValid host slashed registrationVerification.method
      registrationVerification.body world.unixTime.seconds ∧
    lastTag urlTag registration.tags =
      some (slashed.clientUrl registrationVerification.urlPath) ∧
    ((registrationVerification.verify host slashed).run
      (Op.exec (node 100 100)) world).1 =
        .error (unauthorized "auth event url mismatch") := by
  refine ⟨toOption_eq_some.mp (by decide +kernel), rfl, rfl,
    registration_otherwiseValid rfl, by decide +kernel, ?_⟩
  have refused : checkAuthTags host registration .post "/api/v1/register"
      (registerBody "alice" seller) slashed.baseUrl =
        .error (unauthorized "auth event url mismatch") := by
    rfl
  have passed : registration.OtherwiseValid host slashed .post _ _ :=
    registration_otherwiseValid rfl
  rw [Verification.verify, verifyNip98_checked rfl rfl passed.timely]
  exact congrArg (Except.map _) refused

end Floonet
