import Floonet.Addresses
import Floonet.Server

/-!
# Requests of a well-behaved client

A client that signs the header of its request as the server expects passes
every check of the header that does not depend on the state.  What is left of
a handler is a program over the texts of the request, which is also the
practical way to execute it.
-/

namespace Floonet

open Concurrent MachineInt Program Text Validation

variable (ext : Extern) (cfg : Config)

/-- The NIP-98 event of a request. -/
def authEvent (id pubkey : Bytes32) (createdAt : UInt64) (method : Method)
    (urlPath : String) (body : Bytes) : Event where
  id := id
  pubkey := pubkey
  createdAt := createdAt
  kind := httpAuthKind
  tags :=
    [["u", cfg.baseUrl ++ urlPath], ["method", method.asStr]] ++
      if body.isEmpty then []
      else [["payload", hexEncode (ext.sha256 body)]]

theorem checkAuthTags_authEvent (id pubkey : Bytes32) (createdAt : UInt64)
    (method : Method) (urlPath : String) (body : Bytes) :
    checkAuthTags ext (authEvent ext cfg id pubkey createdAt method urlPath body)
      method urlPath body cfg.baseUrl = .ok () := by
  have agrees : ∀ text, eqIgnoreAsciiCase text text = true := by
    intro text
    apply BEq.rfl
  cases empty : body.isEmpty with
  | true =>
      simp [checkAuthTags, authEvent, AuthTags.read, agrees, empty]
  | false =>
      simp [checkAuthTags, authEvent, AuthTags.read, agrees, empty]

def signRequest (id pubkey : Bytes32) (createdAt : UInt64) (method : Method)
    (urlPath : String) (body : Bytes) : Headers where
  authorization :=
    .signed (authEvent ext cfg id pubkey createdAt method urlPath body)
  realIp := none

/-- What `authorize` still checks of such a request before `granted` goes
on. -/
def opened (bucket : String) (createdAt : Int) (authId : String)
    (granted : Handler Response) : Handler Response := do
  if !(← App.allowWrite cfg bucket "unknown") then
    return err .tooManyRequests "rate_limited"
  let now ← App.unixNow
  let age := wrapI64 (now - createdAt)
  if cfg.authMaxAgeSecs < age ∨ age < -5 then
    return err .unauthorized "auth event expired or post-dated"
  if !(← App.authEventFresh cfg authId) then
    return err .unauthorized "auth event replayed"
  granted

theorem authorize_signRequest (bucket : String) (id pubkey : Bytes32)
    (createdAt : UInt64) (method : Method) (urlPath : String) (body : Bytes)
    (rest : Except Response String → Handler Response)
    (refused : ∀ refusal, rest (.error refusal) = return refusal) :
    (authorize ext cfg bucket
      (signRequest ext cfg id pubkey createdAt method urlPath body) method
      urlPath body >>= rest) =
      opened cfg bucket (asI64 createdAt.toNat) id.toHex
        (rest (.ok pubkey.toHex)) := by
  have checked := checkAuthTags_authEvent ext cfg id pubkey createdAt method
    urlPath body
  simp only [authorize, opened, App.allowWrite, App.allow, App.authEventFresh,
    verifyNip98, signRequest, clientIp, App.instantNow, App.unixNow,
    perform_bind, step_bind]
  congr 1
  funext instant
  congr 1
  funext allowed
  cases allowed with
  | false => exact refused _
  | true =>
      have kind : ¬(authEvent ext cfg id pubkey createdAt method urlPath
          body).kind ≠ httpAuthKind := fun different => different rfl
      have time : (authEvent ext cfg id pubkey createdAt method urlPath
          body).createdAt = createdAt := rfl
      simp only [Bool.not_true, Bool.false_eq_true, if_false, if_neg kind, time,
        step_bind, checked]
      congr 1
      funext now
      by_cases expired : cfg.authMaxAgeSecs <
          wrapI64 (now - asI64 createdAt.toNat) ∨
        wrapI64 (now - asI64 createdAt.toNat) < -5
      · rw [if_pos expired, if_pos expired]
        exact refused _
      · rw [if_neg expired, if_neg expired]
        simp only [pure_eq_done, done_bind, step_bind]
        congr 1
        funext reading
        congr 1
        funext fresh
        cases fresh with
        | false => exact refused _
        | true => rfl

/-! ## Handlers of signed requests -/

section Handlers

variable (id pubkey : Bytes32) (createdAt : UInt64)

theorem register_signRequest {body : Bytes} {name owner : String}
    (accepted : registerRequest ext cfg pubkey.toHex body =
      .ok (name, owner)) :
    register ext cfg (signRequest ext cfg id pubkey createdAt .post
        "/api/v1/register" body) body =
      opened cfg "reg" (asI64 createdAt.toNat) id.toHex (do
        if ← App.cooldownActive "namechange" pubkey.toHex
          cfg.nameChangeCooldown
        then return err .tooManyRequests "name_change_cooldown"
        registerName cfg pubkey.toHex name owner) := by
  unfold register
  rw [authorize_signRequest _ _ _ _ _ _ _ _ _ _ fun _ => rfl]
  simp only [accepted]

theorem unregister_signRequest {name : String}
    (lower : ext.cases.toLowercase name = name) :
    unregister ext cfg name (signRequest ext cfg id pubkey createdAt .delete
        s!"/api/v1/register/{name}" []) =
      opened cfg "unreg" (asI64 createdAt.toNat) id.toHex
        (unregisterName pubkey.toHex name) := by
  unfold unregister
  rw [lower, authorize_signRequest _ _ _ _ _ _ _ _ _ _ fun _ => rfl]

theorem lodgeOffer_signRequest {body : Bytes} {lodgement : Lodgement}
    (accepted : lodgeRequest ext cfg pubkey.toHex body = .ok lodgement) :
    lodgeOffer ext cfg (signRequest ext cfg id pubkey createdAt .post
        "/api/v1/transfer/offer" body) body =
      opened cfg "transfer" (asI64 createdAt.toNat) id.toHex
        (lodge cfg lodgement) := by
  unfold lodgeOffer
  rw [authorize_signRequest _ _ _ _ _ _ _ _ _ _ fun _ => rfl]
  simp only [accepted]

theorem revokeOffer_signRequest (offerId : String) :
    revokeOffer ext cfg offerId (signRequest ext cfg id pubkey createdAt
        .delete s!"/api/v1/transfer/offer/{offerId}" []) =
      opened cfg "transfer" (asI64 createdAt.toNat) id.toHex
        (revokeById cfg pubkey.toHex offerId) := by
  unfold revokeOffer
  rw [authorize_signRequest _ _ _ _ _ _ _ _ _ _ fun _ => rfl]

theorem claim_signRequest {body : Bytes} {offerId : String}
    {proof : ParsedPaymentProof}
    (accepted : claimRequest ext body = .ok (offerId, proof)) :
    claim ext cfg (signRequest ext cfg id pubkey createdAt .post
        "/api/v1/transfer/claim" body) body =
      opened cfg "transfer" (asI64 createdAt.toNat) id.toHex
        (claimById cfg pubkey.toHex offerId (proof.payment ext)) := by
  unfold claim
  rw [authorize_signRequest _ _ _ _ _ _ _ _ _ _ fun _ => rfl]
  simp only [accepted]

/-- The answer to a quote of a resource that is for sale. -/
def quoting (pubkey resource : String) : Handler Response := do
  match ← ensurePaid cfg pubkey resource with
  | .paid => return ⟨.ok, .object
      [("resource", .string resource), ("pubkey", .string pubkey),
        ("paid", .bool true)]⟩
  | .due invoiceId payUrl price =>
      return paymentRequired resource invoiceId payUrl price
  | .unavailable _ => return paymentUnavailable

theorem quote_signRequest {body : Bytes} {resource : String}
    (read : ext.quoteBody body = some resource)
    (sells : sellable cfg resource = true) :
    quote ext cfg (signRequest ext cfg id pubkey createdAt .post
        "/api/v1/quote" body) body =
      opened cfg "quote" (asI64 createdAt.toNat) id.toHex
        (quoting cfg pubkey.toHex resource) := by
  unfold quote
  rw [authorize_signRequest _ _ _ _ _ _ _ _ _ _ fun _ => rfl]
  simp only [read, sells, Bool.not_true, Bool.false_eq_true, if_false]
  rfl

end Handlers

theorem verifySignatures_eq {proof : ParsedPaymentProof}
    {recipientPub senderPub msg recipientSig senderSig : Bytes}
    (recipient : decodeGrinAddress ext proof.recipientAddress =
      some recipientPub)
    (sender : decodeGrinAddress ext proof.senderAddress = some senderPub)
    (message : paymentProofMessage proof.amount proof.excessHex senderPub =
      some msg)
    (byRecipient : hexDecode proof.recipientSigHex = some recipientSig)
    (bySender : hexDecode proof.senderSigHex = some senderSig) :
    verifySignatures ext proof =
      (verifyEd25519 ext recipientPub msg recipientSig &&
        verifyEd25519 ext senderPub msg senderSig) := by
  simp only [verifySignatures, recipient, sender, message, byRecipient,
    bySender]

/-- The 32 bytes of a hexadecimal text, zeros if it is something else. -/
def Bytes32.ofHex (text : String) : Bytes32 :=
  match hexDecode text with
  | some bytes =>
      if length : bytes.length = 32 then ⟨bytes, length⟩
      else ⟨List.replicate 32 0, List.length_replicate⟩
  | none => ⟨List.replicate 32 0, List.length_replicate⟩

theorem Bytes32.toHex_ofHex {text : String}
    (valid : validPubkeyHex text = true) : (ofHex text).toHex = text := by
  simp only [validPubkeyHex, Bool.and_eq_true, beq_iff_eq, List.all_eq_true,
    Bool.not_eq_true'] at valid
  obtain ⟨bytes, decoded, length⟩ := hexDecodeChars_isSome 32 text.toList
    valid.1 fun c member => (valid.2 c member).1
  have same : (ofHex text).val = bytes := by
    simp only [ofHex, hexDecode, decoded, dif_pos length]
  rw [toHex, same]
  exact hexEncode_hexDecode decoded fun c member => (valid.2 c member).2

/-- The bytes of an ASCII text. -/
def asciiBytes (text : List Char) : Bytes :=
  text.map fun c => UInt8.ofNat c.toNat

namespace Sample

/-! ## Texts -/

def quoted (text : List Char) : List Char := '"' :: text ++ ['"']

def field (key : String) (value : List Char) : List Char :=
  quoted key.toList ++ ':' :: value

def stringField (entry : String × String) : List Char :=
  field entry.1 (quoted entry.2.toList)

def braces (fields : List (List Char)) : List Char :=
  '\x7b' :: List.intercalate [','] fields ++ ['\x7d']

def brackets (items : List (List Char)) : List Char :=
  '[' :: List.intercalate [','] items ++ [']']

/-! ## Keys -/

def seller : String :=
  "79be667ef9dcbbac55a06295ce870b07029bfcdb2dce28d959f2815b16f81798"

def buyer : String :=
  "c6047f9441ed7d6d3045406e95c07cd85c778e4b8cef3ca7abac09b95c709ee5"

def rival : String :=
  "f9308a019258c31049344f85f89d5229b531c845836f99b08601f113bce036f9"

/-- Receiving and sending keys of the payments, with their addresses. -/
def firstKey : Bytes := ((hexDecode
  "d75a980182b10ab7d54bfed3c964073a0ee172f3daa62325af021a68f707511a").getD [])

def senderKey : Bytes := ((hexDecode
  "fc51cd8e6218a1a38da47ed00230f0580816ed13ba3303ac5deb911548908025").getD [])

def firstAddress : String :=
  "grin16adfsqvzky9t042tlmfujeq88g8wzuhnm2nzxfd0qgdx3ac82ydq4z65w9"

def secondAddress : String :=
  "grin184qp0slggwy44y4hp2n56xm7hjwfstx09mzfdrxqe42lz2h5vcxqed82ve"

/-- The test-network address of the first key. -/
def firstTestAddress : String :=
  "tgrin16adfsqvzky9t042tlmfujeq88g8wzuhnm2nzxfd0qgdx3ac82ydq2hhmfg"

def senderAddress : String :=
  "grin1l3gumrnzrzs68rdy0mgqyv8stqypdmgnhges8tzaawg32jyssqjsuawe2r"

/-! ## Times -/

def start : Nat := 1700000000

def expiration : Nat := start + 3600

/-! ## Offers -/

structure SignedOffer where
  id : String
  pubkey : String
  name : String
  proofAddress : String
  signature : String

namespace SignedOffer

variable (offer : SignedOffer)

def tags : List (List String) :=
  [["name", offer.name], ["domain", "floonet.example"], ["p", buyer],
    ["price", "1500000000"], ["proof_address", offer.proofAddress],
    ["expiration", toString expiration]]

def event : Event where
  id := .ofHex offer.id
  pubkey := .ofHex offer.pubkey
  createdAt := .ofNat start
  kind := offerKind
  tags := offer.tags

def eventText : List Char :=
  braces [stringField ("id", offer.id), stringField ("pubkey", offer.pubkey),
    field "created_at" (toString start).toList, field "kind" "3402".toList,
    field "tags" (brackets (offer.tags.map fun tag =>
      brackets (tag.map fun part => quoted part.toList))),
    stringField ("content", ""), stringField ("sig", offer.signature)]

def json : Json :=
  .object [("id", .string offer.id), ("pubkey", .string offer.pubkey),
    ("created_at", .number (.posInt (.ofNat start))),
    ("kind", .number (.posInt 3402)),
    ("tags", .array (offer.tags.map fun tag => .array (tag.map .string))),
    ("content", .string ""), ("sig", .string offer.signature)]

def body : Bytes := asciiBytes (braces [field "offer" offer.eventText])

end SignedOffer

/-- The seller offers `alice` to the buyer. -/
def firstOffer : SignedOffer where
  id := "cb8082aa64c5ed8955a3af7c21d361fb668163663825eb24f3cfd61b8411e414"
  pubkey := seller
  name := "alice"
  proofAddress := firstAddress
  signature :=
    "a7c5a53981e0409a0664dd25175629b3839bef0c089947fe5992aa866d1dfc0c" ++
      "36ca9cc418c603820478bcaafcd9fba783f38a8e1dd9e676eea35213ba61a172"

/-- The same sale, to be paid at another address. -/
def secondOffer : SignedOffer where
  id := "56e688c2df2db6fee8e0e64250b09b6788ca7abaa70f127f5a9268866a98276a"
  pubkey := seller
  name := "alice"
  proofAddress := secondAddress
  signature :=
    "b0a371cd4977986677165526552d6d48e6b2ca35707b7ac9b99331446c854d0c" ++
      "7ed578b649b1fd3513464dd0a10f6887ba18aa81789b863a307b483f592b7f59"

/-- The rival offers `bob`, to be paid to the key of the first offer. -/
def rivalOffer : SignedOffer where
  id := "b0544897567c94104381cf36497b4ee52a01e98a49e645c1b292ea47c81e257d"
  pubkey := rival
  name := "bob"
  proofAddress := firstTestAddress
  signature :=
    "ff10cbd6bed43b15d47b75af65dd7b7994c7e75056971a92817b3394630ee506" ++
      "82004add6326a5fd8314038e3cdecbd016f70e13f1f2dfd86c533df99843eaa7"

def offers : List SignedOffer := [firstOffer, secondOffer, rivalOffer]

/-! ## The payment of the first offer -/

def excess : String :=
  "0879be667ef9dcbbac55a06295ce870b07029bfcdb2dce28d959f2815b16f81798"

def recipientSignature : String :=
  "beb89409e621cfccbe5733038a3758e3b4c325ecd950d93e3fae845d74e9ba11" ++
    "b28fb5495ecaafd42e493bc26584e22a1664a02c90b59e80532049a435d68207"

def senderSignature : String :=
  "9b8f79f634484d3f3d2ae94e62f44717564ec0a5bd0071f323a546af028b852e" ++
    "8687f39655b1d97412f0eea44ae68155a51e3dd1062c3109e4b4a2feff56d707"

def proofFields : List (String × String) :=
  [("amount", "1500000000"), ("excess", excess),
    ("recipient_address", firstAddress), ("recipient_sig", recipientSignature),
    ("sender_address", senderAddress), ("sender_sig", senderSignature)]

def claimBody : Bytes :=
  asciiBytes (braces [stringField ("offer_id", firstOffer.id),
    field "proof" (braces (proofFields.map stringField))])

def claimJson : Json :=
  .object [("offer_id", .string firstOffer.id),
    ("proof", .object (proofFields.map fun entry =>
      (entry.1, .string entry.2)))]

/-- The 73 bytes both parties of the payment signed. -/
def paymentMessage : Bytes :=
  (paymentProofMessage 1500000000 excess senderKey).getD []

/-! ## Registrations -/

def registerBody (name pubkey : String) : Bytes :=
  asciiBytes (braces [stringField ("name", name),
    stringField ("pubkey", pubkey)])

def registrations : List (Bytes × RegisterBody) :=
  [(registerBody "alice" seller, ⟨"alice", seller⟩),
    (registerBody "alice" rival, ⟨"alice", rival⟩),
    (registerBody "bob" rival, ⟨"bob", rival⟩)]

/-! ## Third-party code -/

def documents : List (Bytes × Json) :=
  (claimBody, claimJson) ::
    offers.map fun offer => (offer.body, .object [("offer", offer.json)])

def digests : List (Bytes × String) :=
  [(registerBody "alice" seller,
      "717333f555f4f2112bd8f313232edf10a116dac2fe5adc0bc66eb9b6c22f2783"),
    (registerBody "alice" rival,
      "1ca54b9ff4aff0366a95500c925cd727ea24a15e8941fb70c8d6d25bdd051b0e"),
    (registerBody "bob" rival,
      "b3542f526d83a30c1efe9589be2a3222b8b51ab0bd339a53a8da33620b8f8a6e"),
    (firstOffer.body,
      "6cce0b6a1e3ffa200c66693a77575ad075286ea9b286a6667f78f31049e15503"),
    (secondOffer.body,
      "caafbfb3eec0922931c89530f9f97c9e2f99d6900cd2581e485a3ff8c432e3fe"),
    (rivalOffer.body,
      "565ac50e248a7880666804965047a2b63bce30350ee2e2d72b514c65aa2b7459"),
    (claimBody,
      "af7633fe0eca400b2c90c055e5b271363d899762699113f9d3460dde378cbb8a")]

def signatures : List (Bytes × Bytes × Bytes) :=
  [(firstKey, paymentMessage, (hexDecode recipientSignature).getD []),
    (senderKey, paymentMessage, (hexDecode senderSignature).getD [])]

def offerOf (event : Event) : Option SignedOffer :=
  offers.find? fun offer => offer.event == event

def host : Extern where
  cases := .ascii
  jsonFromSlice bytes := documents.lookup bytes
  jsonFromStr text :=
    (offers.find? fun offer => offer.eventText == text.toList).map
      SignedOffer.json
  registerBody bytes := registrations.lookup bytes
  quoteBody _ := none
  eventFromJson json := do
    let id ← (json.get "id").bind Json.asStr
    let offer ← offers.find? fun offer => offer.id == id
    return offer.event
  eventVerify event := (offerOf event).isSome
  eventAsJson event :=
    String.ofList (((offerOf event).map SignedOffer.eventText).getD [])
  sha256 bytes := (hexDecode ((digests.lookup bytes).getD "")).getD []
  hmacSha256 _ _ := []
  bech32Decode text := (Bech32.decode text.toList).map fun decoded =>
    (String.ofList decoded.1, decoded.2.1, decoded.2.2)
  fromBase32 := Bech32.fromBase32
  verifyingKeyVerify key message signature :=
    signatures.contains (key, message, signature)

/-! ## Requests -/

def config : Config := { Config.transferTest with transferMinConf := 1 }

abbrev Market : FloonetSystem := server host config

abbrev Prepared := Market.Served

def signed (id key : String) (createdAt : Nat) (method : Method)
    (urlPath : String) (body : Bytes) : Headers :=
  signRequest host config (.ofHex id) (.ofHex key) (.ofNat createdAt) method
    urlPath body

/-- The signing key and the time of a request, and what it does once it is
admitted. -/
def served (bucket : String) (createdAt : Nat) (id : String)
    (granted : Handler Response) : Handler Response :=
  opened config bucket (asI64 (UInt64.ofNat createdAt).toNat) id granted

def registering (key name : String) : Handler Response := do
  if ← App.cooldownActive "namechange" key config.nameChangeCooldown then
    return err .tooManyRequests "name_change_cooldown"
  registerName config key name key

def register (id key name : String) (validId : validPubkeyHex id = true)
    (validKey : validPubkeyHex key = true)
    (accepted : (registerRequest host config key
      (registerBody name key)).toOption = some (name, key)) : Prepared where
  request := .register (signed id key start .post "/api/v1/register"
    (registerBody name key)) (registerBody name key)
  program := served "reg" start id (registering key name)
  serves := by
    rw [toOption_eq_some, ← Bytes32.toHex_ofHex validKey] at accepted
    have serves := register_signRequest host config (.ofHex id) (.ofHex key)
      (.ofNat start) accepted
    rw [Bytes32.toHex_ofHex validId, Bytes32.toHex_ofHex validKey] at serves
    exact serves

def unregister (id key name : String) (createdAt : Nat)
    (validId : validPubkeyHex id = true)
    (validKey : validPubkeyHex key = true)
    (lower : CaseTables.ascii.toLowercase name = name) : Prepared where
  request := .unregister name (signed id key createdAt .delete
    s!"/api/v1/register/{name}" [])
  program := served "unreg" createdAt id (unregisterName key name)
  serves := by
    have serves := unregister_signRequest host config (.ofHex id)
      (.ofHex key) (.ofNat createdAt) lower
    rw [Bytes32.toHex_ofHex validId, Bytes32.toHex_ofHex validKey] at serves
    exact serves

/-- What the server stores of an offer. -/
def SignedOffer.lodgement (offer : SignedOffer) : Lodgement where
  offerId := offer.id
  eventJson := host.eventAsJson offer.event
  name := offer.name
  seller := offer.pubkey
  buyer := buyer
  price := 1500000000
  proofAddress := offer.proofAddress
  expiration := expiration

/-- The server accepts the offer as it is. -/
structure SignedOffer.Acceptable (offer : SignedOffer) : Prop where
  validId : validPubkeyHex offer.id = true
  validKey : validPubkeyHex offer.pubkey = true
  parsed : host.jsonFromSlice offer.body =
    some (.object [("offer", offer.json)])
  event : host.eventFromJson offer.json = some offer.event
  verified : host.eventVerify offer.event = true
  named : validName offer.name 3 20 = true
  normal : normalizeGrinAddress host offer.proofAddress = offer.proofAddress
  address : (decodeGrinAddress host offer.proofAddress).isSome = true

theorem SignedOffer.Acceptable.accepted {offer : SignedOffer}
    (acceptable : offer.Acceptable) :
    lodgeRequest host config offer.pubkey offer.body = .ok offer.lodgement := by
  have tags : extractOfferTags offer.event = some
      ⟨offer.name, "floonet.example", buyer, "1500000000", offer.proofAddress,
        toString expiration⟩ := by
    simp [extractOfferTags, tagValue, SignedOffer.event, SignedOffer.tags]
  have lower : host.cases.toLowercase buyer = buyer :=
    toLowercase_plain _ rfl (by decide)
  have buyerKey : validPubkeyHex buyer = true :=
    validPubkeyHex_of_chars rfl (by decide)
  have price : parseU64 (trim "1500000000") = some 1500000000 := by
    decide +kernel
  have time : parseI64 (trim (toString expiration)) = some (expiration : Int) := by
    decide +kernel
  have key : offer.event.pubkey.toHex = offer.pubkey :=
    Bytes32.toHex_ofHex acceptable.validKey
  have id : offer.event.id.toHex = offer.id :=
    Bytes32.toHex_ofHex acceptable.validId
  simp only [lodgeRequest, bind_eq_ok, require_eq_ok, demand_eq_ok, pure_eq_ok]
  refine ⟨_, acceptable.parsed, _, rfl, _, acceptable.event, (),
    acceptable.verified, (), rfl, (), ?_, _, tags, (), acceptable.named, (), rfl,
    (), ?_, _, price, (), ?_, _, time, ?_⟩
  · rw [key]
    exact BEq.rfl
  · rw [lower]
    exact buyerKey
  · rw [acceptable.normal]
    exact acceptable.address
  · rw [acceptable.normal, lower, key, id]
    rfl

def lodge (id : String) (offer : SignedOffer)
    (validId : validPubkeyHex id = true) (acceptable : offer.Acceptable) :
    Prepared where
  request := .lodgeOffer (signed id offer.pubkey start .post
    "/api/v1/transfer/offer" offer.body) offer.body
  program := served "transfer" start id (Floonet.lodge config offer.lodgement)
  serves := by
    have accepted := acceptable.accepted
    rw [← Bytes32.toHex_ofHex acceptable.validKey] at accepted
    have serves := lodgeOffer_signRequest host config (.ofHex id)
      (.ofHex offer.pubkey) (.ofNat start) accepted
    rw [Bytes32.toHex_ofHex validId] at serves
    exact serves

def revoke (id key offerId : String) (createdAt : Nat)
    (validId : validPubkeyHex id = true)
    (validKey : validPubkeyHex key = true) : Prepared where
  request := .revokeOffer offerId (signed id key createdAt .delete
    s!"/api/v1/transfer/offer/{offerId}" [])
  program := served "transfer" createdAt id (revokeById config key offerId)
  serves := by
    have serves := revokeOffer_signRequest host config (.ofHex id)
      (.ofHex key) (.ofNat createdAt) offerId
    rw [Bytes32.toHex_ofHex validId, Bytes32.toHex_ofHex validKey] at serves
    exact serves

def claim (id key : String) (createdAt : Nat) (body : Bytes)
    (offerId : String) (payment : Payment)
    (validId : validPubkeyHex id = true)
    (validKey : validPubkeyHex key = true)
    (accepted : ∃ proof, claimRequest host body = .ok (offerId, proof) ∧
      proof.payment host = payment) : Prepared where
  request := .claim (signed id key createdAt .post "/api/v1/transfer/claim"
    body) body
  program := served "transfer" createdAt id
    (claimById config key offerId payment)
  serves := by
    obtain ⟨proof, accepted, rfl⟩ := accepted
    have serves := claim_signRequest host config (.ofHex id)
      (.ofHex key) (.ofNat createdAt) accepted
    rw [Bytes32.toHex_ofHex validId, Bytes32.toHex_ofHex validKey] at serves
    exact serves

/-! ## The requests of the samples -/

theorem lookup_head {α : Type} (body : Bytes) (value : α)
    (rest : List (Bytes × α)) :
    ((body, value) :: rest).lookup body = some value :=
  List.lookup_cons_self

theorem lookup_of_ne {α : Type} {body other : Bytes}
    (different : (body == other) = false) (value : α)
    (rest : List (Bytes × α)) :
    ((other, value) :: rest).lookup body = rest.lookup body := by
  rw [List.lookup_cons, different]

theorem jsonFromSlice_eq (body : Bytes) :
    host.jsonFromSlice body =
      List.lookup body [(claimBody, claimJson),
        (firstOffer.body, .object [("offer", firstOffer.json)]),
        (secondOffer.body, .object [("offer", secondOffer.json)]),
        (rivalOffer.body, .object [("offer", rivalOffer.json)])] := rfl

theorem eventFromJson_eq {offer : SignedOffer}
    (found : offers.find? (fun other => other.id == offer.id) = some offer) :
    host.eventFromJson offer.json = some offer.event := by
  have read : (offer.json.get "id").bind Json.asStr = some offer.id := rfl
  simp only [host, read, Option.bind_eq_bind, Option.bind_some, found]
  rfl

theorem eventVerify_eq {offer : SignedOffer} (signed : offer ∈ offers) :
    host.eventVerify offer.event = true :=
  List.find?_isSome.mpr ⟨offer, signed, BEq.rfl⟩

theorem host_decoder : host.Bech32Decoder := .of_standard (fun _ => rfl) rfl

theorem address_of_chars {address : String} {chars : List Char}
    (isText : address = String.ofList chars)
    (plain : chars.all isPlain = true)
    (encodes : (plainKey chars).isSome = true) :
    (decodeGrinAddress host address).isSome = true := by
  rw [decodeGrinAddress_plain host_decoder isText plain]
  exact encodes

theorem seller_valid : validPubkeyHex seller = true :=
  validPubkeyHex_of_chars rfl (by decide)

theorem buyer_valid : validPubkeyHex buyer = true :=
  validPubkeyHex_of_chars rfl (by decide)

theorem rival_valid : validPubkeyHex rival = true :=
  validPubkeyHex_of_chars rfl (by decide)

theorem firstOffer_acceptable : firstOffer.Acceptable where
  validId := validPubkeyHex_of_chars rfl (by decide)
  validKey := seller_valid
  parsed := by
    have notClaim : (firstOffer.body == claimBody) = false := by
      decide +kernel
    rw [jsonFromSlice_eq, lookup_of_ne notClaim, lookup_head]
  event := eventFromJson_eq (List.find?_cons_of_pos BEq.rfl)
  verified := eventVerify_eq List.mem_cons_self
  named := by decide
  normal := normalizeGrinAddress_eq rfl (by decide)
  address := address_of_chars rfl (by decide) (by decide +kernel)

theorem secondOffer_acceptable : secondOffer.Acceptable where
  validId := validPubkeyHex_of_chars rfl (by decide)
  validKey := seller_valid
  parsed := by
    have notClaim : (secondOffer.body == claimBody) = false := by
      decide +kernel
    have notFirst : (secondOffer.body == firstOffer.body) = false := by
      decide +kernel
    rw [jsonFromSlice_eq, lookup_of_ne notClaim, lookup_of_ne notFirst,
      lookup_head]
  event := by
    apply eventFromJson_eq
    rw [offers, List.find?_cons_of_neg (by decide)]
    exact List.find?_cons_of_pos BEq.rfl
  verified := eventVerify_eq (List.mem_cons_of_mem _ List.mem_cons_self)
  named := by decide
  normal := normalizeGrinAddress_eq rfl (by decide)
  address := address_of_chars rfl (by decide) (by decide +kernel)

theorem rivalOffer_acceptable : rivalOffer.Acceptable where
  validId := validPubkeyHex_of_chars rfl (by decide)
  validKey := rival_valid
  parsed := by
    have notClaim : (rivalOffer.body == claimBody) = false := by
      decide +kernel
    have notFirst : (rivalOffer.body == firstOffer.body) = false := by
      decide +kernel
    have notSecond : (rivalOffer.body == secondOffer.body) = false := by
      decide +kernel
    rw [jsonFromSlice_eq, lookup_of_ne notClaim, lookup_of_ne notFirst,
      lookup_of_ne notSecond, lookup_head]
  event := by
    apply eventFromJson_eq
    rw [offers, List.find?_cons_of_neg (by decide),
      List.find?_cons_of_neg (by decide)]
    exact List.find?_cons_of_pos BEq.rfl
  verified := eventVerify_eq (List.mem_cons_of_mem _
    (List.mem_cons_of_mem _ List.mem_cons_self))
  named := by decide
  normal := normalizeGrinAddress_eq rfl (by decide)
  address := address_of_chars rfl (by decide) (by decide +kernel)

/-- The proof of the payment of the first offer. -/
def firstProof : ParsedPaymentProof where
  amount := 1500000000
  excessHex := excess
  recipientAddress := firstAddress
  recipientSigHex := recipientSignature
  senderAddress := senderAddress
  senderSigHex := senderSignature

def firstPayment : Payment where
  excessHex := excess
  amount := 1500000000
  recipient := firstAddress
  verified := true

theorem decodes_of_chars {address : String} {chars : List Char} {key : Bytes}
    (isText : address = String.ofList chars)
    (plain : chars.all isPlain = true) (encodes : plainKey chars = some key) :
    decodeGrinAddress host address = some key := by
  rw [decodeGrinAddress_plain host_decoder isText plain, encodes]

theorem hexDecode_of_chars {text : String} {chars : List Char} (count : Nat)
    (isText : text = String.ofList chars) (size : chars.length = 2 * count)
    (digits : chars.all isHexDigit = true) :
    hexDecode text = some ((hexDecode text).getD []) ∧
      ((hexDecode text).getD []).length = count := by
  obtain ⟨bytes, decoded, length⟩ := hexDecodeChars_isSome count chars size
    (List.all_eq_true.mp digits)
  rw [hexDecode_eq isText, decoded]
  exact ⟨rfl, length⟩

theorem paymentMessage_eq :
    paymentProofMessage 1500000000 excess senderKey = some paymentMessage := by
  obtain ⟨decoded, size⟩ := hexDecode_of_chars 33 (rfl : excess = _)
    (by decide) (by decide)
  have message : paymentProofMessage 1500000000 excess senderKey =
      some (amountToBeU64 1500000000 ++ (hexDecode excess).getD [] ++
        senderKey) := by
    rw [paymentProofMessage, decoded]
    exact if_neg (not_not_intro size)
  rw [paymentMessage, message]
  rfl

theorem recipientSignature_eq :
    hexDecode recipientSignature =
        some ((hexDecode recipientSignature).getD []) ∧
      ((hexDecode recipientSignature).getD []).length = 64 :=
  hexDecode_of_chars 64 String.ofList_append.symm rfl
    (by decide)

theorem senderSignature_eq :
    hexDecode senderSignature =
        some ((hexDecode senderSignature).getD []) ∧
      ((hexDecode senderSignature).getD []).length = 64 :=
  hexDecode_of_chars 64 String.ofList_append.symm rfl
    (by decide)

theorem firstProof_sender :
    decodeGrinAddress host firstProof.senderAddress = some senderKey := by
  rw [senderKey, hexDecode_eq rfl]
  exact decodes_of_chars rfl (by decide) (by decide +kernel)

theorem firstProof_verified : verifySignatures host firstProof = true := by
  have recipient : decodeGrinAddress host firstProof.recipientAddress =
      some firstKey := by
    rw [firstKey, hexDecode_eq rfl]
    exact decodes_of_chars rfl (by decide) (by decide +kernel)
  obtain ⟨byRecipient, recipientSize⟩ := recipientSignature_eq
  obtain ⟨bySender, senderSize⟩ := senderSignature_eq
  have known : ∀ entry ∈ signatures,
      host.verifyingKeyVerify entry.1 entry.2.1 entry.2.2 = true :=
    fun entry member => List.contains_iff_mem.mpr member
  rw [verifySignatures_eq _ recipient firstProof_sender paymentMessage_eq
      byRecipient bySender, verifyEd25519, verifyEd25519, recipientSize, senderSize,
    known (_, _, _) List.mem_cons_self,
    known (_, _, _) (List.mem_cons_of_mem _ List.mem_cons_self)]
  rfl

theorem firstProof_payment : firstProof.payment host = firstPayment := by
  have recipient : normalizeGrinAddress host firstAddress = firstAddress :=
    firstOffer_acceptable.normal
  rw [ParsedPaymentProof.payment, firstProof_verified]
  simp only [firstProof, recipient]
  rfl

theorem signatures_lower :
    host.cases.toLowercase recipientSignature = recipientSignature ∧
      host.cases.toLowercase senderSignature = senderSignature :=
  ⟨toLowercase_plain _ String.ofList_append.symm (by decide),
    toLowercase_plain _ String.ofList_append.symm (by decide)⟩

theorem firstProof_parsed :
    parsePaymentProof host (.object (proofFields.map fun entry =>
      (entry.1, .string entry.2))) = some firstProof := by
  have parsed : parsePaymentProof host (.object (proofFields.map fun entry =>
      (entry.1, .string entry.2))) = some { firstProof with
        excessHex := host.cases.toLowercase excess
        recipientSigHex := host.cases.toLowercase recipientSignature
        senderSigHex := host.cases.toLowercase senderSignature } := rfl
  have lowerExcess : host.cases.toLowercase excess = excess :=
    toLowercase_plain _ rfl (by decide)
  obtain ⟨lowerRecipient, lowerSender⟩ := signatures_lower
  rw [parsed, lowerExcess, lowerRecipient, lowerSender]
  rfl

theorem claimBody_accepted : ∃ proof,
    claimRequest host claimBody = .ok (firstOffer.id, proof) ∧
      proof.payment host = firstPayment := by
  refine ⟨firstProof, ?_, firstProof_payment⟩
  have parsed : host.jsonFromSlice claimBody = some claimJson := by
    rw [jsonFromSlice_eq, lookup_head]
  have isId : isOfferId firstOffer.id = true := by
    rw [isOfferId, toList_eq (rfl : firstOffer.id = _)]
    decide +kernel
  have lower : host.cases.toLowercase firstOffer.id = firstOffer.id :=
    toLowercase_plain _ rfl (by decide)
  simp only [claimRequest, bind_eq_ok, require_eq_ok, demand_eq_ok, pure_eq_ok]
  refine ⟨_, parsed, firstOffer.id, rfl, (), isId, _, rfl, firstProof,
    firstProof_parsed, ?_⟩
  rw [lower]

theorem registerRequest_eq {name key : String}
    {nameChars keyChars : List Char}
    (known : registrations.lookup (registerBody name key) = some ⟨name, key⟩)
    (isName : name = String.ofList nameChars)
    (plainName : nameChars.all isPlain = true)
    (isKey : key = String.ofList keyChars)
    (plainKey : keyChars.all isPlain = true)
    (validKey : validPubkeyHex key = true)
    (valid : (validName name config.nameMin config.nameMax &&
      !isReserved name config.extraReserved) = true) :
    (registerRequest host config key (registerBody name key)).toOption =
      some (name, key) := by
  have read : host.registerBody (registerBody name key) = some ⟨name, key⟩ :=
    known
  have lowerName := toLowercase_plain host.cases isName plainName
  have lowerKey := toLowercase_plain host.cases isKey plainKey
  rw [Bool.and_eq_true] at valid
  rw [toOption_eq_some]
  simp only [registerRequest, bind_eq_ok, require_eq_ok, demand_eq_ok,
    pure_eq_ok]
  refine ⟨_, read, (), ?_, (), ?_, (), ?_, (), ?_, ?_⟩
  · rw [lowerKey]
    exact validKey
  · rw [lowerKey]
    exact BEq.rfl
  · rw [lowerName]
    exact valid.1
  · rw [lowerName]
    exact valid.2
  · rw [lowerName, lowerKey]

def registerSeller : Prepared :=
  register "3758b71054853f4967ecbfba8087c20e14b623f2f58f0ec14f117fea1bee51e7"
    seller "alice" (validPubkeyHex_of_chars rfl (by decide))
    seller_valid
    (registerRequest_eq (lookup_head _ _ _) rfl (by decide) rfl
      (by decide) seller_valid (by decide))

theorem registerRival_known :
    registrations.lookup (registerBody "alice" rival) =
      some ⟨"alice", rival⟩ := by
  have notSeller :
      (registerBody "alice" rival == registerBody "alice" seller) = false := by
    decide +kernel
  rw [registrations, lookup_of_ne notSeller, lookup_head]

def registerRival : Prepared :=
  register "81612486004882abdcdcba0d9a5bf1c86eed67e0fb61a9d675806c3e97c8f5e8"
    rival "alice" (validPubkeyHex_of_chars rfl (by decide))
    rival_valid
    (registerRequest_eq registerRival_known rfl (by decide) rfl
      (by decide) rival_valid (by decide))

theorem registerBob_known :
    registrations.lookup (registerBody "bob" rival) =
      some ⟨"bob", rival⟩ := by
  have notSeller :
      (registerBody "bob" rival == registerBody "alice" seller) = false := by
    decide +kernel
  have notRival :
      (registerBody "bob" rival == registerBody "alice" rival) = false := by
    decide +kernel
  rw [registrations, lookup_of_ne notSeller, lookup_of_ne notRival,
    lookup_head]

def registerBob : Prepared :=
  register "c8eac32841ff1aa44edce38eeed2fa3607895411a7f0e9f0fee56a3c5bc5de29"
    rival "bob" (validPubkeyHex_of_chars rfl (by decide))
    rival_valid
    (registerRequest_eq registerBob_known rfl (by decide) rfl
      (by decide) rival_valid (by decide))

def release : Prepared :=
  unregister "d32840e7466744e8839f5474a535d456c4023d22f85e8ef35512ce81c60acb74"
    seller "alice" start (validPubkeyHex_of_chars rfl (by decide))
    seller_valid (by decide)

def releaseAgain : Prepared :=
  unregister "989cfff0654d7a86fee09804ab8c4e387fe5667683d9b85e9821f194c448bb6b"
    seller "alice" (start + 1)
    (validPubkeyHex_of_chars rfl (by decide)) seller_valid
    (by decide)

def lodgeFirst : Prepared :=
  lodge "dfa33c221cef537200ab6dcfb9dbb8492dbaffb7b9b0ad2e800528ec54f5ba44"
    firstOffer (validPubkeyHex_of_chars rfl (by decide))
    firstOffer_acceptable

def lodgeSecond : Prepared :=
  lodge "1fb483a525d33425871c7a8ec0ed0610165f96c37eaad326179ac432e8c9c40c"
    secondOffer (validPubkeyHex_of_chars rfl (by decide))
    secondOffer_acceptable

def lodgeRival : Prepared :=
  lodge "11849f2481e9d0769ea1c523935f205e8534735be1e6f20d7731495c415b7266"
    rivalOffer (validPubkeyHex_of_chars rfl (by decide))
    rivalOffer_acceptable

def read : Prepared where
  request := .readOffer firstOffer.id ⟨.missing, none⟩
  program := readOffer host config firstOffer.id ⟨.missing, none⟩
  serves := rfl

def revokeNow : Prepared :=
  revoke "a877888f6a2e720bbb913afe95e12704f0b9067a9f52e2214f7bdad111ec19a1"
    seller firstOffer.id start
    (validPubkeyHex_of_chars rfl (by decide)) seller_valid

/-- A revocation a hundred seconds after the expiration. -/
def revokeLate : Prepared :=
  revoke "e2502f7c05957d7e2f01b4b880835ef57ab52ae54d4f14c9310d6c21fa1e32cf"
    seller firstOffer.id (expiration + 100)
    (validPubkeyHex_of_chars rfl (by decide)) seller_valid

/-- The id of the event that authorizes `claimNow`. -/
def claimNowId : String :=
  "8d06a1c1b296e4c884dbb39c16490e0c0b8c7555f75b7a62258439a53c9281ba"

def claimNow : Prepared :=
  claim claimNowId buyer start claimBody firstOffer.id firstPayment
    (validPubkeyHex_of_chars rfl (by decide)) buyer_valid
    claimBody_accepted

/-- A claim a hundred seconds after the expiration. -/
def claimLate : Prepared :=
  claim "a3ea7afd40ee7a0df6fa308f61a6d0da8208b92a6936eddbab2262a6318957ab"
    buyer (expiration + 100) claimBody firstOffer.id firstPayment
    (validPubkeyHex_of_chars rfl (by decide)) buyer_valid
    claimBody_accepted

/-- A claim a hundred seconds after the grace window. -/
def claimStale : Prepared :=
  claim "03e6f62fcc113467ceb6f3d37769efa037e02b8d1566281c23820b29b9cbcef7"
    buyer (expiration + 86400 + 100) claimBody firstOffer.id firstPayment
    (validPubkeyHex_of_chars rfl (by decide)) buyer_valid
    claimBody_accepted

/-! ## Surroundings -/

def world : World where
  db := .empty
  rate := []
  seenAuth := []
  unixTime := ⟨1700000000, by decide, by decide⟩
  instant := 0
  chainTip := 100

theorem world_initial : world.Initial := ⟨rfl, rfl, rfl⟩

/-- A node whose chain has reached `tip` and holds the payment at `height`. -/
def node (tip height : Nat) : Env where
  tipHeight := .ok (.ofNat tip)
  kernel excessHex := .ok
    (if excessHex = excess ∧ height ≤ tip then
      ⟨true, .ofNat (tip - height + 1), some (.ofNat height)⟩
    else ⟨false, 0, none⟩)
  createInvoice _ _ _ := .error "no payment backend"
  invoiceStatus _ := .error "no payment backend"

/-! ## Schedules -/

/-- The seller registers the name and lodges the first offer. -/
def lodging : List Market.Move :=
  Market.alone registerSeller 0 (node 100 100) 10 ++
    Market.alone lodgeFirst 1 (node 100 100) 10

/-- The buyer claims the first offer. -/
def sale : List Market.Move :=
  lodging ++ Market.alone claimNow 2 (node 100 100) 13

end Sample

end Floonet
