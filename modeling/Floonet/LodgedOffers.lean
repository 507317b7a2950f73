import Floonet.Client
import Floonet.Runs

/-!
# Lodged offers

A row of the offers table against the event that its seller signed.  Every
term is stored as it was signed, the price only if it fits a signed column.
-/

namespace Floonet

open Concurrent MachineInt Program System Text Validation

variable {ext : Extern} {cfg : Config}
  {permitted : Permission World Request Op Op.Ans Response}

/-! ## The event and its row -/

/-- The body of the request carries an event that its seller has signed. -/
def OfferEvent (ext : Extern) (body : Bytes) (event : Event) : Prop :=
  ∃ req offerVal, ext.jsonFromSlice body = some req ∧
    req.get "offer" = some offerVal ∧
    ext.eventFromJson offerVal = some event ∧ ext.eventVerify event = true

/-- The integer in the price tag. -/
def signedPrice (event : Event) : Option Nat :=
  (tagValue event.tags "price").bind fun text => parseU64 (trim text)

/-- The row has the terms that the seller signed, and a payment of the signed
price is a payment of the right amount. -/
structure AsSigned (ext : Extern) (event : Event) (row : OfferRow) :
    Prop where
  name : tagValue event.tags "name" = some row.name
  buyer : (tagValue event.tags "p").map ext.cases.toLowercase =
    some row.buyerPubkey
  price : (signedPrice event).map Int.ofNat = some row.priceNanogrin
  proofAddress : (tagValue event.tags "proof_address").map
    (fun address => ext.cases.toLowercase (trim address)) =
      some row.proofAddress
  expiration : ((tagValue event.tags "expiration").bind fun text =>
    parseI64 (trim text)) = some row.expiration
  payable : ∀ price ∈ signedPrice event, ∀ payment : Payment,
    payment.amount.toNat = price →
      proofGate row payment ≠ .error (err .conflict "proof_amount_mismatch")

theorem extractOfferTags_eq_some {event : Event} {tags : OfferTags} :
    extractOfferTags event = some tags ↔
      tagValue event.tags "name" = some tags.name ∧
        tagValue event.tags "domain" = some tags.domain ∧
        tagValue event.tags "p" = some tags.buyer ∧
        tagValue event.tags "price" = some tags.price ∧
        tagValue event.tags "proof_address" = some tags.proofAddress ∧
        tagValue event.tags "expiration" = some tags.expiration := by
  obtain ⟨name, domain, buyer, price, proofAddress, expiration⟩ := tags
  simp only [extractOfferTags, Option.bind_eq_bind, Option.bind_eq_some_iff,
    Option.pure_def, Option.some.injEq, OfferTags.mk.injEq]
  constructor
  · rintro ⟨_, named, _, domained, _, buys, _, priced, _, addressed, _, expires,
      rfl, rfl, rfl, rfl, rfl, rfl⟩
    exact ⟨named, domained, buys, priced, addressed, expires⟩
  · rintro ⟨named, domained, buys, priced, addressed, expires⟩
    exact ⟨_, named, _, domained, _, buys, _, priced, _, addressed, _, expires,
      rfl, rfl, rfl, rfl, rfl, rfl⟩

/-- What the acceptance of a body says about its event. -/
structure Lodgement.Of (ext : Extern) (event : Event) (lodgement : Lodgement) :
    Prop where
  offerId : lodgement.offerId = event.id.toHex
  name : tagValue event.tags "name" = some lodgement.name
  buyer : (tagValue event.tags "p").map ext.cases.toLowercase =
    some lodgement.buyer
  price : signedPrice event = some lodgement.price
  proofAddress : (tagValue event.tags "proof_address").map
    (normalizeGrinAddress ext) = some lodgement.proofAddress
  expiration : ((tagValue event.tags "expiration").bind fun text =>
    parseI64 (trim text)) = some lodgement.expiration

theorem lodgeRequest_event {authPubkey : String} {body : Bytes}
    {lodgement : Lodgement}
    (accepted : lodgeRequest ext cfg authPubkey body = .ok lodgement) :
    ∃ event, OfferEvent ext body event ∧ lodgement.Of ext event := by
  simp only [lodgeRequest, bind_eq_ok, require_eq_ok, demand_eq_ok, pure_eq_ok]
    at accepted
  obtain ⟨req, parsed, offerVal, carried, event, isEvent, -, verified, -, -, -,
    -, tags, extracted, -, -, -, -, -, -, price, priced, -, -, expiration,
    expires, rfl⟩ := accepted
  obtain ⟨named, -, buys, priceText, addressed, expirationText⟩ :=
    extractOfferTags_eq_some.mp extracted
  refine ⟨event, ⟨req, offerVal, parsed, carried, isEvent, verified⟩, {
    offerId := rfl
    name := named
    buyer := ?_
    price := ?_
    proofAddress := ?_
    expiration := ?_ }⟩
  · rw [buys]
    rfl
  · rw [signedPrice, priceText, Option.bind_some]
    exact priced
  · rw [addressed]
    rfl
  · rw [expirationText, Option.bind_some]
    exact expires

theorem OfferEvent.unique {body : Bytes} {event other : Event}
    (isEvent : OfferEvent ext body event)
    (isOther : OfferEvent ext body other) : event = other := by
  obtain ⟨req, offerVal, parsed, carried, decoded, -⟩ := isEvent
  obtain ⟨req', offerVal', parsed', carried', decoded', -⟩ := isOther
  cases parsed.symm.trans parsed'
  cases carried.symm.trans carried'
  exact Option.some.inj (decoded.symm.trans decoded')

/-! ## The price -/

theorem proofGate_amount {row : OfferRow} {payment : Payment}
    (nonneg : 0 ≤ row.priceNanogrin)
    (amount : (payment.amount.toNat : Int) = row.priceNanogrin) :
    proofGate row payment ≠
      .error (err .conflict "proof_amount_mismatch") := by
  have price := asU64_of_nonneg nonneg
  have passes : (decide (0 ≤ row.priceNanogrin) &&
      payment.amount.toNat == asU64 row.priceNanogrin) = true := by
    rw [Bool.and_eq_true, decide_eq_true_iff, beq_iff_eq]
    exact ⟨nonneg, by omega⟩
  unfold proofGate
  rw [passes]
  cases payment.verified with
  | false => simp [require, err, Bind.bind, Except.bind]
  | true =>
      cases payment.recipient == row.proofAddress with
      | false => simp [require, err, Bind.bind, Except.bind]
      | true => simp [require, Bind.bind, Except.bind]

/-- A row with the signed terms of an event, its price cast to a signed
integer. -/
theorem Lodgement.Of.asSigned_iff {event : Event} {lodgement : Lodgement}
    (of : lodgement.Of ext event) {now : Int} {row : OfferRow}
    (evolves : (lodgement.row now).Evolves row) :
    AsSigned ext event row ↔ ∀ price ∈ signedPrice event, price < 2 ^ 63 := by
  have stored : row.priceNanogrin = asI64 lodgement.price := by
    rw [evolves.terms]
    rfl
  rw [of.price]
  constructor
  · intro asSigned price isPrice
    cases isPrice
    have same := asSigned.price
    rw [of.price, stored, Option.map_some, Option.some.injEq] at same
    exact asI64_eq_iff.mp same.symm
  · intro fits
    have kept := asI64_of_lt (fits lodgement.price rfl)
    rw [kept] at stored
    exact {
      name := by
        rw [evolves.name]
        exact of.name
      buyer := by
        rw [evolves.buyerPubkey]
        exact of.buyer
      price := by
        rw [of.price, stored]
        rfl
      proofAddress := by
        rw [evolves.proofAddress]
        exact of.proofAddress
      expiration := by
        rw [evolves.expiration]
        exact of.expiration
      payable := by
        intro price isPrice payment amount
        rw [of.price] at isPrice
        cases isPrice
        apply proofGate_amount
        · rw [stored]
          exact Int.natCast_nonneg _
        · rw [stored, amount] }

/-! ## The insertion -/

theorem lodge_inserts (lodgement : Lodgement) (past : History) :
    (lodge cfg lodgement).Every (fun _ _ => True)
      (fun past' response => response.status = .created → ∃ now count,
        History.Saw past' (.db (.insertOffer (lodgement.row now))) (.ok count))
      past := by
  unfold lodge
  refine every_perform_bind.mpr ⟨trivial, fun now => ?_⟩
  split
  · exact nofun
  refine every_perform_bind.mpr ⟨trivial, fun owner => ?_⟩
  split
  · exact nofun
  refine every_perform_bind.mpr ⟨trivial, fun taken => ?_⟩
  split
  · exact nofun
  refine every_perform_bind.mpr ⟨trivial, fun bound => ?_⟩
  split
  · exact nofun
  refine every_perform_bind.mpr ⟨trivial, fun inserted => ?_⟩
  rcases inserted with error | count
  · cases error with
    | constraintViolation => exact nofun
    | other => exact nofun
  · exact fun _ => ⟨now, count, History.saw_last _ _ _⟩

theorem lodgeRequest_refuses (authPubkey : String) (body : Bytes) :
    Refuses (fun refusal => refusal.status ≠ .created)
      (lodgeRequest ext cfg authPubkey body) := by
  unfold lodgeRequest
  dsimp only
  refine Refuses.bind (refuses_demand nofun) fun req => ?_
  refine Refuses.bind (refuses_demand nofun) fun offerVal => ?_
  refine Refuses.bind (refuses_demand nofun) fun event => ?_
  refine Refuses.bind (refuses_require nofun) fun _ => ?_
  refine Refuses.bind (refuses_require nofun) fun _ => ?_
  refine Refuses.bind (refuses_require nofun) fun _ => ?_
  refine Refuses.bind (refuses_demand nofun) fun tags => ?_
  refine Refuses.bind (refuses_require nofun) fun _ => ?_
  refine Refuses.bind (refuses_require nofun) fun _ => ?_
  refine Refuses.bind (refuses_require nofun) fun _ => ?_
  refine Refuses.bind (refuses_demand nofun) fun price => ?_
  refine Refuses.bind (refuses_require nofun) fun _ => ?_
  refine Refuses.bind (refuses_demand nofun) fun expiration => ?_
  exact refuses_pure _

/-- The answer 201 to a lodging says that its row was inserted. -/
def InsertsLodgement (ext : Extern) (cfg : Config) (body : Bytes)
    (past : History) (response : Response) : Prop :=
  response.status = .created → ∃ authPubkey lodgement now count,
    lodgeRequest ext cfg authPubkey body = .ok lodgement ∧
    past.Saw (.db (.insertOffer (lodgement.row now))) (.ok count)

theorem lodgeOffer_inserts (headers : Headers) (body : Bytes) :
    (lodgeOffer ext cfg headers body).Every (fun _ _ => True)
      (InsertsLodgement ext cfg body) [] := by
  unfold lodgeOffer
  refine (authorize_silent ext cfg "transfer" headers .post _ body
    []).quiet_bind (fun _ _ _ => trivial) fun past result _ authorized => ?_
  rcases result with refusal | authPubkey
  · exact fun created => absurd created (authorized.status_ne nofun nofun)
  dsimp only
  split
  · rename_i refusal refused
    exact fun created => absurd created
      (lodgeRequest_refuses authPubkey body refusal refused)
  · rename_i lodgement accepted
    refine (lodge_inserts lodgement _).mono (fun _ _ _ _ => trivial) ?_
    intro past' response _ inserts created
    obtain ⟨now, count, saw⟩ := inserts created
    exact ⟨authPubkey, lodgement, now, count, accepted, saw⟩

theorem lodgeRoute_inserts (headers : Headers) (body : Bytes) :
    (routes ext cfg (.lodgeOffer headers body)).Every (fun _ _ => True)
      (InsertsLodgement ext cfg body) [] := by
  rw [routes, transferRoute]
  split
  · exact lodgeOffer_inserts headers body
  · exact nofun

theorem Db.insertOffer_ok {db : Db} {row : OfferRow} {count : Nat}
    (inserted : (db.insertOffer row).1 = .ok count) :
    row ∈ (db.insertOffer row).2.offers.rows := by
  rcases db.insertOffer_cases row with ⟨refused, -⟩ | ⟨offers, done, -, rows⟩
  · rw [refused] at inserted
    cases inserted
  · rw [done]
    show row ∈ offers.rows
    rw [rows]
    exact List.mem_append_right _ List.mem_cons_self

/-- A lodging that was answered by 201 has its row in the table, from then on
and in every interleaving.  The row is as the seller signed it if and only if
the signed price is below `2 ^ 63`. -/
theorem lodged_as_signed_iff {pool : FloonetPool}
    (reachable : (server ext cfg).Reachable permitted pool)
    {thread : FloonetThread} (member : thread ∈ pool.threads)
    {headers : Headers} {body : Bytes}
    (isLodging : thread.request = .lodgeOffer headers body)
    {response : Response} (finished : thread.program = .done response)
    (created : response.status = .created) :
    ∃ event, OfferEvent ext body event ∧
      ∃ row ∈ pool.state.db.offers.rows, row.offerId = event.id.toHex ∧
        (AsSigned ext event row ↔
          ∀ price ∈ signedPrice event, price < 2 ^ 63) := by
  have every : thread.program.Every (fun _ _ => True)
      (InsertsLodgement ext cfg body) thread.events := by
    refine (reachable.follows thread member).every ?_
    rw [isLodging]
    exact lodgeRoute_inserts headers body
  rw [finished] at every
  obtain ⟨authPubkey, lodgement, now, count, accepted, saw⟩ := every created
  obtain ⟨event, isEvent, of⟩ := lodgeRequest_event accepted
  obtain ⟨env, world, -, answer, evolved⟩ := Reachable.saw reachable member saw
  have inserted := Db.insertOffer_ok (Eq.symm answer)
  obtain ⟨row, stored, evolves⟩ := evolved.db.offers _ inserted
  refine ⟨event, isEvent, row, stored, ?_, of.asSigned_iff evolves⟩
  rw [evolves.offerId]
  exact of.offerId

section Schedules

open Sample

/-- The body of a lodging. -/
def Request.lodges : Request → Option Bytes
  | .lodgeOffer _ body => some body
  | _ => none

theorem Request.lodges_eq_some {request : Request} {body : Bytes} :
    request.lodges = some body ↔
      ∃ headers, request = .lodgeOffer headers body := by
  cases request <;> simp [lodges]

/-- The first offer asks for 1500000000 nanogrin. -/
theorem lodged_as_signed_iff_first : ∃ pool, Market.Reachable anyMove pool ∧
    ∃ row ∈ pool.state.db.offers.rows,
      row.offerId = firstOffer.event.id.toHex ∧
        AsSigned host firstOffer.event row := by
  have reached : ∃ pool, Market.Reachable anyMove pool ∧
      (pool.threads.any fun thread =>
        decide (thread.request.lodges = some firstOffer.body) &&
          thread.program.result?.any fun response =>
            decide (response.status = .created)) = true :=
    play_reaches (fun _ _ _ => true) (fun _ _ _ _ => trivial) world_initial
      lodging (by decide +kernel)
  obtain ⟨pool, reachable, lodged⟩ := reached
  obtain ⟨thread, member, lodged⟩ := List.any_eq_true.mp lodged
  rw [Bool.and_eq_true, decide_eq_true_iff] at lodged
  obtain ⟨headers, isLodging⟩ := Request.lodges_eq_some.mp lodged.1
  obtain ⟨response, answered, created⟩ :=
    (Option.any_eq_true _ _).mp lodged.2
  obtain ⟨event, isEvent, row, stored, isRow, asSigned⟩ :=
    lodged_as_signed_iff reachable member isLodging
      (result?_eq_some.mp answered) (of_decide_eq_true created)
  have isFirst : OfferEvent host firstOffer.body firstOffer.event :=
    ⟨_, _, firstOffer_acceptable.parsed, rfl, firstOffer_acceptable.event,
      firstOffer_acceptable.verified⟩
  cases isEvent.unique isFirst
  refine ⟨pool, reachable, row, stored, isRow, asSigned.mpr ?_⟩
  have price : signedPrice firstOffer.event = some 1500000000 := by
    decide +kernel
  rw [price]
  rintro price ⟨⟩
  decide

/-! An offer of `alice` for `2 ^ 63` nanogrin, and a host that knows it. -/

def dearId : String :=
  "2a52ec7994f0917331e0a10c5ba908f73d7f690ccebb20ff161d01ca6708572a"

def dearTags : List (List String) :=
  [["name", "alice"], ["domain", "floonet.example"], ["p", buyer],
    ["price", "9223372036854775808"], ["proof_address", firstAddress],
    ["expiration", toString expiration]]

def dearEvent : Event where
  id := .ofHex dearId
  pubkey := .ofHex seller
  createdAt := .ofNat start
  kind := offerKind
  tags := dearTags

def dearFields : List (String × Json) :=
  [("id", .string dearId), ("pubkey", .string seller),
    ("created_at", .number (.posInt (.ofNat start))),
    ("kind", .number (.posInt 3402)),
    ("tags", .array (dearTags.map fun tag => .array (tag.map .string))),
    ("content", .string ""), ("sig", .string
      ("eb9658e9e5ec0c032fd7de0f7229d41d3e540831c2b8944121819e3b0aa1b240" ++
        "df5a51b64ea1264687f77ef1ac15908a9667d3081cfeafe984211e526e8418bf"))]

def dearText : List Char :=
  braces [stringField ("id", dearId), stringField ("pubkey", seller),
    field "created_at" (toString start).toList, field "kind" "3402".toList,
    field "tags" (brackets (dearTags.map fun tag =>
      brackets (tag.map fun part => quoted part.toList))),
    stringField ("content", ""), stringField ("sig",
      "eb9658e9e5ec0c032fd7de0f7229d41d3e540831c2b8944121819e3b0aa1b240" ++
        "df5a51b64ea1264687f77ef1ac15908a9667d3081cfeafe984211e526e8418bf")]

def dearBody : Bytes := asciiBytes (braces [field "offer" dearText])

def dearHost : Extern :=
  { host with
    jsonFromSlice := fun bytes =>
      if bytes = dearBody then some (.object [("offer", .object dearFields)])
      else host.jsonFromSlice bytes
    eventFromJson := fun json =>
      if (json.get "id").bind Json.asStr = some dearId then some dearEvent
      else host.eventFromJson json
    eventVerify := fun event =>
      decide (event = dearEvent) || host.eventVerify event
    eventAsJson := fun event =>
      if event = dearEvent then String.ofList dearText
      else host.eventAsJson event
    sha256 := fun bytes =>
      if bytes = dearBody then (hexDecode
        "4701468331b71f219202f9d22b42db3037d9aa1fe848cc436dd838c9af4e37c2").getD
          []
      else host.sha256 bytes }

abbrev DearMarket : FloonetSystem := server dearHost config

/-- The seller registers the name. -/
def dearRegistration : DearMarket.Served where
  request := .register (signRequest dearHost config
    (.ofHex "3758b71054853f4967ecbfba8087c20e14b623f2f58f0ec14f117fea1bee51e7")
    (.ofHex seller) (.ofNat start) .post "/api/v1/register"
    (registerBody "alice" seller)) (registerBody "alice" seller)
  program := opened config "reg" (asI64 (UInt64.ofNat start).toNat)
    (Bytes32.ofHex
      "3758b71054853f4967ecbfba8087c20e14b623f2f58f0ec14f117fea1bee51e7").toHex
    (registering (Bytes32.ofHex seller).toHex "alice")
  serves := by
    have accepted : (registerRequest dearHost config
        (Bytes32.ofHex seller).toHex (registerBody "alice" seller)).toOption =
          some ("alice", (Bytes32.ofHex seller).toHex) := by decide +kernel
    exact register_signRequest dearHost config _ _ _
      (toOption_eq_some.mp accepted)

/-- What the server stores of the offer. -/
def dearLodgement : Lodgement where
  offerId := dearEvent.id.toHex
  eventJson := dearHost.eventAsJson dearEvent
  name := "alice"
  seller := dearEvent.pubkey.toHex
  buyer := buyer
  price := 9223372036854775808
  proofAddress := firstAddress
  expiration := expiration

theorem dearEvent_lodged : OfferEvent dearHost dearBody dearEvent := by
  have id : ((Json.object dearFields).get "id").bind Json.asStr =
      some dearId := rfl
  refine ⟨.object [("offer", .object dearFields)], .object dearFields, ?_, rfl,
    ?_, ?_⟩
  · simp only [dearHost, if_true]
  · simp only [dearHost, id, if_true]
  · simp only [dearHost, decide_true, Bool.true_or]

theorem dearEvent_accepted :
    lodgeRequest dearHost config (Bytes32.ofHex seller).toHex dearBody =
      .ok dearLodgement := by
  obtain ⟨req, offerVal, parsed, carried, decoded, verified⟩ :=
    dearEvent_lodged
  have tags : extractOfferTags dearEvent = some
      ⟨"alice", "floonet.example", buyer, "9223372036854775808", firstAddress,
        toString expiration⟩ := by
    simp [extractOfferTags, tagValue, dearEvent, dearTags]
  have lower : dearHost.cases.toLowercase buyer = buyer :=
    toLowercase_plain _ rfl (by decide)
  have price : parseU64 (trim "9223372036854775808") =
      some 9223372036854775808 := by
    decide +kernel
  have time : parseI64 (trim (toString expiration)) =
      some (expiration : Int) := by
    decide +kernel
  have normal : normalizeGrinAddress dearHost firstAddress = firstAddress :=
    normalizeGrinAddress_eq rfl (by decide)
  have decoder : dearHost.Bech32Decoder := .of_standard (fun _ => rfl) rfl
  have address : (decodeGrinAddress dearHost firstAddress).isSome = true := by
    rw [decodeGrinAddress_plain decoder (rfl : firstAddress = _) (by decide)]
    decide +kernel
  simp only [lodgeRequest, bind_eq_ok, require_eq_ok, demand_eq_ok, pure_eq_ok]
  refine ⟨_, parsed, _, carried, _, decoded, (), verified, (), rfl, (),
    BEq.rfl, _, tags, (), by decide +kernel, (), rfl, (), ?_, _, price, (), ?_,
    _, time, ?_⟩
  · rw [lower]
    exact buyer_valid
  · rw [normal]
    exact address
  · rw [normal, lower]
    rfl

/-- The seller lodges the offer. -/
def dearLodging : DearMarket.Served where
  request := .lodgeOffer (signRequest dearHost config
    (.ofHex "487a2b2acec8a15e6bede56c4437e0d046791d0eb7db7879394a08d5fd3b269b")
    (.ofHex seller) (.ofNat start) .post "/api/v1/transfer/offer" dearBody)
    dearBody
  program := opened config "transfer" (asI64 (UInt64.ofNat start).toNat)
    (Bytes32.ofHex
      "487a2b2acec8a15e6bede56c4437e0d046791d0eb7db7879394a08d5fd3b269b").toHex
    (Floonet.lodge config dearLodgement)
  serves := lodgeOffer_signRequest dearHost config _ _ _ dearEvent_accepted

/-- The offer is lodged with 201, and its stored price is negative. -/
theorem lodged_negative : ∃ pool, DearMarket.Reachable anyMove pool ∧
    (∃ thread ∈ pool.threads, ∃ headers response,
      thread.request = .lodgeOffer headers dearBody ∧
        thread.program = .done response ∧ response.status = .created) ∧
    OfferEvent dearHost dearBody dearEvent ∧
    ∀ row ∈ pool.state.db.offers.rows, row.offerId = dearEvent.id.toHex →
      ¬AsSigned dearHost dearEvent row := by
  have reached : ∃ pool, DearMarket.Reachable anyMove pool ∧
      ((pool.threads.any fun thread =>
        decide (thread.request.lodges = some dearBody) &&
          thread.program.result?.any fun response =>
            decide (response.status = .created)) &&
        pool.state.db.offers.rows.all fun row =>
          decide (row.priceNanogrin = -9223372036854775808)) = true :=
    play_reaches (fun _ _ _ => true) (fun _ _ _ _ => trivial) world_initial
      (DearMarket.alone dearRegistration 0 (node 100 100) 10 ++
        DearMarket.alone dearLodging 1 (node 100 100) 10) (by decide +kernel)
  obtain ⟨pool, reachable, outcome⟩ := reached
  rw [Bool.and_eq_true] at outcome
  obtain ⟨lodged, negative⟩ := outcome
  obtain ⟨thread, member, lodged⟩ := List.any_eq_true.mp lodged
  rw [Bool.and_eq_true, decide_eq_true_iff] at lodged
  obtain ⟨headers, isLodging⟩ := Request.lodges_eq_some.mp lodged.1
  obtain ⟨response, answered, created⟩ :=
    (Option.any_eq_true _ _).mp lodged.2
  refine ⟨pool, reachable, ⟨thread, member, headers, response, isLodging,
    result?_eq_some.mp answered, of_decide_eq_true created⟩, dearEvent_lodged,
    fun row stored _ asSigned => ?_⟩
  have isNegative := of_decide_eq_true (List.all_eq_true.mp negative row stored)
  have isSigned := asSigned.price
  rw [isNegative, Option.map_eq_some_iff] at isSigned
  obtain ⟨price, -, same⟩ := isSigned
  cases same

end Schedules

end Floonet
