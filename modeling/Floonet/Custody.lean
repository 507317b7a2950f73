import Floonet.Authenticity
import Floonet.ClaimOutcome
import Floonet.LodgedOffers

/-!
# The custody of names

Every change of an owner, every offer and every transfer goes back to requests
that the keys concerned have signed, over any number of lives of the process
and any interleaving in each of them.
-/

namespace Floonet

open Concurrent MachineInt Program System Text Validation

variable {ext : Extern} {cfg : Config}
  {permitted : Permission World Request Op Op.Ans Response}
  {pool later : FloonetPool} {thread : FloonetThread}
  {label : Label World Request Op Op.Ans}

/-! ## Offers -/

/-- A request that lodges the terms of an event, signed by its seller. -/
structure OfferedBy (ext : Extern) (cfg : Config) (request : Request)
    (past : History) (event : Event) (offer : OfferRow) : Prop where
  signed : request.SignedBy ext cfg past offer.sellerPubkey
  carried : ∃ headers body, request = .lodgeOffer headers body ∧
    OfferEvent ext body event
  kind : event.kind = offerKind
  seller : event.pubkey.toHex = offer.sellerPubkey
  domain : tagValue event.tags "domain" = some cfg.domain
  owned : past.Saw (.db (.lookup offer.name)) (some offer.sellerPubkey)
  lodged : ∃ (lodgement : Lodgement) (now : Int), lodgement.Of ext event ∧
    past.Saw (.db (.insertOffer (lodgement.row now))) (.ok 1) ∧
    (lodgement.row now).Evolves offer

theorem OfferedBy.evolves {request : Request} {past more : History}
    {event : Event} {offer current : OfferRow}
    (offered : OfferedBy ext cfg request past event offer)
    (extended : past ⊆ more) (evolved : offer.Evolves current) :
    OfferedBy ext cfg request more event current := by
  obtain ⟨signed, carried, kind, seller, domain, owned, lodgement, now, of,
    inserted, evolves⟩ := offered
  rw [← evolved.sellerPubkey] at signed seller owned
  rw [← evolved.name] at owned
  exact ⟨signed.subset extended, carried, kind, seller, domain,
    extended owned, lodgement, now, of, extended inserted,
    evolves.trans evolved⟩

theorem lodgeRequest_offer {authPubkey : String} {body : Bytes}
    {lodgement : Lodgement}
    (accepted : lodgeRequest ext cfg authPubkey body = .ok lodgement) :
    ∃ event, OfferEvent ext body event ∧ lodgement.Of ext event ∧
      event.kind = offerKind ∧ event.pubkey.toHex = authPubkey ∧
      lodgement.seller = authPubkey ∧
      tagValue event.tags "domain" = some cfg.domain := by
  obtain ⟨event, isEvent, of⟩ := lodgeRequest_event accepted
  simp only [lodgeRequest, bind_eq_ok, require_eq_ok, demand_eq_ok, pure_eq_ok]
    at accepted
  obtain ⟨req, parsed, offerVal, carried, event', isEvent', -, verified, -,
    kind, -, seller, tags, extracted, -, -, -, domain, -, -, _, -, -, -, _, -,
    rfl⟩ := accepted
  have same : event = event' :=
    isEvent.unique ⟨req, offerVal, parsed, carried, isEvent', verified⟩
  subst same
  obtain ⟨-, domained, -⟩ := extractOfferTags_eq_some.mp extracted
  rw [beq_iff_eq] at kind seller domain
  exact ⟨event, isEvent, of, kind, seller, seller, by rw [domained, domain]⟩

/-- An insertion that stores a new row has answered so. -/
theorem Effect.inserted {now : Int} {before after : Db} {row : OfferRow}
    {answer : Except SqlError Nat}
    (effect : Effect now before after (.db (.insertOffer row)) answer)
    (stored : row ∈ after.offers.rows) (absent : row ∉ before.offers.rows) :
    answer = .ok 1 := by
  cases effect with
  | kept _ same =>
      rw [same.offers] at stored
      exact absurd stored absent
  | lodged => rfl

theorem OfferedBy.of_leads {request : Request} {past : History}
    {row : OfferRow} (leads : Leads ext cfg request past (.db (.insertOffer row)))
    (signed : ∀ pubkey, request.signer = some pubkey →
      request.SignedBy ext cfg past pubkey) :
    ∃ event, OfferedBy ext cfg request
      (past ++ [⟨.db (.insertOffer row), .ok 1⟩]) event row := by
  have more : past ⊆ past ++ [⟨.db (.insertOffer row), .ok 1⟩] :=
    List.subset_append_left past _
  cases leads with
  | silent silent => cases silent
  | @lodge headers body _ authPubkey lodgement now carries accepted clock _
      owner _ _ _ =>
      obtain ⟨event, isEvent, of, kind, seller, sells, domain⟩ :=
        lodgeRequest_offer accepted
      have isSigned := (signed authPubkey carries).subset more
      rw [← sells] at isSigned seller
      exact ⟨event, isSigned, ⟨headers, body, rfl, isEvent⟩, kind, seller,
        domain, more owner, lodgement, now, of, past.saw_last _ _, .refl _⟩

theorem Thread.events_subset {thread thread' : FloonetThread}
    (more : thread.past <+: thread'.past) : thread.events ⊆ thread'.events :=
  (more.map Taken.toEvent).subset

/-- Only the expiry of an offer is written for requests that nobody signs. -/
theorem Leads.verifies {request : Request} {past : History} {op : Op}
    (leads : Leads ext cfg request past op) (loud : op.silent = false) :
    (∃ verification, request.verification ext = some verification) ∨
      ∃ offerId endHeight now,
        op = .db (.markOfferDead offerId .expired endHeight now) := by
  cases leads with
  | silent silent =>
      rw [silent] at loud
      cases loud
  | register | unregister | lodge | revoke | revise | claim =>
      exact .inl ⟨_, rfl⟩
  | expire => exact .inr ⟨_, _, _, rfl⟩

namespace Durable

theorem writes_signed (reachable : (durable ext cfg).Reachable permitted pool)
    (member : thread ∈ pool.threads) {op : Op}
    {next : op.Ans → Handler Response}
    (pending : thread.program = .step op next) (loud : op.silent = false)
    (notExpiry : ∀ offerId endHeight now,
      op ≠ .db (.markOfferDead offerId .expired endHeight now)) :
    ∀ pubkey, thread.request.signer = some pubkey →
      thread.request.SignedBy ext cfg thread.events pubkey := by
  rcases (leads reachable member pending).verifies loud with
    ⟨verification, verifies⟩ | ⟨offerId, endHeight, now, same⟩
  · exact fun pubkey => signed reachable member pending loud verifies
  · exact absurd same (notExpiry _ _ _)

theorem offers_signed
    (reachable : (durable ext cfg).Reachable permitted pool) :
    ∀ offer ∈ pool.state.db.offers.rows, ∃ thread ∈ pool.threads, ∃ event,
      OfferedBy ext cfg thread.request thread.events event offer := by
  refine Reachable.induct (motive := fun pool =>
    ∀ offer ∈ pool.state.db.offers.rows, ∃ thread ∈ pool.threads, ∃ event,
      OfferedBy ext cfg thread.request thread.events event offer)
    ?start ?step reachable
  case start =>
    intro world initial offer member
    rw [initial.db] at member
    cases member
  case step =>
    intro pool label later before induction move allowed offer member
    -- A row that was there before keeps its thread.
    have kept : ∀ old ∈ pool.state.db.offers.rows, old.Evolves offer →
        ∃ thread ∈ later.threads, ∃ event,
          OfferedBy ext cfg thread.request thread.events event offer := by
      intro old oldMember evolves
      obtain ⟨thread, threadMember, event, offered⟩ := induction old oldMember
      obtain ⟨thread', member', same, more⟩ := move.continues threadMember
      refine ⟨thread', member', event, ?_⟩
      rw [same]
      exact offered.evolves (Thread.events_subset more) evolves
    cases move with
    | arrive => exact kept offer member (.refl offer)
    | tick incident =>
        have same : ((durable ext cfg).tick incident pool.state).db =
            pool.state.db := World.meets_db incident pool.state
        rw [same] at member
        exact kept offer member (.refl offer)
    | @act index thread op next env found pending =>
        have effect := op.exec_effect env pool.state
        rcases effect.offer_origin member with
          ⟨old, oldMember, evolves⟩ | ⟨rfl, fresh⟩
        · exact kept old oldMember evolves
        · have threadMember := List.mem_of_getElem? found
          have leads := Durable.leads before threadMember pending
          have answered : (Op.exec env (.db (.insertOffer offer))
              pool.state).1 = .ok 1 :=
            effect.inserted member fun old => fresh offer old rfl
          obtain ⟨event, offered⟩ := OfferedBy.of_leads leads
            (writes_signed before threadMember pending rfl nofun)
          have bound := (List.getElem?_eq_some_iff.mp found).1
          refine ⟨_, List.mem_of_getElem? (List.getElem?_set_self bound),
            event, ?_⟩
          rw [Thread.advance_request, Thread.advance_events]
          have isEvent : ((durable ext cfg).taken env
              (.db (.insertOffer offer)) pool.state).toEvent =
                ⟨.db (.insertOffer offer), .ok 1⟩ :=
            congrArg (Concurrent.Event.mk (Op.db (.insertOffer offer))) answered
          rw [isEvent]
          exact offered

end Durable

/-! ## Payments -/

/-- A request of the buyer that pays for a transfer.  It read the offer as
`offer`, dead or alive, before its transaction. -/
structure PaidBy (ext : Extern) (cfg : Config) (request : Request)
    (past : History) (proof : ParsedPaymentProof) (offer : OfferRow)
    (transfer : TransferRow) : Prop where
  signed : request.SignedBy ext cfg past transfer.buyerPubkey
  carried : ∃ headers body offerId, request = .claim headers body ∧
    claimRequest ext body = .ok (offerId, proof) ∧
    past.SawOffer offerId offer
  verified : verifySignatures ext proof = true
  recipient : normalizeGrinAddress ext proof.recipientAddress =
    offer.proofAddress
  amount : (proof.amount.toNat : Int) = transfer.priceNanogrin
  confirmed : ∃ kernel, past.Saw (.kernel transfer.kernelExcess) (.ok kernel) ∧
    kernel.found = true ∧ cfg.transferMinConf ≤ kernel.confirmations.toNat ∧
    transfer.kernelHeight = kernel.height.map fun height => asI64 height.toNat
  inTime : ∃ deadEndHeight,
    deathGate cfg offer transfer.claimedAt = .ok deadEndHeight ∧
    settledInTime deadEndHeight transfer.kernelHeight = true
  committed : past.Saw (.db (.runClaimTxn offer transfer.kernelExcess
    transfer.kernelHeight transfer.claimedAt)) (.ok ())
  row : transfer = claimedTransfer offer proof.excessHex transfer.kernelHeight
    transfer.claimedAt

theorem PaidBy.subset {request : Request} {past more : History}
    {proof : ParsedPaymentProof} {offer : OfferRow} {transfer : TransferRow}
    (paid : PaidBy ext cfg request past proof offer transfer)
    (extended : past ⊆ more) :
    PaidBy ext cfg request more proof offer transfer where
  signed := paid.signed.subset extended
  carried := by
    obtain ⟨headers, body, offerId, isClaim, accepted, seen⟩ := paid.carried
    refine ⟨headers, body, offerId, isClaim, accepted, ?_⟩
    rcases seen with once | ⟨first, sawFirst, again⟩
    · exact .inl (extended once)
    · exact .inr ⟨first, extended sawFirst, extended again⟩
  verified := paid.verified
  recipient := paid.recipient
  amount := paid.amount
  confirmed := by
    obtain ⟨kernel, answered, found⟩ := paid.confirmed
    exact ⟨kernel, extended answered, found⟩
  inTime := paid.inTime
  committed := extended paid.committed
  row := paid.row

theorem kernelGate_ok {offer : OfferRow} {deadEndHeight kernelHeight : Option Int}
    {kernel : Except String KernelResult}
    (passed : kernelGate cfg offer deadEndHeight kernel = .ok kernelHeight) :
    ∃ result, kernel = .ok result ∧ result.found = true ∧
      cfg.transferMinConf ≤ result.confirmations.toNat ∧
      kernelHeight = result.height.map (fun height => asI64 height.toNat) ∧
      settledInTime deadEndHeight kernelHeight = true := by
  simp only [kernelGate, bind_eq_ok, demand_eq_ok, require_eq_ok, pure_eq_ok,
    Bool.and_eq_true, decide_eq_true_iff] at passed
  obtain ⟨result, answered, -, ⟨found, deep⟩, -, settles, rfl⟩ := passed
  exact ⟨result, Validation.toOption_eq_some.mp answered, found, deep, rfl,
    settles⟩

theorem PaidBy.of_leads {request : Request} {past : History} {offer : OfferRow}
    {excessHex : String} {kernelHeight : Option Int} {now : Int}
    (leads : Leads ext cfg request past
      (.db (.runClaimTxn offer excessHex kernelHeight now)))
    (signed : ∀ pubkey, request.signer = some pubkey →
      request.SignedBy ext cfg past pubkey) :
    (∃ offerId, past.SawOffer offerId offer) ∧ ∃ proof, PaidBy ext cfg request
      (past ++ [⟨.db (.runClaimTxn offer excessHex kernelHeight now), .ok ()⟩])
      proof offer (claimedTransfer offer excessHex kernelHeight now) := by
  have more := List.subset_append_left past
    [⟨.db (.runClaimTxn offer excessHex kernelHeight now), .ok ()⟩]
  cases leads with
  | silent silent => cases silent
  | @claim headers body _ offerId proof _ _ deadEndHeight _ kernel carries
      accepted seen _ _ inWindow paid answered settled =>
      obtain ⟨verified, recipient, -, amount⟩ := proofGate_eq_ok.mp paid
      obtain ⟨result, rfl, found, deep, height, settles⟩ :=
        kernelGate_ok settled
      exact ⟨⟨offerId, seen⟩, proof, {
        signed := (signed _ carries).subset more
        carried := ⟨headers, body, offerId, rfl, accepted, seen.append _⟩
        verified := verified
        recipient := recipient
        amount := amount
        confirmed := ⟨result, more answered, found, deep, height⟩
        inTime := ⟨deadEndHeight, inWindow, settles⟩
        committed := past.saw_last _ _
        row := rfl }⟩

theorem Effect.committed {now : Int} {before after : Db} {offer : OfferRow}
    {excessHex : String} {kernelHeight : Option Int} {claimedAt : Int}
    {answer : Except TxErr Unit}
    (effect : Effect now before after
      (.db (.runClaimTxn offer excessHex kernelHeight claimedAt)) answer)
    (changed : after.transfers ≠ before.transfers) : answer = .ok () := by
  cases effect with
  | kept _ same => exact absurd same.transfers changed
  | claimed => rfl

theorem Db.Claimed.new_transfer {before after : Db} {offer : OfferRow}
    {excessHex : String} {kernelHeight : Option Int} {now : Int}
    {transfer : TransferRow}
    (claimed : before.Claimed after offer excessHex kernelHeight now)
    (old : transfer ∉ before.transfers.rows)
    (member : transfer ∈ after.transfers.rows) :
    transfer = claimedTransfer offer excessHex kernelHeight now := by
  rw [claimed.transfers, List.mem_append, List.mem_singleton] at member
  exact member.resolve_left old

theorem parseU64_lt {text : String} {value : Nat}
    (parsed : parseU64 text = some value) : value < 2 ^ 64 := by
  unfold parseU64 at parsed
  exact of_decide_eq_true (Option.filter_eq_some_iff.mp parsed).2

/-- Only a price that fits is stored as a number that can be paid. -/
theorem Lodgement.Of.asSigned_of_nonneg {event : Event} {lodgement : Lodgement}
    (of : lodgement.Of ext event) {now : Int} {row : OfferRow}
    (evolves : (lodgement.row now).Evolves row)
    (nonneg : 0 ≤ row.priceNanogrin) : AsSigned ext event row := by
  refine (of.asSigned_iff evolves).mpr fun price isPrice => ?_
  have stored : row.priceNanogrin = asI64 price := by
    rw [of.price] at isPrice
    cases isPrice
    rw [evolves.terms]
    rfl
  obtain ⟨text, -, parsed⟩ := Option.bind_eq_some_iff.mp isPrice
  have bound := parseU64_lt parsed
  rw [stored] at nonneg
  unfold asI64 at nonneg
  split at nonneg <;> omega

namespace Durable

theorem transfers_paid
    (reachable : (durable ext cfg).Reachable permitted pool) :
    ∀ transfer ∈ pool.state.db.transfers.rows, ∃ thread ∈ pool.threads,
      ∃ proof read, PaidBy ext cfg thread.request thread.events proof read
          transfer ∧
        ∃ offer ∈ pool.state.db.offers.rows, read.Evolves offer := by
  refine Reachable.induct (motive := fun pool =>
    ∀ transfer ∈ pool.state.db.transfers.rows, ∃ thread ∈ pool.threads,
      ∃ proof read, PaidBy ext cfg thread.request thread.events proof read
          transfer ∧
        ∃ offer ∈ pool.state.db.offers.rows, read.Evolves offer)
    ?start ?step reachable
  case start =>
    intro world initial transfer member
    rw [initial.db] at member
    cases member
  case step =>
    intro pool label later before induction move allowed transfer member
    have evolved := Durable.evolution.step move
    -- A transfer that was there before keeps its thread.
    have kept : transfer ∈ pool.state.db.transfers.rows →
        ∃ thread ∈ later.threads, ∃ proof read,
          PaidBy ext cfg thread.request thread.events proof read transfer ∧
            ∃ offer ∈ later.state.db.offers.rows, read.Evolves offer := by
      intro old
      obtain ⟨thread, threadMember, proof, read, paid, offer, stored, evolves⟩ :=
        induction transfer old
      obtain ⟨thread', member', same, more⟩ := move.continues threadMember
      obtain ⟨current, currentStored, onward⟩ := evolved.offers offer stored
      refine ⟨thread', member', proof, read, ?_, current, currentStored,
        evolves.trans onward⟩
      rw [same]
      exact paid.subset (Thread.events_subset more)
    cases move with
    | arrive => exact kept member
    | tick incident =>
        have same : ((durable ext cfg).tick incident pool.state).db =
            pool.state.db := World.meets_db incident pool.state
        rw [same] at member
        exact kept member
    | @act index thread op next env found pending =>
        by_cases old : transfer ∈ pool.state.db.transfers.rows
        · exact kept old
        have effect := op.exec_effect env pool.state
        rcases effect.transfers with same |
          ⟨offer, excessHex, kernelHeight, now, rfl, claimed⟩
        · have unchanged : ((durable ext cfg).exec env op
              pool.state).2.db.transfers = pool.state.db.transfers := same
          rw [unchanged] at member
          exact absurd member old
        · have threadMember := List.mem_of_getElem? found
          have leads := Durable.leads before threadMember pending
          have answered : (Op.exec env (.db (.runClaimTxn offer excessHex
              kernelHeight now)) pool.state).1 = .ok () :=
            effect.committed fun same => old (same ▸ member)
          obtain ⟨⟨offerId, seen⟩, proof, paid⟩ := PaidBy.of_leads leads
            (writes_signed before threadMember pending rfl nofun)
          have isNew := claimed.new_transfer old member
          have isEvent : ((durable ext cfg).taken env (.db (.runClaimTxn offer
              excessHex kernelHeight now)) pool.state).toEvent =
                ⟨.db (.runClaimTxn offer excessHex kernelHeight now),
                  .ok ()⟩ :=
            congrArg (Concurrent.Event.mk (Op.db (.runClaimTxn offer excessHex
              kernelHeight now))) answered
          obtain ⟨stored, storedMember, evolves⟩ :=
            Durable.sawOffer before threadMember seen
          obtain ⟨current, currentMember, onward⟩ :=
            evolved.offers stored storedMember
          have bound := (List.getElem?_eq_some_iff.mp found).1
          refine ⟨_, List.mem_of_getElem? (List.getElem?_set_self bound),
            proof, offer, ?_, current, currentMember, evolves.trans onward⟩
          rw [Thread.advance_request, Thread.advance_events, isEvent, isNew]
          exact paid

end Durable

/-! ## Sales -/

/-- The transfer has the terms of the offer. -/
structure TransferRow.Settles (transfer : TransferRow) (offer : OfferRow) :
    Prop where
  offerId : transfer.offerId = offer.offerId
  name : transfer.name = offer.name
  sellerPubkey : transfer.sellerPubkey = offer.sellerPubkey
  buyerPubkey : transfer.buyerPubkey = offer.buyerPubkey
  priceNanogrin : transfer.priceNanogrin = offer.priceNanogrin

theorem PaidBy.settles {request : Request} {past : History}
    {proof : ParsedPaymentProof} {read offer : OfferRow} {transfer : TransferRow}
    (paid : PaidBy ext cfg request past proof read transfer)
    (evolves : read.Evolves offer) : transfer.Settles offer := by
  have row := paid.row
  have terms := evolves.terms
  constructor <;> rw [row, terms] <;> rfl

theorem PaidBy.nonneg {request : Request} {past : History}
    {proof : ParsedPaymentProof} {read : OfferRow} {transfer : TransferRow}
    (paid : PaidBy ext cfg request past proof read transfer) :
    0 ≤ transfer.priceNanogrin := by
  rw [← paid.amount]
  exact Int.natCast_nonneg _

/-- A sale goes back to an offer that its seller has signed, with exactly these
terms, and to a claim that its buyer has signed, with a proof that pays the
price to the address of the offer in a kernel that the node has confirmed. -/
theorem transfers_backed
    (reachable : (durable ext cfg).Reachable permitted pool)
    {transfer : TransferRow}
    (member : transfer ∈ pool.state.db.transfers.rows) :
    ∃ buyer ∈ pool.threads, ∃ seller ∈ pool.threads, ∃ proof read event,
      ∃ offer ∈ pool.state.db.offers.rows,
        transfer.Settles offer ∧ read.Evolves offer ∧
        PaidBy ext cfg buyer.request buyer.events proof read transfer ∧
        OfferedBy ext cfg seller.request seller.events event offer ∧
        AsSigned ext event offer := by
  obtain ⟨buyer, buyerMember, proof, read, paid, offer, stored, evolves⟩ :=
    Durable.transfers_paid reachable transfer member
  obtain ⟨seller, sellerMember, event, offered⟩ :=
    Durable.offers_signed reachable offer stored
  have settles := paid.settles evolves
  obtain ⟨lodgement, now, of, -, lodged⟩ := offered.lodged
  have nonneg : 0 ≤ offer.priceNanogrin := by
    rw [← settles.priceNanogrin]
    exact paid.nonneg
  exact ⟨buyer, buyerMember, seller, sellerMember, proof, read, event, offer,
    stored, settles, evolves, paid, offered, of.asSigned_of_nonneg lodged nonneg⟩

section Schedules

open Sample

theorem transfers_backed_sale :
    ∃ pool, (durable host config).Reachable anyMove pool ∧
      ∃ transfer ∈ pool.state.db.transfers.rows, ∃ seller ∈ pool.threads,
        ∃ event, ∃ offer ∈ pool.state.db.offers.rows,
          transfer.Settles offer ∧
          OfferedBy host config seller.request seller.events event offer ∧
          AsSigned host event offer := by
  have reached : ∃ pool, Market.Reachable anyMove pool ∧
      pool.state.db.transfers.rows.isEmpty = false :=
    play_reaches (fun _ _ _ => true) (fun _ _ _ _ => trivial) world_initial
      sale (by decide +kernel)
  obtain ⟨pool, reachable, sold⟩ := reached
  obtain ⟨transfer, member⟩ := List.exists_mem_of_ne_nil _
    (List.isEmpty_eq_false_iff.mp sold)
  obtain ⟨-, -, seller, sellerMember, -, -, event, offer, stored, settles, -, -,
    offered, asSigned⟩ := transfers_backed (Reachable.durable reachable) member
  exact ⟨pool, Reachable.durable reachable, transfer, member, seller, sellerMember, event,
    offer, stored, settles, offered, asSigned⟩

end Schedules

/-! ## Owners -/

/-- The steps that change the owner of a name. -/
theorem Effect.owner_changes {now : Int} {before after : Db} {op : Op}
    {answer : op.Ans} (effect : Effect now before after op answer)
    {name : String} (changed : after.lookup name ≠ before.lookup name) :
    (∃ pubkey, op = .db (.insertName name pubkey) ∧
      before.lookup name = none ∧ after.lookup name = some pubkey) ∨
    (∃ owner, op = .db (.releaseName name) ∧
      before.lookup name = some owner ∧ after.lookup name = none) ∨
    ∃ offer excessHex kernelHeight claimedAt,
      op = .db (.runClaimTxn offer excessHex kernelHeight claimedAt) ∧
      before.Claimed after offer excessHex kernelHeight claimedAt ∧
      offer.name = name := by
  have sameNames : after.names ≠ before.names := by
    intro same
    rw [Db.lookup_congr same] at changed
    exact changed rfl
  have moved : ∀ {other : String} {owner : Option String},
      before.Reassigned after other owner → name = other := by
    intro other owner reassigned
    apply Classical.byContradiction
    intro different
    rw [reassigned name, if_neg different] at changed
    exact changed rfl
  cases effect with
  | kept _ same => exact absurd same.names sameNames
  | @registered _ pubkey free _ reassigned _ _ =>
      have same := moved reassigned
      subst same
      exact .inl ⟨pubkey, rfl, free, by rw [reassigned name, if_pos rfl]⟩
  | @released _ owner owned reassigned _ _ =>
      have same := moved reassigned
      subst same
      exact .inr (.inl ⟨owner, rfl, owned, by rw [reassigned name, if_pos rfl]⟩)
  | lodged _ names _ _ => exact absurd names sameNames
  | died _ _ _ names _ _ => exact absurd names sameNames
  | revised names _ _ => exact absurd names sameNames
  | claimed claimed =>
      exact .inr (.inr ⟨_, _, _, _, rfl, claimed,
        (moved claimed.reassigned).symm⟩)

/-- How a request changes the owner of a name, and who has signed it. -/
inductive Handover (ext : Extern) (cfg : Config) (pool : FloonetPool)
    (request : Request) (past : History) (name : String) :
    Option String → Option String → Prop where
  | acquired {headers : Headers} {body : Bytes} {pubkey : String}
      (registers : request = .register headers body)
      (accepted : registerRequest ext cfg pubkey body = .ok (name, pubkey))
      (signed : request.SignedBy ext cfg past pubkey) :
      Handover ext cfg pool request past name none (some pubkey)
  | released {raw : String} {headers : Headers} {pubkey owner : String}
      (unregisters : request = .unregister raw headers)
      (named : ext.cases.toLowercase raw = name)
      (signed : request.SignedBy ext cfg past pubkey)
      (owned : past.EndsWith (.db (.lookup name)) (some pubkey)) :
      Handover ext cfg pool request past name (some owner) none
  | sold {seller : FloonetThread} {event : Event} {read offer : OfferRow}
      {proof : ParsedPaymentProof} {excessHex : String}
      {kernelHeight : Option Int} {now : Int}
      (lodger : seller ∈ pool.threads)
      (offered : OfferedBy ext cfg seller.request seller.events event offer)
      (stored : offer ∈ pool.state.db.offers.rows) (named : offer.name = name)
      (evolves : read.Evolves offer)
      (paid : PaidBy ext cfg request (past ++
        [⟨.db (.runClaimTxn read excessHex kernelHeight now), .ok ()⟩]) proof
        read (claimedTransfer read excessHex kernelHeight now)) :
      Handover ext cfg pool request past name (some offer.sellerPubkey)
        (some offer.buyerPubkey)

/-- No name changes hands without a signature: whatever the interleaving and
however often the process has crashed, a key becomes the owner by its own
registration or by a sale that the seller has signed, and a name is released by
a key that has just been found to own it. -/
theorem custody_signed
    (reachable : (durable ext cfg).Reachable permitted pool)
    (step : (durable ext cfg).Step pool label later) {name : String}
    (changed : later.state.db.lookup name ≠ pool.state.db.lookup name) :
    ∃ index taken thread, label = .act index taken ∧
      pool.threads[index]? = some thread ∧
      Handover ext cfg pool thread.request thread.events name
        (pool.state.db.lookup name) (later.state.db.lookup name) := by
  cases step with
  | arrive => exact absurd rfl changed
  | tick incident =>
      have same : ((durable ext cfg).tick incident pool.state).db =
          pool.state.db := World.meets_db incident pool.state
      rw [same] at changed
      exact absurd rfl changed
  | @act index thread op next env found pending =>
      refine ⟨index, _, thread, rfl, found, ?_⟩
      have member := List.mem_of_getElem? found
      have leads := Durable.leads reachable member pending
      have effect := op.exec_effect env pool.state
      have isAfter : ((durable ext cfg).exec env op pool.state).2.db =
          (op.exec env pool.state).2.db := rfl
      rw [isAfter] at changed ⊢
      rcases effect.owner_changes changed with
        ⟨pubkey, rfl, free, owned⟩ | ⟨owner, rfl, owned, released⟩ |
        ⟨read, excessHex, kernelHeight, now, rfl, claimed, named⟩
      · have signed := Durable.writes_signed reachable member pending rfl nofun
        rw [free, owned]
        generalize thread.request = request at leads signed ⊢
        cases leads with
        | silent silent => cases silent
        | register carries accepted =>
            have same := registerRequest_signer accepted
            subst same
            exact .acquired rfl accepted (signed _ carries)
      · have signed := Durable.writes_signed reachable member pending rfl nofun
        rw [owned, released]
        generalize thread.request = request at leads signed ⊢
        cases leads with
        | silent silent => cases silent
        | unregister carries owns =>
            exact .released rfl rfl (signed _ carries) owns
      · have signed := Durable.writes_signed reachable member pending rfl nofun
        obtain ⟨⟨offerId, seen⟩, proof, paid⟩ := PaidBy.of_leads leads signed
        obtain ⟨offer, stored, evolves⟩ :=
          Durable.sawOffer reachable member seen
        obtain ⟨seller, lodger, event, offered⟩ :=
          Durable.offers_signed reachable offer stored
        have sold := claimed.reassigned name
        have owner := claimed.owned
        rw [if_pos named.symm, ← evolves.buyerPubkey] at sold
        rw [named, ← evolves.sellerPubkey] at owner
        rw [sold, owner]
        exact .sold lodger offered stored (evolves.name.trans named) evolves
          paid

section Schedules

open Sample

/-- The transaction of the sale. -/
theorem custody_signed_sale : ∃ pool label later,
    (durable host config).Step pool label later ∧
      pool.state.db.lookup "alice" = some seller ∧
      later.state.db.lookup "alice" = some buyer ∧
      ∃ thread ∈ pool.threads, Handover host config pool thread.request
        thread.events "alice" (some seller) (some buyer) := by
  have reached : ∃ pool label later, Market.Reachable anyMove pool ∧
      Market.Step pool label later ∧ anyMove pool label later ∧
        (pool.state.db.lookup "alice" = some seller ∧
          later.state.db.lookup "alice" = some buyer) :=
    play_steps_once (fun _ _ _ => true) (fun _ _ _ _ => trivial) world_initial
      (lodging ++ Market.alone claimNow 2 (node 100 100) 11)
      (.act 2 (node 100 100)) (by decide +kernel)
  obtain ⟨pool, label, later, reachable, step, -, sold, bought⟩ := reached
  have different : some buyer ≠ some seller := by decide +kernel
  obtain ⟨index, taken, thread, -, found, handover⟩ :=
    custody_signed (Reachable.durable reachable) (Step.durable step)
      (by rw [sold, bought]; exact different)
  rw [sold, bought] at handover
  exact ⟨pool, label, later, Step.durable step, sold, bought, thread,
    List.mem_of_getElem? found, handover⟩

end Schedules

end Floonet
