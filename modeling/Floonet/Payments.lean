import Floonet.Client
import Floonet.Runs

/-!
# Payments and transfers

The unique column of the transfers is a text.  It agrees with the 33 bytes it
denotes because a claim lower-cases the text and verifies a message that
decodes it.
-/

namespace Floonet

open Concurrent System Text Validation

variable {ext : Extern} {cfg : Config}
  {permitted : Permission World Request Op Op.Ans Response}

/-! ## Kernel excesses -/

/-- A text that is the encoding of the 33 bytes it denotes. -/
structure CanonicalExcess (text : String) (bytes : Bytes) : Prop where
  decoded : hexDecode text = some bytes
  length : bytes.length = 33
  canonical : hexEncode bytes = text

theorem paymentProofMessage_excess {amount : UInt64} {excessHex : String}
    {senderPubkey message : Bytes}
    (built : paymentProofMessage amount excessHex senderPubkey =
      some message) :
    ∃ bytes, hexDecode excessHex = some bytes ∧ bytes.length = 33 := by
  unfold paymentProofMessage at built
  split at built
  · cases built
  · rename_i bytes decoded
    split at built
    · cases built
    · rename_i length
      exact ⟨bytes, decoded, Decidable.not_not.mp length⟩

theorem verifySignatures_excess {proof : ParsedPaymentProof}
    (verified : verifySignatures ext proof = true) :
    ∃ bytes, hexDecode proof.excessHex = some bytes ∧ bytes.length = 33 := by
  unfold verifySignatures at verified
  split at verified
  · cases verified
  split at verified
  · cases verified
  split at verified
  · cases verified
  rename_i message built
  exact paymentProofMessage_excess built

theorem parsePaymentProof_lower {value : Json} {proof : ParsedPaymentProof}
    (parsed : parsePaymentProof ext value = some proof) :
    ∀ c ∈ proof.excessHex.toList, isAsciiUppercase c = false := by
  simp only [parsePaymentProof, Option.bind_eq_bind,
    Option.bind_eq_some_iff] at parsed
  obtain ⟨_, -, _, -, excess, -, _, -, _, -, _, -, _, -, _, -, same⟩ := parsed
  cases same
  exact fun c member => CaseTables.toLowercase_notUpper member

theorem claimRequest_lower {body : Bytes} {offerId : String}
    {proof : ParsedPaymentProof}
    (accepted : claimRequest ext body = .ok (offerId, proof)) :
    ∀ c ∈ proof.excessHex.toList, isAsciiUppercase c = false := by
  simp only [claimRequest, bind_eq_ok, require_eq_ok, demand_eq_ok,
    pure_eq_ok] at accepted
  obtain ⟨_, _, _, _, _, _, value, _, parsed, found, same⟩ := accepted
  cases same
  exact parsePaymentProof_lower found

theorem proofGate_verified {offer : OfferRow} {payment : Payment}
    (paid : proofGate offer payment = .ok ()) : payment.verified = true := by
  simp only [proofGate, bind_eq_ok, require_eq_ok] at paid
  obtain ⟨-, verified, -⟩ := paid
  exact verified

theorem Leads.canonicalExcess {request : Request} {past : History}
    {offer : OfferRow} {excessHex : String} {kernelHeight : Option Int}
    {now : Int}
    (leads : Leads ext cfg request past
      (.db (.runClaimTxn offer excessHex kernelHeight now))) :
    ∃ bytes, CanonicalExcess excessHex bytes := by
  cases leads with
  | silent silent => cases silent
  | claim _ accepted _ _ _ _ paid =>
      obtain ⟨bytes, decoded, length⟩ :=
        verifySignatures_excess (proofGate_verified paid)
      exact ⟨bytes, decoded, length,
        hexEncode_hexDecode decoded (claimRequest_lower accepted)⟩

theorem Reachable.canonicalExcess {pool : FloonetPool}
    (reachable : (server ext cfg).Reachable permitted pool) :
    ∀ row ∈ pool.state.db.transfers.rows,
      ∃ bytes, CanonicalExcess row.kernelExcess bytes := by
  refine Reachable.induct (motive := fun pool =>
    ∀ row ∈ pool.state.db.transfers.rows,
      ∃ bytes, CanonicalExcess row.kernelExcess bytes) ?start ?step reachable
  case start =>
    intro world initial row member
    rw [initial.db] at member
    cases member
  case step =>
    intro pool label later before induction step _ row member
    by_cases old : row ∈ pool.state.db.transfers.rows
    · exact induction row old
    · obtain ⟨_, _, thread, _, offer, _, _, _, _, leads, _, rfl, _⟩ :=
        Step.claims before step old member
      exact leads.canonicalExcess

/-! ## Insertions -/

/-- The name of a stored offer moves from its seller to its buyer, which is
what the transfer records. -/
structure Sold (before after : Db) (row : TransferRow) : Prop where
  offer : ∃ offer ∈ before.offers.rows, offer.offerId = row.offerId ∧
    offer.name = row.name ∧ offer.sellerPubkey = row.sellerPubkey ∧
      offer.buyerPubkey = row.buyerPubkey
  seller : before.lookup row.name = some row.sellerPubkey
  buyer : after.lookup row.name = some row.buyerPubkey

theorem Step.sold {pool later : FloonetPool}
    {label : Label World Request Op Op.Ans}
    (reachable : (server ext cfg).Reachable permitted pool)
    (step : (server ext cfg).Step pool label later) {row : TransferRow}
    (new : row ∉ pool.state.db.transfers.rows)
    (member : row ∈ later.state.db.transfers.rows) :
    Sold pool.state.db later.state.db row := by
  obtain ⟨_, _, _, _, offer, _, _, _, _, _, claimed, rfl, current,
    currentMember, evolves⟩ := Step.claims reachable step new member
  refine ⟨⟨current, currentMember, evolves.offerId, evolves.name,
    evolves.sellerPubkey, evolves.buyerPubkey⟩, claimed.owned, ?_⟩
  exact (claimed.reassigned offer.name).trans (if_pos rfl)

theorem Reachable.inserted {pool : FloonetPool}
    (reachable : (server ext cfg).Reachable permitted pool) :
    ∀ row ∈ pool.state.db.transfers.rows, ∃ before label after,
      (server ext cfg).Reachable permitted before ∧
        (server ext cfg).Step before label after ∧
        (server ext cfg).Steps permitted after pool ∧
        row ∉ before.state.db.transfers.rows ∧
        row ∈ after.state.db.transfers.rows := by
  refine Reachable.induct (motive := fun pool =>
    ∀ row ∈ pool.state.db.transfers.rows, ∃ before label after,
      (server ext cfg).Reachable permitted before ∧
        (server ext cfg).Step before label after ∧
        (server ext cfg).Steps permitted after pool ∧
        row ∉ before.state.db.transfers.rows ∧
        row ∈ after.state.db.transfers.rows) ?start ?step reachable
  case start =>
    intro world initial row member
    rw [initial.db] at member
    cases member
  case step =>
    intro pool label later reachable induction step allowed row member
    by_cases old : row ∈ pool.state.db.transfers.rows
    · obtain ⟨before, label', after, start, first, rest, new, inserted⟩ :=
        induction row old
      exact ⟨before, label', after, start, first, rest.tail step allowed, new,
        inserted⟩
    · exact ⟨pool, label, later, reachable, step, .refl later, old, member⟩

/-! ## One payment, one name -/

/-- No two transfers share an offer or the bytes of a payment, and each was
inserted as its name moved from the seller to the buyer. -/
theorem payments_used_once {pool : FloonetPool}
    (reachable : (server ext cfg).Reachable anyMove pool) :
    (pool.state.db.transfers.rows.Pairwise fun left right =>
      left.offerId ≠ right.offerId ∧
        hexDecode left.kernelExcess ≠ hexDecode right.kernelExcess) ∧
    ∀ row ∈ pool.state.db.transfers.rows,
      (∃ bytes, hexDecode row.kernelExcess = some bytes ∧
        bytes.length = 33) ∧
      ∃ before label after, (server ext cfg).Reachable anyMove before ∧
        (server ext cfg).Step before label after ∧
        (server ext cfg).Steps anyMove after pool ∧
        row ∉ before.state.db.transfers.rows ∧
        row ∈ after.state.db.transfers.rows ∧
        Sold before.state.db after.state.db row := by
  have canonical := Reachable.canonicalExcess reachable
  constructor
  · apply pool.state.db.transfers.compatible.imp_of_mem
    intro left right leftMember rightMember compatible
    refine ⟨compatible.1, fun sameBytes => ?_⟩
    obtain ⟨leftBytes, leftCanonical⟩ := canonical left leftMember
    obtain ⟨rightBytes, rightCanonical⟩ := canonical right rightMember
    rw [leftCanonical.decoded, rightCanonical.decoded] at sameBytes
    cases sameBytes
    have sameText : left.kernelExcess = right.kernelExcess :=
      leftCanonical.canonical.symm.trans rightCanonical.canonical
    exact compatible.2 left.kernelExcess rfl (congrArg some sameText.symm)
  · intro row member
    obtain ⟨bytes, excess⟩ := canonical row member
    refine ⟨⟨bytes, excess.decoded, excess.length⟩, ?_⟩
    obtain ⟨before, label, after, start, step, rest, new, inserted⟩ :=
      Reachable.inserted reachable row member
    exact ⟨before, label, after, start, step, rest, new, inserted,
      Step.sold start step new inserted⟩

open Sample in
theorem payments_used_once_sale : ∃ pool, Market.Reachable anyMove pool ∧
    ∃ row ∈ pool.state.db.transfers.rows, row.name = "alice" ∧
      ∃ bytes, hexDecode row.kernelExcess = some bytes ∧
        bytes.length = 33 := by
  have reached : ∃ pool, Market.Reachable anyMove pool ∧
      (pool.state.db.transfers.rows.any fun row =>
        decide (row.name = "alice")) = true :=
    play_reaches (fun _ _ _ => true) (fun _ _ _ _ => trivial) world_initial
      sale (by decide +kernel)
  obtain ⟨pool, reachable, sold⟩ := reached
  obtain ⟨row, member, named⟩ := List.any_eq_true.mp sold
  exact ⟨pool, reachable, row, member, of_decide_eq_true named,
    ((payments_used_once reachable).2 row member).1⟩

end Floonet
