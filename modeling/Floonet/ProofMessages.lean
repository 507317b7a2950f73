import Floonet.Client

/-!
# What a payment message determines

The message of a payment proof is a concatenation of three fields of fixed
width.  The amount is written in base 256, and the excess has one accepted
spelling once it is folded, so the message determines all three of them.
-/

namespace Floonet

open Text

/-! ## Positional digits -/

/-- A number is determined, up to a power of the base, by as many digits. -/
theorem mod_pow_eq_of_digits {base left right : Nat} (count : Nat)
    (digits : ∀ place < count,
      left / base ^ place % base = right / base ^ place % base) :
    left % base ^ count = right % base ^ count := by
  induction count with
  | zero => rw [Nat.pow_zero, Nat.mod_one, Nat.mod_one]
  | succ count induction =>
      have lower := induction fun place small =>
        digits place (Nat.lt_succ_of_lt small)
      have top := digits count (Nat.lt_succ_self count)
      rw [Nat.mod_pow_succ, Nat.mod_pow_succ, lower, top]

theorem length_amountToBeU64 (amount : UInt64) :
    (amountToBeU64 amount).length = 8 := by
  rw [amountToBeU64, List.length_map, List.length_range]

theorem amountToBeU64_injective {left right : UInt64}
    (same : amountToBeU64 left = amountToBeU64 right) : left = right := by
  have digits : ∀ place < 8,
      left.toNat / 256 ^ place % 256 = right.toNat / 256 ^ place % 256 := by
    intro place small
    have bytes := List.map_inj_left.mp same (7 - place)
      (List.mem_range.mpr (by omega))
    have values := congrArg UInt8.toNat bytes
    have placed : 7 - (7 - place) = place := by omega
    rw [placed, UInt8.toNat_ofNat', UInt8.toNat_ofNat'] at values
    have wide : 2 ^ 8 = 256 := rfl
    rwa [wide, Nat.mod_mod, Nat.mod_mod] at values
  have values := mod_pow_eq_of_digits 8 digits
  have range : 256 ^ 8 = 2 ^ 64 := rfl
  rw [range, Nat.mod_eq_of_lt left.toNat_lt, Nat.mod_eq_of_lt right.toNat_lt]
    at values
  exact UInt64.toNat_inj.mp values

/-! ## The three fields -/

theorem paymentProofMessage_eq_some {amount : UInt64} {excessHex : String}
    {senderPubkey message : Bytes}
    (built : paymentProofMessage amount excessHex senderPubkey =
      some message) :
    ∃ excess, hexDecode excessHex = some excess ∧ excess.length = 33 ∧
      message = amountToBeU64 amount ++ excess ++ senderPubkey := by
  unfold paymentProofMessage at built
  split at built
  · cases built
  · rename_i excess decoded
    split at built
    · cases built
    · rename_i length
      exact ⟨excess, decoded, Decidable.not_not.mp length,
        (Option.some.inj built).symm⟩

variable (ext : Extern)

theorem length_of_decodeGrinAddress {address : String} {key : Bytes}
    (decoded : decodeGrinAddress ext address = some key) : key.length = 32 := by
  simp only [decodeGrinAddress] at decoded
  split at decoded
  · cases decoded
  · split at decoded
    · cases decoded
    · exact eq_of_beq (Option.filter_eq_some_iff.mp decoded).2

theorem parsePaymentProof_excessHex {value : Json} {proof : ParsedPaymentProof}
    (parsed : parsePaymentProof ext value = some proof) :
    ∃ excess, proof.excessHex = ext.cases.toLowercase excess := by
  simp only [parsePaymentProof, Option.bind_eq_bind,
    Option.bind_eq_some_iff] at parsed
  obtain ⟨_, -, _, -, excess, -, _, -, _, -, _, -, _, -, _, -, built⟩ := parsed
  cases built
  exact ⟨excess, rfl⟩

/-- Folded hexadecimal texts of one value are one text. -/
theorem folded_hex_injective {tables : CaseTables} {left right : String}
    {bytes : List UInt8}
    (decodedLeft : hexDecode (tables.toLowercase left) = some bytes)
    (decodedRight : hexDecode (tables.toLowercase right) = some bytes) :
    tables.toLowercase left = tables.toLowercase right := by
  have encodedLeft := hexEncode_hexDecode decodedLeft
    fun _ => CaseTables.toLowercase_notUpper
  have encodedRight := hexEncode_hexDecode decodedRight
    fun _ => CaseTables.toLowercase_notUpper
  exact encodedLeft.symm.trans encodedRight

/-- Messages of fixed-width fields agree field by field. -/
theorem fields_eq_of_message_eq {left right : UInt64}
    {leftExcess rightExcess leftKey rightKey : Bytes}
    (excessWidth : leftExcess.length = rightExcess.length)
    (same : amountToBeU64 left ++ leftExcess ++ leftKey =
      amountToBeU64 right ++ rightExcess ++ rightKey) :
    left = right ∧ leftExcess = rightExcess ∧ leftKey = rightKey := by
  have amountWidth :
      (amountToBeU64 left).length = (amountToBeU64 right).length := by
    rw [length_amountToBeU64, length_amountToBeU64]
  obtain ⟨heads, keys⟩ := List.append_inj same (by
    rw [List.length_append, List.length_append, amountWidth, excessWidth])
  obtain ⟨amounts, excesses⟩ := List.append_inj heads amountWidth
  exact ⟨amountToBeU64_injective amounts, excesses, keys⟩

theorem message_determines {first second : Json}
    {left right : ParsedPaymentProof} {leftKey rightKey message : Bytes}
    (parsedLeft : parsePaymentProof ext first = some left)
    (parsedRight : parsePaymentProof ext second = some right)
    (senderLeft : decodeGrinAddress ext left.senderAddress = some leftKey)
    (builtLeft : paymentProofMessage left.amount left.excessHex leftKey =
      some message)
    (builtRight : paymentProofMessage right.amount right.excessHex rightKey =
      some message) :
    message.length = 73 ∧ left.amount = right.amount ∧
      left.excessHex = right.excessHex ∧ leftKey = rightKey := by
  obtain ⟨leftExcess, decodedLeft, widthLeft, rfl⟩ :=
    paymentProofMessage_eq_some builtLeft
  obtain ⟨rightExcess, decodedRight, widthRight, same⟩ :=
    paymentProofMessage_eq_some builtRight
  obtain ⟨amounts, excesses, keys⟩ :=
    fields_eq_of_message_eq (widthLeft.trans widthRight.symm) same
  refine ⟨?_, amounts, ?_, keys⟩
  · rw [List.length_append, List.length_append, length_amountToBeU64,
      widthLeft, length_of_decodeGrinAddress ext senderLeft]
  · obtain ⟨leftText, foldedLeft⟩ := parsePaymentProof_excessHex ext parsedLeft
    obtain ⟨rightText, foldedRight⟩ :=
      parsePaymentProof_excessHex ext parsedRight
    rw [foldedLeft] at decodedLeft
    rw [foldedRight, ← excesses] at decodedRight
    rw [foldedLeft, foldedRight]
    exact folded_hex_injective decodedLeft decodedRight

/-! ## Signatures -/

/-- What one signature was given for: no key accepts it for two messages. -/
def SignsOneMessage (sig : Bytes) : Prop :=
  ∀ key message, verifyEd25519 ext key message sig = true →
    ∀ key' message', verifyEd25519 ext key' message' sig = true →
      message = message'

theorem verifySignatures_eq_true {proof : ParsedPaymentProof}
    {senderPub : Bytes} (verified : verifySignatures ext proof = true)
    (sender : decodeGrinAddress ext proof.senderAddress = some senderPub) :
    ∃ message recipientPub recipientSig senderSig,
      paymentProofMessage proof.amount proof.excessHex senderPub =
        some message ∧
      hexDecode proof.recipientSigHex = some recipientSig ∧
      hexDecode proof.senderSigHex = some senderSig ∧
      verifyEd25519 ext recipientPub message recipientSig = true ∧
      verifyEd25519 ext senderPub message senderSig = true := by
  unfold verifySignatures at verified
  rw [sender] at verified
  split at verified
  · cases verified
  rename_i recipientPub _
  split at verified
  · cases verified
  rename_i senderPub decoded
  cases decoded
  split at verified
  · cases verified
  rename_i message built
  split at verified
  · cases verified
  rename_i recipientSig byRecipient
  split at verified
  · cases verified
  rename_i senderSig bySender
  obtain ⟨recipientAccepts, senderAccepts⟩ := Bool.and_eq_true_iff.mp verified
  exact ⟨message, recipientPub, recipientSig, senderSig, built, byRecipient,
    bySender, recipientAccepts, senderAccepts⟩

namespace Sample

def firstProofJson : Json :=
  .object (proofFields.map fun entry => (entry.1, .string entry.2))

/-- The first proof with its amount as a number and its excess in upper
case. -/
def shoutedProofJson : Json :=
  .object [("amount", .number (.posInt 1500000000)),
    ("excess", .string
      "0879BE667EF9DCBBAC55A06295CE870B07029BFCDB2DCE28D959F2815B16F81798"),
    ("recipient_address", .string firstAddress),
    ("recipient_sig", .string recipientSignature),
    ("sender_address", .string senderAddress),
    ("sender_sig", .string senderSignature)]

theorem shoutedProof_parsed :
    parsePaymentProof host shoutedProofJson = some firstProof := by
  have parsed : parsePaymentProof host shoutedProofJson = some { firstProof with
      excessHex := host.cases.toLowercase
        "0879BE667EF9DCBBAC55A06295CE870B07029BFCDB2DCE28D959F2815B16F81798"
      recipientSigHex := host.cases.toLowercase recipientSignature
      senderSigHex := host.cases.toLowercase senderSignature } := rfl
  have lowerExcess : host.cases.toLowercase
      "0879BE667EF9DCBBAC55A06295CE870B07029BFCDB2DCE28D959F2815B16F81798" =
      excess := by
    rw [CaseTables.toLowercase, toList_eq rfl]
    rfl
  obtain ⟨lowerRecipient, lowerSender⟩ := signatures_lower
  rw [parsed, lowerExcess, lowerRecipient, lowerSender]
  rfl

theorem signsOneMessage (sig : Bytes) : SignsOneMessage host sig := by
  have forMessage : ∀ key message, verifyEd25519 host key message sig = true →
      message = paymentMessage := by
    intro key message accepted
    have member := List.contains_iff_mem.mp (Bool.and_eq_true_iff.mp accepted).2
    simp only [signatures, List.mem_cons, List.not_mem_nil, or_false,
      Prod.mk.injEq] at member
    rcases member with ⟨-, same, -⟩ | ⟨-, same, -⟩ <;> exact same
  intro key message accepted key' message' accepted'
  exact (forMessage key message accepted).trans
    (forMessage key' message' accepted').symm

end Sample

end Floonet
