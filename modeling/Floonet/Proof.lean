import Floonet.Wire

/-!
# Grin payment proofs

Parsing of the six-field payment proof and verification of its two signatures
over the 73-byte message.
-/

namespace Floonet

open Text

variable (ext : Extern)

/-- The prefixes of addresses on the main and the test network. -/
def grinHrps : List String := ["grin", "tgrin"]

/-- Addresses are compared without white space around them and in lower case. -/
def normalizeGrinAddress (address : String) : String :=
  ext.cases.toLowercase (trim address)

/-- The 32-byte key of a slatepack address.  The checksum variant is dropped
unseen. -/
def decodeGrinAddress (address : String) : Option Bytes :=
  let norm := normalizeGrinAddress ext address
  match ext.bech32Decode norm with
  | none => none
  | some (hrp, data, _variant) =>
      if !grinHrps.contains hrp then none
      else (ext.fromBase32 data).filter fun bytes => bytes.length == 32

/-- `u64::to_be_bytes`. -/
def amountToBeU64 (amount : UInt64) : Bytes :=
  (List.range 8).map fun place =>
    UInt8.ofNat (amount.toNat / 256 ^ (7 - place) % 256)

/-- Amount, excess and sender, as a wallet signs them. -/
def paymentProofMessage (amount : UInt64) (excessHex : String)
    (senderPubkey : Bytes) : Option Bytes :=
  match hexDecode excessHex with
  | none => none
  | some excess =>
      if excess.length ≠ 33 then none
      else some (amountToBeU64 amount ++ excess ++ senderPubkey)

/-- The fields of a payment proof. -/
structure ParsedPaymentProof where
  amount : UInt64
  excessHex : String
  recipientAddress : String
  recipientSigHex : String
  senderAddress : String
  senderSigHex : String
deriving DecidableEq

def valueStr : Json → Option String
  | .string s => some s
  | _ => none

/-- A number, or its text. -/
def parseAmount : Json → Option UInt64
  | .number (.posInt n) => some n
  | .string s => (parseU64 (trim s)).map UInt64.ofNat
  | _ => none

/-- A proof with all its fields. -/
def parsePaymentProof (value : Json) : Option ParsedPaymentProof := do
  let obj ← value.asObject
  let amountRaw ← obj.lookup "amount"
  let excess ← (obj.lookup "excess").bind valueStr
  let recipientAddress ← (obj.lookup "recipient_address").bind valueStr
  let recipientSig ← (obj.lookup "recipient_sig").bind valueStr
  let senderAddress ← (obj.lookup "sender_address").bind valueStr
  let senderSig ← (obj.lookup "sender_sig").bind valueStr
  let amount ← parseAmount amountRaw
  return {
    amount
    excessHex := ext.cases.toLowercase excess
    recipientAddress
    recipientSigHex := ext.cases.toLowercase recipientSig
    senderAddress
    senderSigHex := ext.cases.toLowercase senderSig }

/-- A signature has sixty-four bytes. -/
def verifyEd25519 (pubkey message sig : Bytes) : Bool :=
  sig.length == 64 && ext.verifyingKeyVerify pubkey message sig

/-- Both signatures verify over the canonical message. -/
def verifySignatures (proof : ParsedPaymentProof) : Bool :=
  match decodeGrinAddress ext proof.recipientAddress with
  | none => false
  | some recipientPub =>
  match decodeGrinAddress ext proof.senderAddress with
  | none => false
  | some senderPub =>
  match paymentProofMessage proof.amount proof.excessHex senderPub with
  | none => false
  | some msg =>
  match hexDecode proof.recipientSigHex with
  | none => false
  | some recipientSig =>
  match hexDecode proof.senderSigHex with
  | none => false
  | some senderSig =>
      verifyEd25519 ext recipientPub msg recipientSig &&
        verifyEd25519 ext senderPub msg senderSig

end Floonet
