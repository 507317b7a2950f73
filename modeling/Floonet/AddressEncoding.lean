import Floonet.Addresses
import Floonet.Bech32.Encoding
import Floonet.Client

/-!
# Encoded slatepack addresses

The decoder of slatepack addresses against the encoder.  The decoder undoes
the encoder; apart from that it accepts the encodings whose checksum is that
of the other variant.
-/

namespace Floonet

open Text

variable {ext : Extern}

/-- The encoding half of the bech32 crate. -/
structure Bech32Encoder where
  encode : String → List (Fin 32) → Bech32.Variant → Option String
  toBase32 : Bytes → List (Fin 32)

/-- The reference encoder of the source; `none` where it would panic. -/
def grinAddressFromPubkey (encoder : Bech32Encoder) (pubkey : Bytes32)
    (hrp : String) : Option String :=
  encoder.encode hrp (encoder.toBase32 pubkey.val) .bech32

/-- The crate follows the standard, for the prefixes of Grin and for text
without upper-case letters. -/
structure Bech32Crate (ext : Extern) (encoder : Bech32Encoder) : Prop extends
    ext.Bech32Decoder where
  encode : ∀ hrp ∈ grinHrps, ∀ data, encoder.encode hrp data .bech32 =
    some (String.ofList (Bech32.encode .bech32 hrp.toList data))
  toBase32 : ∀ bytes, encoder.toBase32 bytes = Bech32.toBase32 bytes

/-- The normal form of the text encodes the key under a prefix of Grin. -/
def EncodesKey (ext : Extern) (variant : Bech32.Variant) (address : String)
    (key : Bytes32) : Prop :=
  ∃ hrp ∈ grinHrps, (normalizeGrinAddress ext address).toList =
    Bech32.encode variant hrp.toList (Bech32.toBase32 key.val)

theorem grinHrps_nonempty {hrp : String} (grin : hrp ∈ grinHrps) :
    hrp.toList ≠ [] := by
  simp only [grinHrps, List.mem_cons, List.not_mem_nil, or_false] at grin
  rcases grin with rfl | rfl
  · decide
  · decide

section Crate

variable {encoder : Bech32Encoder}

theorem decodeGrinAddress_eq_some (crate : Bech32Crate ext encoder)
    {address : String} {key : Bytes32} :
    decodeGrinAddress ext address = some key.val ↔
      ∃ variant, EncodesKey ext variant address key := by
  rw [decodeGrinAddress_parts crate.toBech32Decoder]
  constructor
  · rintro ⟨hrp, isGrin, data, variant, parts, regrouped, -⟩
    rw [Bech32.fromBase32_eq_some_iff] at regrouped
    subst regrouped
    exact ⟨variant, hrp, isGrin, Bech32.decode_canonical parts⟩
  · rintro ⟨variant, hrp, isGrin, text⟩
    exact ⟨hrp, isGrin, Bech32.toBase32 key.val, variant,
      (Bech32.decode_eq_some (grinHrps_nonempty isGrin)).mpr text,
      Bech32.fromBase32_toBase32 _, key.property⟩

theorem grinAddressFromPubkey_eq_some (crate : Bech32Crate ext encoder)
    {hrp : String} (grin : hrp ∈ grinHrps) {key : Bytes32} {text : String} :
    grinAddressFromPubkey encoder key hrp = some text ↔
      text.toList = Bech32.encode .bech32 hrp.toList
        (Bech32.toBase32 key.val) := by
  rw [grinAddressFromPubkey, crate.encode hrp grin, crate.toBase32,
    Option.some.injEq, ← String.toList_inj, String.toList_ofList, eq_comm]

/-- No text is an encoding in both variants. -/
theorem EncodesKey.variant_eq {variant variant' : Bech32.Variant}
    {address : String} {key key' : Bytes32}
    (encodes : EncodesKey ext variant address key)
    (encodes' : EncodesKey ext variant' address key') :
    variant = variant' := by
  obtain ⟨hrp, -, text⟩ := encodes
  obtain ⟨hrp', -, text'⟩ := encodes'
  exact (Bech32.encode_injective (text.symm.trans text')).1

/-- Decoding gives a key exactly for the encodings of the key under the two
prefixes, if and only if the text is not an encoding of it in the variant
`m`. -/
theorem decodes_encodings_iff (crate : Bech32Crate ext encoder)
    (address : String) (key : Bytes32) :
    (decodeGrinAddress ext address = some key.val ↔
        grinAddressFromPubkey encoder key "grin" =
            some (normalizeGrinAddress ext address) ∨
          grinAddressFromPubkey encoder key "tgrin" =
            some (normalizeGrinAddress ext address)) ↔
      ¬EncodesKey ext .bech32m address key := by
  have encoded : (grinAddressFromPubkey encoder key "grin" =
          some (normalizeGrinAddress ext address) ∨
        grinAddressFromPubkey encoder key "tgrin" =
          some (normalizeGrinAddress ext address)) ↔
      EncodesKey ext .bech32 address key := by
    rw [grinAddressFromPubkey_eq_some crate (by decide),
      grinAddressFromPubkey_eq_some crate (by decide)]
    simp [EncodesKey, grinHrps]
  rw [encoded, decodeGrinAddress_eq_some crate]
  constructor
  · intro same other
    cases other.variant_eq (same.mp ⟨.bech32m, other⟩)
  · intro none
    constructor
    · rintro ⟨variant, encodes⟩
      cases variant with
      | bech32 => exact encodes
      | bech32m => exact absurd encodes none
    · exact fun encodes => ⟨.bech32, encodes⟩

end Crate

section Samples

open Sample

/-- An encoder that follows the standard. -/
def standardEncoder : Bech32Encoder where
  encode hrp data variant :=
    some (String.ofList (Bech32.encode variant hrp.toList data))
  toBase32 := Bech32.toBase32

theorem host_crate : Bech32Crate host standardEncoder where
  toBech32Decoder := host_decoder
  encode _ _ _ := rfl
  toBase32 _ := rfl

def firstPubkey : Bytes32 := ⟨firstKey, by decide +kernel⟩

/-- The address of the first key, in upper case and between blanks. -/
def shoutedAddress : String :=
  "  GRIN16ADFSQVZKY9T042TLMFUJEQ88G8WZUHNM2NZXFD0QGDX3AC82YDQ4Z65W9 "

theorem decodes_encodings_iff_shouted :
    decodeGrinAddress host shoutedAddress = some firstKey ↔
      grinAddressFromPubkey standardEncoder firstPubkey "grin" =
          some (normalizeGrinAddress host shoutedAddress) ∨
        grinAddressFromPubkey standardEncoder firstPubkey "tgrin" =
          some (normalizeGrinAddress host shoutedAddress) := by
  refine (decodes_encodings_iff host_crate shoutedAddress firstPubkey).mpr ?_
  unfold EncodesKey
  decide +kernel

/-- The first key, with the checksum of the variant `m`. -/
def firstAddressM : String :=
  "grin16adfsqvzky9t042tlmfujeq88g8wzuhnm2nzxfd0qgdx3ac82ydqq72ct8"

theorem decodes_bech32m :
    decodeGrinAddress host firstAddressM = some firstKey ∧
      ¬(grinAddressFromPubkey standardEncoder firstPubkey "grin" =
            some (normalizeGrinAddress host firstAddressM) ∨
          grinAddressFromPubkey standardEncoder firstPubkey "tgrin" =
            some (normalizeGrinAddress host firstAddressM)) := by
  decide +kernel

end Samples

end Floonet
