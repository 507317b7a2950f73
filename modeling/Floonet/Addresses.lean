import Floonet.Proof

/-!
# Slatepack addresses

A classic Bech32 address is its own normal form, and under one prefix the key
determines the text.
-/

namespace Floonet

open Text

/-- The crate decodes as the standard says, for the prefixes of Grin and for
text without upper-case letters. -/
structure Extern.Bech32Decoder (ext : Extern) : Prop where
  decode : ∀ text, (∀ c ∈ text.toList, isAsciiUppercase c = false) →
    ∀ hrp ∈ grinHrps, ∀ data variant,
      ext.bech32Decode text = some (hrp, data, variant) ↔
        Bech32.decode text.toList = some (hrp.toList, data, variant)
  fromBase32 : ∀ data, ext.fromBase32 data = Bech32.fromBase32 data

variable {ext : Extern}

/-- A decoder that follows the standard on every text does on these. -/
theorem Extern.Bech32Decoder.of_standard
    (decode : ∀ text, ext.bech32Decode text =
      (Bech32.decode text.toList).map fun decoded =>
        (String.ofList decoded.1, decoded.2.1, decoded.2.2))
    (fromBase32 : ext.fromBase32 = Bech32.fromBase32) : ext.Bech32Decoder where
  decode text _ hrp _ data variant := by
    simp only [decode, Option.map_eq_some_iff, Prod.mk.injEq, Prod.exists]
    constructor
    · rintro ⟨chars, symbols, other, decoded, rfl, rfl, rfl⟩
      rw [String.toList_ofList]
      exact decoded
    · intro decoded
      exact ⟨_, _, _, decoded, String.ofList_toList, rfl, rfl⟩
  fromBase32 data := congrFun fromBase32 data

theorem normalizeGrinAddress_notUpper (ext : Extern) (address : String) :
    ∀ c ∈ (normalizeGrinAddress ext address).toList,
      isAsciiUppercase c = false :=
  fun _ => CaseTables.toLowercase_notUpper

theorem decodeGrinAddress_parts (decoder : ext.Bech32Decoder)
    {address : String} {key : Bytes} :
    decodeGrinAddress ext address = some key ↔
      ∃ hrp ∈ grinHrps, ∃ data variant,
        Bech32.decode (normalizeGrinAddress ext address).toList =
            some (hrp.toList, data, variant) ∧
          Bech32.fromBase32 data = some key ∧ key.length = 32 := by
  have notUpper := normalizeGrinAddress_notUpper ext address
  unfold decodeGrinAddress
  generalize normalizeGrinAddress ext address = norm at *
  constructor
  · intro decoded
    dsimp only at decoded
    split at decoded
    · cases decoded
    rename_i hrp data variant parts
    split at decoded
    · cases decoded
    rename_i grin
    have isGrin : hrp ∈ grinHrps := by simpa using grin
    obtain ⟨regrouped, size⟩ := Option.filter_eq_some_iff.mp decoded
    rw [decoder.fromBase32] at regrouped
    exact ⟨hrp, isGrin, data, variant,
      (decoder.decode norm notUpper hrp isGrin data variant).mp parts,
      regrouped, beq_iff_eq.mp size⟩
  · rintro ⟨hrp, isGrin, data, variant, parts, regrouped, size⟩
    dsimp only
    rw [(decoder.decode norm notUpper hrp isGrin data variant).mpr parts]
    dsimp only
    rw [if_neg (by simpa using isGrin), decoder.fromBase32]
    exact Option.filter_eq_some_iff.mpr ⟨regrouped, beq_iff_eq.mpr size⟩

/-- A lower-case ASCII letter or a digit. -/
def isPlain (c : Char) : Bool :=
  isDigit c || isAsciiLowercase c

theorem isPlain_lower {c : Char} (plain : isPlain c = true) :
    c.toNat < 128 ∧ c.toLower = c ∧ isWhitespace c = false := by
  simp only [isPlain, isDigit, isAsciiLowercase, Bool.or_eq_true,
    Bool.and_eq_true, decide_eq_true_iff] at plain
  refine ⟨by omega, ?_, ?_⟩
  · apply Char.toNat_inj.mp
    rw [toLower_toNat, if_neg (by omega)]
  · simp only [isWhitespace, Bool.or_eq_false_iff, Bool.and_eq_false_iff,
      decide_eq_false_iff_not, beq_eq_false_iff_ne]
    omega

theorem lowerFrom_plain {tables : CaseTables} {before chars : List Char}
    (plain : ∀ c ∈ chars, isPlain c = true) :
    tables.lowerFrom before chars = chars := by
  induction chars generalizing before with
  | nil => rfl
  | cons c chars induction =>
      obtain ⟨ascii, lower, -⟩ := isPlain_lower (plain c List.mem_cons_self)
      rw [CaseTables.lowerFrom, tables.lower_ascii _ _ _ ascii, lower,
        induction fun d member => plain d (List.mem_cons_of_mem c member)]
      rfl

theorem toLowercase_plain (tables : CaseTables) {text : String}
    {chars : List Char} (isText : text = String.ofList chars)
    (plain : chars.all isPlain = true) : tables.toLowercase text = text := by
  rw [CaseTables.toLowercase, toList_eq isText,
    lowerFrom_plain (List.all_eq_true.mp plain), isText]

theorem normalizeGrinAddress_plain {text : String}
    (plain : ∀ c ∈ text.toList, isPlain c = true) :
    normalizeGrinAddress ext text = text := by
  rw [normalizeGrinAddress,
    trim_visible fun c member => (isPlain_lower (plain c member)).2.2,
    CaseTables.toLowercase, lowerFrom_plain plain, String.ofList_toList]

theorem normalizeGrinAddress_eq {text : String} {chars : List Char}
    (isText : text = String.ofList chars)
    (plain : chars.all isPlain = true) :
    normalizeGrinAddress ext text = text := by
  apply normalizeGrinAddress_plain
  rw [toList_eq isText]
  exact List.all_eq_true.mp plain

/-- The key that a text in lower case encodes, in either variant. -/
def plainKey (chars : List Char) : Option Bytes :=
  match Bech32.decode chars with
  | none => none
  | some (hrp, data, _) =>
      if !grinHrps.contains (String.ofList hrp) then none
      else (Bech32.fromBase32 data).filter fun bytes => bytes.length == 32

theorem plainKey_eq_some {chars : List Char} {key : Bytes} :
    plainKey chars = some key ↔ ∃ hrp ∈ grinHrps, ∃ data variant,
      Bech32.decode chars = some (hrp.toList, data, variant) ∧
        Bech32.fromBase32 data = some key ∧ key.length = 32 := by
  unfold plainKey
  constructor
  · intro encoded
    split at encoded
    · cases encoded
    rename_i hrp data variant parts
    split at encoded
    · cases encoded
    rename_i grin
    obtain ⟨regrouped, size⟩ := Option.filter_eq_some_iff.mp encoded
    refine ⟨String.ofList hrp, by simpa using grin, data, variant, ?_,
      regrouped, beq_iff_eq.mp size⟩
    rw [String.toList_ofList, parts]
  · rintro ⟨hrp, isGrin, data, variant, parts, regrouped, size⟩
    rw [parts]
    dsimp only
    rw [String.ofList_toList, if_neg (by simpa using isGrin)]
    exact Option.filter_eq_some_iff.mpr ⟨regrouped, beq_iff_eq.mpr size⟩

theorem decodeGrinAddress_plain (decoder : ext.Bech32Decoder)
    {text : String} {chars : List Char} (isText : text = String.ofList chars)
    (plain : chars.all isPlain = true) :
    decodeGrinAddress ext text = plainKey chars := by
  apply Option.ext
  intro key
  rw [decodeGrinAddress_parts decoder, normalizeGrinAddress_eq isText plain,
    toList_eq isText, plainKey_eq_some]

theorem symbolChar_plain (symbol : Fin 32) :
    isPlain (Bech32.symbolChar symbol) = true := by
  revert symbol
  decide

/-- A prefix, symbols and the variant of an address of the Grin network. -/
structure ClassicAddress (ext : Extern) (text hrp : String)
    (data : List (Fin 32)) : Prop where
  grin : hrp ∈ grinHrps
  decoded : ext.bech32Decode text = some (hrp, data, .bech32)

namespace ClassicAddress

variable {text other hrp : String} {data otherData : List (Fin 32)}
  (decoder : ext.Bech32Decoder)

include decoder

theorem parts (address : ClassicAddress ext text hrp data)
    (notUpper : ∀ c ∈ text.toList, isAsciiUppercase c = false) :
    Bech32.decode text.toList = some (hrp.toList, data, .bech32) :=
  (decoder.decode text notUpper hrp address.grin data .bech32).mp
    address.decoded

theorem canonical (address : ClassicAddress ext text hrp data)
    (notUpper : ∀ c ∈ text.toList, isAsciiUppercase c = false) :
    text.toList = Bech32.encode .bech32 hrp.toList data :=
  Bech32.decode_canonical (address.parts decoder notUpper)

theorem plain (address : ClassicAddress ext text hrp data)
    (notUpper : ∀ c ∈ text.toList, isAsciiUppercase c = false) :
    ∀ c ∈ text.toList, isPlain c = true := by
  have prefixPlain : (grinHrps.all fun hrp => hrp.toList.all isPlain) = true := by
    decide
  intro c member
  rw [address.canonical decoder notUpper, Bech32.encode, List.mem_append,
    List.mem_cons, List.mem_map] at member
  rcases member with inPrefix | rfl | ⟨symbol, -, rfl⟩
  · have plain := List.all_eq_true.mp prefixPlain hrp address.grin
    exact List.all_eq_true.mp plain c inPrefix
  · decide
  · exact symbolChar_plain symbol

theorem decodes (address : ClassicAddress ext text hrp data)
    (notUpper : ∀ c ∈ text.toList, isAsciiUppercase c = false) {key : Bytes}
    (keyed : decodeGrinAddress ext text = some key) :
    Bech32.fromBase32 data = some key := by
  rw [decodeGrinAddress_parts decoder,
    normalizeGrinAddress_plain (address.plain decoder notUpper),
    address.parts decoder notUpper] at keyed
  obtain ⟨_, -, _, _, same, regrouped, -⟩ := keyed
  simp only [Option.some.injEq, Prod.mk.injEq] at same
  obtain ⟨-, rfl, -⟩ := same
  exact regrouped

/-- Under one prefix, the key determines the classic address without
upper-case letters. -/
theorem eq_of_key (address : ClassicAddress ext text hrp data)
    (notUpper : ∀ c ∈ text.toList, isAsciiUppercase c = false)
    (otherAddress : ClassicAddress ext other hrp otherData)
    (otherNotUpper : ∀ c ∈ other.toList, isAsciiUppercase c = false)
    {key : Bytes} (keyed : decodeGrinAddress ext text = some key)
    (otherKeyed : decodeGrinAddress ext other = some key) : text = other := by
  have sameData : data = otherData := Bech32.fromBase32_injective
    (address.decodes decoder notUpper keyed)
    (otherAddress.decodes decoder otherNotUpper otherKeyed)
  apply String.toList_inj.mp
  rw [address.canonical decoder notUpper,
    otherAddress.canonical decoder otherNotUpper, sameData]

end ClassicAddress

end Floonet
