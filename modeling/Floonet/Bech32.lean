import Mathlib.Algebra.Group.Nat.Defs

/-!
# Bech32

Strings made of a prefix, a separator, data symbols and a checksum, in the
classic and the `m` variant, and the regrouping of five-bit symbols into
bytes.  A decoded lower-case string is determined by its prefix, its data and
its variant, and the data by the bytes.
-/

namespace Bech32

/-- The two checksums in use. -/
inductive Variant where
  | bech32
  | bech32m
deriving DecidableEq

/-- What a valid checksum comes to. -/
def Variant.constant : Variant → Nat
  | .bech32 => 1
  | .bech32m => 0x2bc830a3

/-- The symbols in the order of their values. -/
def charset : List Char := "qpzry9x8gf2tvdw0s3jn54khce6mua7l".toList

def symbolChar (symbol : Fin 32) : Char :=
  charset.getD symbol.val 'q'

def charSymbol (char : Char) : Option (Fin 32) :=
  (charset.idxOf? char).map (Fin.ofNat 32)

/-! ## Checksums -/

def generators : List Nat :=
  [0x3b6a57b2, 0x26508e6d, 0x1ea119fa, 0x3d4233dd, 0x2a1462b3]

/-- The checksum after one more symbol. -/
def polymodStep (checksum value : Nat) : Nat :=
  let top := checksum >>> 25
  (generators.zipIdx.filter fun entry => top.testBit entry.2).foldl
    (fun sum entry => sum ^^^ entry.1)
    (((checksum % 2 ^ 25) <<< 5) ^^^ value)

def polymod (values : List Nat) : Nat := values.foldl polymodStep 1

/-- A prefix as symbols: high bits, a zero, low bits. -/
def expandPrefix (hrp : List Char) : List Nat :=
  hrp.map (fun c => c.toNat >>> 5) ++ 0 :: hrp.map fun c => c.toNat % 32

/-- The six symbols that complete a prefix and its data. -/
def checksum (variant : Variant) (hrp : List Char) (data : List (Fin 32)) :
    List (Fin 32) :=
  let residue := polymod (expandPrefix hrp ++ data.map Fin.val ++
    List.replicate 6 0) ^^^ variant.constant
  [25, 20, 15, 10, 5, 0].map fun shift => Fin.ofNat 32 (residue >>> shift)

/-! ## Strings -/

/-- The text of a prefix and symbols, with its checksum. -/
def encode (variant : Variant) (hrp : List Char) (data : List (Fin 32)) :
    List Char :=
  hrp ++ '1' :: (data ++ checksum variant hrp data).map symbolChar

/-- The prefix and the symbols around the last separator. -/
def split (text : List Char) : Option (List Char × List (Fin 32)) :=
  let symbols := (text.reverse.takeWhile (· != '1')).reverse
  let hrp := ((text.reverse.dropWhile (· != '1')).drop 1).reverse
  (symbols.mapM charSymbol).map fun symbols => (hrp, symbols)

/-- Decode a lower-case string of either variant. -/
def decode (text : List Char) :
    Option (List Char × List (Fin 32) × Variant) := do
  let (hrp, symbols) ← split text
  let data := symbols.take (symbols.length - 6)
  if hrp.isEmpty then none
  else if text = encode .bech32 hrp data then some (hrp, data, .bech32)
  else if text = encode .bech32m hrp data then some (hrp, data, .bech32m)
  else none

/-- A decoded string is the encoding of what it decodes to. -/
theorem decode_canonical {text hrp : List Char} {data : List (Fin 32)}
    {variant : Variant} (decoded : decode text = some (hrp, data, variant)) :
    text = encode variant hrp data := by
  simp only [decode, Option.bind_eq_bind, Option.bind_eq_some_iff] at decoded
  obtain ⟨⟨hrp', symbols⟩, -, decoded⟩ := decoded
  dsimp only at decoded
  split at decoded
  · cases decoded
  · split at decoded
    · rename_i matched
      cases decoded
      exact matched
    · split at decoded
      · rename_i matched
        cases decoded
        exact matched
      · cases decoded

/-! ## Regrouping -/

/-- The lowest `width` bits, most significant first. -/
def bits (width value : Nat) : List Bool :=
  (List.range width).map fun place => value.testBit (width - 1 - place)

theorem bits_length (width value : Nat) : (bits width value).length = width := by
  simp [bits]

/-- The number with these bits, the highest first. -/
def ofBits (bits : List Bool) : Nat :=
  bits.foldl (fun value bit => 2 * value + bit.toNat) 0

/-- Cut a bit string into whole bytes. -/
def wholeBytes : Nat → List Bool → List UInt8
  | 0, _ => []
  | count + 1, rest =>
      UInt8.ofNat (ofBits (rest.take 8)) :: wholeBytes count (rest.drop 8)

/-- The bits of the symbols, one after the other. -/
def symbolBits (data : List (Fin 32)) : List Bool :=
  data.flatMap fun symbol => bits 5 symbol.val

/-- Regroup symbols into bytes; fewer than five bits may remain, all zero. -/
def fromBase32 (data : List (Fin 32)) : Option (List UInt8) :=
  let all := symbolBits data
  let bytes := wholeBytes (all.length / 8) all
  let padding := all.length % 8
  if padding < 5 ∧ all = bytes.flatMap (fun byte => bits 8 byte.toNat) ++
      List.replicate padding false then some bytes
  else none

theorem bits_injective {width left right : Nat} (leftSmall : left < 2 ^ width)
    (rightSmall : right < 2 ^ width)
    (same : bits width left = bits width right) : left = right := by
  apply Nat.eq_of_testBit_eq
  intro place
  by_cases within : place < width
  · have entry := congrArg (fun bits => bits[width - 1 - place]?) same
    have position : width - 1 - (width - 1 - place) = place := by omega
    simpa [bits, show width - 1 - place < width by omega, position] using entry
  · have beyond : 2 ^ width ≤ 2 ^ place :=
      Nat.pow_le_pow_right (by omega) (by omega)
    rw [Nat.testBit_lt_two_pow (Nat.lt_of_lt_of_le leftSmall beyond),
      Nat.testBit_lt_two_pow (Nat.lt_of_lt_of_le rightSmall beyond)]

theorem symbolBits_length (data : List (Fin 32)) :
    (symbolBits data).length = 5 * data.length := by
  induction data with
  | nil => rfl
  | cons symbol data induction =>
      rw [symbolBits, List.flatMap_cons, List.length_append, bits_length,
        List.length_cons]
      rw [symbolBits] at induction
      omega

theorem symbolBits_injective {left right : List (Fin 32)}
    (same : symbolBits left = symbolBits right) : left = right := by
  induction left generalizing right with
  | nil =>
      have length := congrArg List.length same
      rw [symbolBits_length, symbolBits_length] at length
      cases right with
      | nil => rfl
      | cons symbol right => simp at length
  | cons symbol left induction =>
      cases right with
      | nil =>
          have length := congrArg List.length same
          rw [symbolBits_length, symbolBits_length] at length
          simp at length
      | cons symbol' right =>
          simp only [symbolBits, List.flatMap_cons] at same
          obtain ⟨first, rest⟩ := List.append_inj same
            (by rw [bits_length, bits_length])
          have sameSymbol := bits_injective symbol.isLt symbol'.isLt first
          rw [Fin.ext sameSymbol, induction rest]

/-- Symbols that regroup into the same bytes are the same. -/
theorem fromBase32_injective {left right : List (Fin 32)} {bytes : List UInt8}
    (leftDecoded : fromBase32 left = some bytes)
    (rightDecoded : fromBase32 right = some bytes) : left = right := by
  have padded : ∀ {data : List (Fin 32)}, fromBase32 data = some bytes →
      ∃ padding, padding < 5 ∧ symbolBits data =
        bytes.flatMap (fun byte => bits 8 byte.toNat) ++
          List.replicate padding false := by
    intro data decoded
    simp only [fromBase32] at decoded
    split at decoded
    · rename_i canonical
      cases decoded
      exact ⟨_, canonical⟩
    · cases decoded
  obtain ⟨leftPadding, leftShort, leftBits⟩ := padded leftDecoded
  obtain ⟨rightPadding, rightShort, rightBits⟩ := padded rightDecoded
  have leftLength := congrArg List.length leftBits
  have rightLength := congrArg List.length rightBits
  rw [symbolBits_length, List.length_append, List.length_replicate]
    at leftLength rightLength
  have samePadding : leftPadding = rightPadding := by omega
  apply symbolBits_injective
  rw [leftBits, rightBits, samePadding]

end Bech32
