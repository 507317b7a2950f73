import Floonet.Bech32.Checksum
import Floonet.Bech32.Regroup

/-!
# Encodings of bytes

Bytes are regrouped into symbols, the last of them filled up with zero bits,
and written with a prefix and a checksum.  Decoding undoes both steps, and it
accepts nothing else.
-/

namespace Bech32

/-! ## Bytes as symbols -/

def byteBits (bytes : List UInt8) : List Bool :=
  bytes.flatMap fun byte => bits 8 byte.toNat

theorem ofBits_take_lt (text : List Bool) : ofBits (text.take 5) < 32 := by
  have short : (text.take 5).length ≤ 5 := List.length_take_le 5 text
  exact Nat.lt_of_lt_of_le (ofBits_lt _)
    (Nat.pow_le_pow_right Nat.two_pos short)

/-- Cut a bit string into whole symbols. -/
def wholeSymbols : Nat → List Bool → List (Fin 32)
  | 0, _ => []
  | count + 1, rest =>
      ⟨ofBits (rest.take 5), ofBits_take_lt rest⟩ ::
        wholeSymbols count (rest.drop 5)

/-- Regroup bytes into symbols; the last symbol is filled up with zeros. -/
def toBase32 (bytes : List UInt8) : List (Fin 32) :=
  let all := byteBits bytes
  let count := (all.length + 4) / 5
  wholeSymbols count (all ++ List.replicate (5 * count - all.length) false)

theorem byteBits_length (bytes : List UInt8) :
    (byteBits bytes).length = 8 * bytes.length := by
  induction bytes with
  | nil => rfl
  | cons byte bytes induction =>
      rw [byteBits, List.flatMap_cons, List.length_append, bits_length,
        List.length_cons]
      rw [byteBits] at induction
      omega

/-- The symbols write back the bits that they are cut from. -/
theorem symbolBits_wholeSymbols {count : Nat} {text : List Bool}
    (exact_ : text.length = 5 * count) :
    symbolBits (wholeSymbols count text) = text := by
  induction count generalizing text with
  | zero => exact (List.length_eq_zero_iff.mp exact_).symm
  | succ count induction =>
      have five : (text.take 5).length = 5 := by
        rw [List.length_take]
        omega
      have symbol : bits 5 (ofBits (text.take 5)) = text.take 5 := by
        have inverse := bits_ofBits (text.take 5)
        rwa [five] at inverse
      have dropped : (text.drop 5).length = 5 * count := by
        rw [List.length_drop]
        omega
      have rest := induction dropped
      rw [symbolBits] at rest
      rw [wholeSymbols, symbolBits, List.flatMap_cons, symbol, rest,
        List.take_append_drop]

theorem wholeBytes_byteBits (bytes : List UInt8) (more : List Bool) :
    wholeBytes bytes.length (byteBits bytes ++ more) = bytes := by
  induction bytes with
  | nil => rfl
  | cons byte bytes induction =>
      have eight := bits_length 8 byte.toNat
      rw [byteBits, List.flatMap_cons, List.append_assoc, List.length_cons,
        wholeBytes, List.take_append_of_le_length (by omega),
        List.take_of_length_le (by omega), ofBits_bits 8 byte.toNat_lt,
        UInt8.ofNat_toNat, List.drop_append_of_le_length (by omega),
        List.drop_of_length_le (by omega), List.nil_append]
      rw [byteBits] at induction
      rw [induction]

/-- Regrouping into symbols and back gives the bytes again. -/
theorem fromBase32_toBase32 (bytes : List UInt8) :
    fromBase32 (toBase32 bytes) = some bytes := by
  have length := byteBits_length bytes
  have bits : symbolBits (toBase32 bytes) = byteBits bytes ++
      List.replicate (5 * (((byteBits bytes).length + 4) / 5) -
        (byteBits bytes).length) false := by
    apply symbolBits_wholeSymbols
    rw [List.length_append, List.length_replicate]
    omega
  unfold fromBase32
  rw [bits]
  have count : (byteBits bytes ++ List.replicate
      (5 * (((byteBits bytes).length + 4) / 5) - (byteBits bytes).length)
        false).length / 8 = bytes.length := by
    rw [List.length_append, List.length_replicate]
    omega
  have padding : (byteBits bytes ++ List.replicate
      (5 * (((byteBits bytes).length + 4) / 5) - (byteBits bytes).length)
        false).length % 8 =
        5 * (((byteBits bytes).length + 4) / 5) - (byteBits bytes).length := by
    rw [List.length_append, List.length_replicate]
    omega
  dsimp only
  rw [count, padding, wholeBytes_byteBits, if_pos]
  exact ⟨by omega, rfl⟩

theorem fromBase32_eq_some_iff {data : List (Fin 32)} {bytes : List UInt8} :
    fromBase32 data = some bytes ↔ data = toBase32 bytes := by
  constructor
  · exact fun decoded =>
      fromBase32_injective decoded (fromBase32_toBase32 bytes)
  · rintro rfl
    exact fromBase32_toBase32 bytes

/-! ## Strings -/

theorem charSymbol_symbolChar (symbol : Fin 32) :
    charSymbol (symbolChar symbol) = some symbol := by
  revert symbol
  decide

theorem symbolChar_ne_one (symbol : Fin 32) : symbolChar symbol ≠ '1' := by
  revert symbol
  decide

theorem mapM_charSymbol (symbols : List (Fin 32)) :
    (symbols.map symbolChar).mapM charSymbol = some symbols := by
  induction symbols with
  | nil => rfl
  | cons symbol symbols induction =>
      rw [List.map_cons, List.mapM_cons, charSymbol_symbolChar, induction]
      rfl

theorem split_symbols (hrp : List Char) (symbols : List (Fin 32)) :
    split (hrp ++ '1' :: symbols.map symbolChar) = some (hrp, symbols) := by
  have noSeparator : ∀ c ∈ (symbols.map symbolChar).reverse,
      (c != '1') = true := by
    intro c member
    obtain ⟨symbol, -, rfl⟩ := List.mem_map.mp (List.mem_reverse.mp member)
    exact bne_iff_ne.mpr (symbolChar_ne_one symbol)
  have reversed : (hrp ++ '1' :: symbols.map symbolChar).reverse =
      (symbols.map symbolChar).reverse ++ '1' :: hrp.reverse := by
    simp
  unfold split
  rw [reversed, List.takeWhile_append_of_pos noSeparator,
    List.dropWhile_append_of_pos noSeparator,
    List.takeWhile_cons_of_neg (by simp), List.dropWhile_cons_of_neg (by simp),
    List.append_nil, List.reverse_reverse, List.drop_one, List.tail_cons,
    List.reverse_reverse]
  dsimp only
  rw [mapM_charSymbol]
  rfl

theorem checksum_length (variant : Variant) (hrp : List Char)
    (data : List (Fin 32)) : (checksum variant hrp data).length = 6 := rfl

/-- The checksums of the two variants differ. -/
theorem checksum_injective {variant variant' : Variant} {hrp : List Char}
    {data : List (Fin 32)}
    (same : checksum variant hrp data = checksum variant' hrp data) :
    variant = variant' := by
  have residue := (polymod_eq_iff variant hrp data
    (checksum_length variant hrp data)).mpr rfl
  rw [same, (polymod_eq_iff variant' hrp data
    (checksum_length variant' hrp data)).mpr rfl] at residue
  cases variant <;> cases variant' <;> first | rfl | cases residue

theorem encode_injective {variant variant' : Variant}
    {hrp hrp' : List Char} {data data' : List (Fin 32)}
    (same : encode variant hrp data = encode variant' hrp' data') :
    variant = variant' ∧ hrp = hrp' ∧ data = data' := by
  have parts := congrArg split same
  rw [encode, encode, split_symbols, split_symbols, Option.some.injEq,
    Prod.mk.injEq] at parts
  obtain ⟨rfl, symbols⟩ := parts
  obtain ⟨rfl, checksums⟩ := List.append_inj' symbols rfl
  exact ⟨checksum_injective checksums, rfl, rfl⟩

/-- Decoding undoes encoding. -/
theorem decode_encode (variant : Variant) {hrp : List Char}
    (nonempty : hrp ≠ []) (data : List (Fin 32)) :
    decode (encode variant hrp data) = some (hrp, data, variant) := by
  have parts : split (encode variant hrp data) =
      some (hrp, data ++ checksum variant hrp data) := split_symbols hrp _
  have body : (data ++ checksum variant hrp data).take
      ((data ++ checksum variant hrp data).length - 6) = data := by
    rw [List.length_append, checksum_length, Nat.add_sub_cancel,
      List.take_left]
  simp only [decode, parts, Option.bind_eq_bind, Option.bind_some, body]
  rw [if_neg (by simpa using nonempty)]
  cases variant with
  | bech32 => rw [if_pos rfl]
  | bech32m =>
      have differ : encode .bech32m hrp data ≠ encode .bech32 hrp data := by
        intro same
        cases (encode_injective same).1
      rw [if_neg differ, if_pos rfl]

/-- What decodes is an encoding. -/
theorem decode_eq_some {text hrp : List Char} {data : List (Fin 32)}
    {variant : Variant} (nonempty : hrp ≠ []) :
    decode text = some (hrp, data, variant) ↔
      text = encode variant hrp data := by
  constructor
  · exact decode_canonical
  · rintro rfl
    exact decode_encode variant nonempty data

end Bech32
