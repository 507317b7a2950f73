import Floonet.Bech32.Checksum
import Floonet.Bech32.Regroup
import Floonet.Plugin.Checks
import Floonet.Python.Case
import Mathlib.Data.List.Induction

/-!
# What an author entry denotes

An entry denotes a key when it is the key in hexadecimal digits of any case,
or the npub of the key in one case.  The policy reads exactly these, except
that it takes the sign for kelvin in an upper-case npub for the letter K.
-/

namespace Floonet.Plugin

open Python

/-! ## The text of an npub -/

/-- The lower-case text of data symbols with the prefix of a public key. -/
def npubText (data : List (Fin 32)) : Str :=
  (Bech32.encode .bech32 "npub".toList data).map ascii

/-- The text is the npub of the bytes, in lower case. -/
structure IsNpub (s : Str) (bytes : List UInt8) : Prop where
  size : bytes.length = 32
  text : ∃ data, Bech32.fromBase32 data = some bytes ∧ s = npubText data

/-! ## Symbols and checksums -/

def symbolPoint (symbol : Fin 32) : CodePoint :=
  ascii (Bech32.symbolChar symbol)

theorem charset_idxOf? (symbol : Fin 32) :
    bech32Charset.idxOf? (symbolPoint symbol) = some symbol.val := by
  revert symbol
  decide +kernel

theorem charset_idxOf?_eq_some {c : CodePoint} {value : Nat} :
    bech32Charset.idxOf? c = some value ↔
      ∃ symbol : Fin 32, c = symbolPoint symbol ∧ symbol.val = value := by
  constructor
  · intro found
    obtain ⟨within, rfl, -⟩ := List.idxOf?_eq_some_iff.mp found
    have points : ∀ symbol : Fin 32,
        bech32Charset[symbol.val]? = some (symbolPoint symbol) := by
      decide +kernel
    refine ⟨⟨value, within⟩, ?_, rfl⟩
    have point := points ⟨value, within⟩
    rw [List.getElem?_eq_getElem within] at point
    exact Option.some.inj point
  · rintro ⟨symbol, rfl, rfl⟩
    exact charset_idxOf? symbol

theorem mapM_charset_eq_some {s : Str} {values : List Nat} :
    s.mapM (bech32Charset.idxOf? ·) = some values ↔
      ∃ symbols : List (Fin 32), s = symbols.map symbolPoint ∧
        symbols.map Fin.val = values := by
  induction s generalizing values with
  | nil =>
      simp only [List.mapM_nil, Option.pure_def, Option.some.injEq,
        List.nil_eq, List.map_eq_nil_iff]
      constructor
      · rintro rfl
        exact ⟨[], rfl, rfl⟩
      · rintro ⟨_, rfl, rfl⟩
        rfl
  | cons c s induction =>
      simp only [List.mapM_cons, Option.pure_def, Option.bind_eq_bind,
        Option.bind_eq_some_iff, Option.some.injEq, charset_idxOf?_eq_some,
        induction]
      constructor
      · rintro ⟨_, ⟨symbol, rfl, rfl⟩, _, ⟨symbols, rfl, rfl⟩, rfl⟩
        exact ⟨symbol :: symbols, rfl, rfl⟩
      · rintro ⟨symbols, text, rfl⟩
        cases symbols with
        | nil => cases text
        | cons symbol symbols =>
            cases text
            exact ⟨_, ⟨symbol, rfl, rfl⟩, _, ⟨symbols, rfl, rfl⟩, rfl⟩

theorem foldl_feedback (entries : List (Nat × Nat)) (top sum : Nat) :
    entries.foldl (fun chk entry =>
        chk ^^^ (if (top >>> entry.2) &&& 1 ≠ 0 then entry.1 else 0)) sum =
      sum ^^^ Bech32.feedback entries top := by
  induction entries generalizing sum with
  | nil => simp [Bech32.feedback]
  | cons entry entries induction =>
      have bit : (top >>> entry.2) &&& 1 ≠ 0 ↔ top.testBit entry.2 = true := by
        simp [Nat.testBit, Nat.and_comm]
      simp only [List.foldl_cons, induction, Bech32.feedback, bit,
        Nat.xor_assoc]

theorem bech32Polymod_eq (values : List Nat) :
    bech32Polymod values = Bech32.polymod values := by
  have step : bech32PolymodStep = Bech32.polymodStep := by
    funext chk value
    rw [bech32PolymodStep, foldl_feedback, Bech32.polymodStep_eq,
      ← Nat.and_two_pow_sub_one_eq_mod]
    rfl
  rw [bech32Polymod, Bech32.polymod, step]

/-! ## Regrouping -/

/-- What the regrouping loop knows after some symbols. -/
structure Regrouping.Reads (state : Regrouping) (symbols : List (Fin 32)) :
    Prop where
  acc : state.acc = Bech32.ofBits (Bech32.symbolBits symbols)
  bits : state.bits = 5 * symbols.length % 8
  out : state.out = Bech32.wholeBytes (5 * symbols.length / 8)
    (Bech32.symbolBits symbols)

theorem Regrouping.Reads.step {state : Regrouping} {symbols : List (Fin 32)}
    (reads : state.Reads symbols) (symbol : Fin 32) :
    (state.step symbol.val).Reads (symbols ++ [symbol]) := by
  have acc : state.acc <<< 5 ||| symbol.val =
      Bech32.ofBits (Bech32.symbolBits (symbols ++ [symbol])) := by
    rw [← Nat.shiftLeft_add_eq_or_of_lt (i := 5) symbol.isLt,
      Bech32.symbolBits_snoc, Bech32.ofBits_append, Bech32.bits_length,
      Bech32.ofBits_bits 5 symbol.isLt, reads.acc,
      Nat.shiftLeft_eq]
  have length := Bech32.symbolBits_length symbols
  have longer := Bech32.symbolBits_length (symbols ++ [symbol])
  rw [List.length_append, List.length_singleton] at longer
  have kept : Bech32.wholeBytes (5 * symbols.length / 8)
      (Bech32.symbolBits (symbols ++ [symbol])) = state.out := by
    rw [Bech32.symbolBits_snoc, Bech32.wholeBytes_append (by omega), reads.out]
  unfold Regrouping.step
  rw [acc, reads.bits]
  dsimp only
  split
  · rename_i full
    constructor
    · rfl
    · simp only [List.length_append, List.length_singleton]
      omega
    · have byte := Bech32.ofBits_byte (5 * symbols.length / 8)
        (Bech32.symbolBits (symbols ++ [symbol])) (by omega)
      have left : (Bech32.symbolBits (symbols ++ [symbol])).length -
          (8 * (5 * symbols.length / 8) + 8) =
            5 * symbols.length % 8 + 5 - 8 := by
        omega
      have count : 5 * (symbols.length + 1) / 8 = 5 * symbols.length / 8 + 1 := by
        omega
      rw [left] at byte
      rw [byte, ← kept, ← Bech32.wholeBytes_succ, List.length_append,
        List.length_singleton, count]
  · rename_i short
    constructor
    · rfl
    · simp only [List.length_append, List.length_singleton]
      omega
    · have count : 5 * (symbols.length + 1) / 8 = 5 * symbols.length / 8 := by
        omega
      rw [← kept, List.length_append, List.length_singleton, count]

theorem Regrouping.reads (symbols : List (Fin 32)) :
    ((symbols.map Fin.val).foldl Regrouping.step ⟨0, 0, []⟩).Reads symbols := by
  induction symbols using List.reverseRecOn with
  | nil => exact ⟨rfl, rfl, rfl⟩
  | append_singleton symbols symbol reads =>
      rw [List.map_append, List.foldl_append]
      exact reads.step symbol

theorem regroupHex_eq_some {data last : List (Fin 32)} (six : last.length = 6)
    {key : Str} :
    regroupHex ((data ++ last).map Fin.val) = some key ↔
      ∃ bytes, Bech32.fromBase32 data = some bytes ∧ bytes.length = 32 ∧
        bytesHex bytes = key := by
  have reads := Regrouping.reads data
  have body : ((data ++ last).map Fin.val).take
      (((data ++ last).map Fin.val).length - 6) = data.map Fin.val := by
    simp [six]
  unfold regroupHex
  rw [body]
  generalize (data.map Fin.val).foldl Regrouping.step ⟨0, 0, []⟩ = final at *
  simp only [Bech32.fromBase32_eq_some, ← reads.bits, ← reads.acc, ← reads.out]
  rw [show (1 <<< final.bits) - 1 = 2 ^ final.bits - 1 by
    rw [Nat.one_shiftLeft], Nat.and_two_pow_sub_one_eq_mod]
  constructor
  · intro decoded
    split at decoded
    · cases decoded
    · rename_i padded
      rw [not_or, Nat.not_le, not_not] at padded
      split at decoded
      · cases decoded
      · rename_i size
        exact ⟨final.out, ⟨padded.1, padded.2, rfl⟩, not_not.mp size,
          Option.some.inj decoded⟩
  · rintro ⟨bytes, ⟨short, zero, rfl⟩, size, rfl⟩
    rw [if_neg (by omega), if_neg (not_not.mpr size)]

/-! ## Npubs -/

theorem npubText_eq (data : List (Fin 32)) :
    npubText data = str "npub" ++ ascii '1' ::
      (data ++ Bech32.checksum .bech32 "npub".toList data).map symbolPoint := by
  rw [npubText, Bech32.encode, List.map_append, List.map_cons, List.map_map]
  rfl

theorem symbolPoint_ne_one (symbol : Fin 32) : ascii '1' ≠ symbolPoint symbol := by
  revert symbol
  decide +kernel

theorem lowerNpubToHex_split {front back key : Str}
    (absent : ascii '1' ∉ back) :
    lowerNpubToHex (front ++ ascii '1' :: back) = some key ↔
      front = str "npub" ∧ ∃ symbols : List (Fin 32),
        back = symbols.map symbolPoint ∧ 6 ≤ symbols.length ∧
        Bech32.polymod (Bech32.expandPrefix "npub".toList ++
          symbols.map Fin.val) = 1 ∧
        regroupHex (symbols.map Fin.val) = some key := by
  have found : rfind '1' (front ++ ascii '1' :: back) = some front.length :=
    rfind_eq_some.mpr ⟨front, back, rfl, absent, rfl⟩
  have isFront : (front ++ ascii '1' :: back).take front.length = front :=
    List.take_left
  have isBack : (front ++ ascii '1' :: back).drop (front.length + 1) = back := by
    simp
  have expanded : (str "npub").map (fun c => c.val >>> 5) ++ [0] ++
      (str "npub").map (fun c => c.val &&& 31) =
        Bech32.expandPrefix "npub".toList := by
    decide +kernel
  unfold lowerNpubToHex
  simp only [found, isFront, isBack, List.length_append, List.length_cons]
  constructor
  · intro decoded
    split at decoded
    · cases decoded
    rename_i long
    split at decoded
    · cases decoded
    rename_i isPrefix
    cases not_not.mp isPrefix
    refine ⟨rfl, ?_⟩
    split at decoded
    · cases decoded
    rename_i values isData
    obtain ⟨symbols, rfl, rfl⟩ := mapM_charset_eq_some.mp isData
    rw [expanded, bech32Polymod_eq] at decoded
    split at decoded
    · cases decoded
    rename_i matches'
    rw [List.length_map] at long
    exact ⟨symbols, rfl, by omega, not_not.mp matches', decoded⟩
  · rintro ⟨rfl, symbols, rfl, long, residue, decoded⟩
    have four : (str "npub").length = 4 := rfl
    rw [List.length_map, if_neg (by omega), if_neg (not_not.mpr rfl),
      mapM_charset_eq_some.mpr ⟨symbols, rfl, rfl⟩]
    dsimp only
    rw [expanded, bech32Polymod_eq, if_neg (not_not.mpr residue), decoded]

theorem lowerNpubToHex_eq_some {s key : Str} :
    lowerNpubToHex s = some key ↔
      ∃ bytes, IsNpub s bytes ∧ bytesHex bytes = key := by
  constructor
  · intro decoded
    cases found : rfind '1' s with
    | none =>
        rw [lowerNpubToHex, found] at decoded
        cases decoded
    | some pos =>
        obtain ⟨front, back, rfl, absent, -⟩ := rfind_eq_some.mp found
        obtain ⟨rfl, symbols, rfl, long, residue, isKey⟩ :=
          (lowerNpubToHex_split absent).mp decoded
        have whole := List.take_append_drop (symbols.length - 6) symbols
        have six : (symbols.drop (symbols.length - 6)).length = 6 := by
          rw [List.length_drop]
          omega
        rw [← whole] at residue isKey
        have checksum := (Bech32.polymod_eq_iff .bech32 _ _ six).mp residue
        obtain ⟨bytes, regrouped, size, isHex⟩ :=
          (regroupHex_eq_some six).mp isKey
        refine ⟨bytes, ⟨size, _, regrouped, ?_⟩, isHex⟩
        rw [npubText_eq, ← checksum, whole]
  · rintro ⟨bytes, ⟨size, data, regrouped, rfl⟩, rfl⟩
    have six : (Bech32.checksum .bech32 "npub".toList data).length = 6 := rfl
    have absent : ascii '1' ∉
        (data ++ Bech32.checksum .bech32 "npub".toList data).map
          symbolPoint := by
      intro member
      obtain ⟨symbol, -, isOne⟩ := List.mem_map.mp member
      exact symbolPoint_ne_one symbol isOne.symm
    rw [npubText_eq, lowerNpubToHex_split absent]
    refine ⟨rfl, _, rfl, ?_, ?_, ?_⟩
    · rw [List.length_append, six]
      omega
    · exact (Bech32.polymod_eq_iff .bech32 _ data six).mpr rfl
    · exact (regroupHex_eq_some six).mpr ⟨bytes, regrouped, size, rfl⟩

theorem IsNpub.plain {s : Str} {bytes : List UInt8} (npub : IsNpub s bytes) :
    ∀ c ∈ s, c.val < 128 ∧ isAsciiUpper c = false := by
  obtain ⟨data, -, rfl⟩ := npub.text
  have symbols : ∀ symbol : Fin 32, (symbolPoint symbol).val < 128 ∧
      isAsciiUpper (symbolPoint symbol) = false := by
    decide +kernel
  have front : (str "npub" ++ [ascii '1']).all (fun c =>
      c.val < 128 && isAsciiUpper c == false) = true := by
    decide +kernel
  rw [npubText_eq, ← List.singleton_append, ← List.append_assoc]
  intro c member
  rcases List.mem_append.mp member with early | late
  · simpa using List.all_eq_true.mp front c early
  · obtain ⟨symbol, -, rfl⟩ := List.mem_map.mp late
    exact symbols symbol

/-- An npub has 63 characters. -/
theorem IsNpub.length {s : Str} {bytes : List UInt8} (npub : IsNpub s bytes) :
    s.length = 63 := by
  obtain ⟨data, regrouped, rfl⟩ := npub.text
  obtain ⟨few, -, rfl⟩ := Bech32.fromBase32_eq_some.mp regrouped
  have size := npub.size
  rw [Bech32.wholeBytes_length] at size
  rw [npubText_eq]
  simp [str, Bech32.checksum]
  omega

theorem IsNpub.starts {s : Str} {bytes : List UInt8} (npub : IsNpub s bytes) :
    (str "npub1").isPrefixOf s = true := by
  obtain ⟨data, -, rfl⟩ := npub.text
  rw [npubText_eq, List.isPrefixOf_iff_prefix]
  exact ⟨_, List.append_assoc (str "npub") [ascii '1'] _⟩

/-! ## Hexadecimal digits -/

def IsHexKey (s : Str) : Prop := s.length = 64 ∧ s.all isHexLower = true

theorem isHexLower_asciiLower {c : CodePoint} :
    isHexLower (asciiLower c) = true ↔ (48 ≤ c.val ∧ c.val ≤ 57) ∨
      (65 ≤ c.val ∧ c.val ≤ 70) ∨ (97 ≤ c.val ∧ c.val ≤ 102) := by
  simp only [isHexLower, asciiLower_val, Bool.or_eq_true, Bool.and_eq_true,
    decide_eq_true_eq]
  grind

theorem digitValue_hex {c : CodePoint}
    (digit : isHexLower (asciiLower c) = true) :
    c ≠ ascii '_' ∧ ∃ value, (digitValue c).filter (· < 16) = some value := by
  rw [isHexLower_asciiLower] at digit
  constructor
  · rintro rfl
    have underscore : (ascii '_').val = 95 := rfl
    omega
  · unfold digitValue
    rcases digit with decimal | upper | lower
    · refine ⟨c.val - 48, ?_⟩
      rw [if_pos decimal, Option.filter_some, if_pos]
      exact decide_eq_true (by omega)
    · refine ⟨c.val - 55, ?_⟩
      rw [if_neg (by omega), if_neg (by omega), if_pos (by omega),
        Option.filter_some, if_pos]
      exact decide_eq_true (by omega)
    · refine ⟨c.val - 87, ?_⟩
      rw [if_neg (by omega), if_pos (by omega), Option.filter_some, if_pos]
      exact decide_eq_true (by omega)

theorem scanDigits_hex {s : Str} (digits : ∀ c ∈ s,
    isHexLower (asciiLower c) = true) (required : Bool)
    (nonempty : required = true → s ≠ []) (before : List Nat) :
    ∃ read, scanDigits 16 required before s = some (read, []) := by
  induction s generalizing required before with
  | nil =>
      cases required with
      | false => exact ⟨before, rfl⟩
      | true => exact absurd rfl (nonempty rfl)
  | cons c s induction =>
      obtain ⟨noUnderscore, value, isDigit⟩ :=
        digitValue_hex (digits c List.mem_cons_self)
      rw [scanDigits, if_neg noUnderscore, isDigit]
      exact induction (fun d member => digits d (List.mem_cons_of_mem c member))
        false (fun isRequired => Bool.noConfusion isRequired) _

theorem int_hex (tables : Unicode) {s : Str} (nonempty : s ≠ [])
    (digits : ∀ c ∈ s, isHexLower (asciiLower c) = true) :
    ∃ number, tables.int 16 s = some number := by
  obtain ⟨read, scanned⟩ :=
    scanDigits_hex digits true (fun _ => nonempty) []
  have codes := fun c member => isHexLower_asciiLower.mp (digits c member)
  have isAscii : s.map tables.toAscii = s := by
    have same : ∀ c ∈ s, tables.toAscii c = id c := by
      intro c member
      have := codes c member
      exact if_pos (by omega)
    rw [List.map_congr_left same, List.map_id]
  obtain ⟨c, rest, rfl⟩ := List.exists_cons_of_ne_nil nonempty
  have first := codes c List.mem_cons_self
  have noSpace : (c :: rest).dropWhile isCSpace = c :: rest := by
    apply List.dropWhile_cons_of_neg
    simp only [isCSpace, Bool.or_eq_true, Bool.and_eq_true, decide_eq_true_eq,
      beq_iff_eq]
    omega
  have noSign : ¬ ((c :: rest).head? = some (ascii '+') ∨
      (c :: rest).head? = some (ascii '-')) := by
    simp only [List.head?_cons, Option.some.injEq]
    rintro (rfl | rfl)
    · exact absurd first (by decide)
    · exact absurd first (by decide)
  have noPrefix : dropHexPrefix (c :: rest) = c :: rest := by
    cases rest with
    | nil => rfl
    | cons x rest =>
        have second := codes x (List.mem_cons_of_mem c List.mem_cons_self)
        rw [dropHexPrefix, if_neg]
        rintro ⟨-, rfl | rfl⟩
        · exact absurd second (by decide)
        · exact absurd second (by decide)
  unfold Unicode.int
  rw [isAscii, noSpace]
  dsimp only
  rw [if_neg noSign, if_pos rfl, noPrefix, scanned]
  exact ⟨_, rfl⟩

/-! ## Entries -/

/-- The entry denotes the key. -/
inductive Denotes (entry : Str) : Str → Prop where
  | hex : IsHexKey (entry.map asciiLower) →
      Denotes entry (entry.map asciiLower)
  | lowerNpub {bytes : List UInt8} : IsNpub entry bytes →
      Denotes entry (bytesHex bytes)
  | upperNpub {text : Str} {bytes : List UInt8} : IsNpub text bytes →
      entry = text.map asciiUpper → Denotes entry (bytesHex bytes)

theorem IsHexKey.plain {s : Str} (isKey : IsHexKey s) :
    ∀ c ∈ s, c.val < 128 ∧ isAsciiUpper c = false := by
  intro c member
  have digit := List.all_eq_true.mp isKey.2 c member
  simp only [isHexLower, Bool.or_eq_true, Bool.and_eq_true, decide_eq_true_eq]
    at digit
  simp only [isAsciiUpper, Bool.and_eq_false_iff, decide_eq_false_iff_not]
  omega

theorem Denotes.isAscii {entry key : Str} (denotes : Denotes entry key) :
    IsAscii entry := by
  intro c member
  cases denotes with
  | hex isHex =>
      have digit := List.all_eq_true.mp isHex.2 _ (List.mem_map_of_mem member)
      rw [isHexLower_asciiLower] at digit
      omega
  | lowerNpub npub => exact (npub.plain c member).1
  | upperNpub npub upper =>
      rw [upper] at member
      obtain ⟨letter, isLetter, rfl⟩ := List.mem_map.mp member
      have small := (npub.plain letter isLetter).1
      rw [asciiUpper_val]
      split <;> omega

theorem normalizePubkey_hex (tables : Unicode) {s key : Str}
    (isKey : IsHexKey key) (size : (strip s).length = 64) :
    normalizePubkey tables s = some key ↔
      Denotes ((strip s).map readKelvin) key := by
  unfold normalizePubkey
  generalize strip s = s at *
  dsimp only
  rw [if_pos size]
  constructor
  · intro decoded
    split at decoded
    · cases decoded
    cases decoded
    have known := tables.toLower_ascii fun c member =>
      (isKey.plain c member).1
    rw [tables.toLower_eq known] at isKey ⊢
    exact .hex isKey
  · intro denotes
    cases denotes with
    | hex isHex =>
        have digits : ∀ c ∈ s, isHexLower (asciiLower (readKelvin c)) = true := by
          simpa using isHex.2
        have isAscii : IsAscii s := by
          intro c member
          have digit := digits c member
          by_cases sign : c = kelvin
          · rw [sign] at digit
            exact absurd digit (by decide)
          · rw [readKelvin, if_neg sign, isHexLower_asciiLower] at digit
            omega
        rw [isAscii.map_readKelvin] at isHex ⊢
        obtain ⟨number, isNumber⟩ := int_hex tables (s := s)
          (by rintro rfl; cases size) (by simpa using isHex.2)
        rw [isNumber, tables.toLower_eq isAscii.kelvinOrAscii,
          isAscii.map_readKelvin]
    | lowerNpub npub =>
        have length := npub.length
        rw [List.length_map] at length
        omega
    | upperNpub npub upper =>
        have length := congrArg List.length upper
        rw [List.length_map, List.length_map, npub.length] at length
        omega

/-- What the policy reads as the text of an npub. -/
theorem npubToHex_eq_some (tables : Unicode) {s key : Str} :
    npubToHex tables s = some key ↔
      (s = tables.toLower s ∨ s = tables.toUpper s) ∧
        ∃ bytes, IsNpub (tables.toLower s) bytes ∧ bytesHex bytes = key := by
  unfold npubToHex
  rw [← lowerNpubToHex_eq_some]
  split
  · rename_i mixed
    simp [mixed]
  · rename_i oneCase
    have oneCase : s = tables.toLower s ∨ s = tables.toUpper s := by
      tauto
    simp [oneCase]

/-- What the policy decodes is an npub once its signs for kelvin are the
letter K. -/
theorem denotes_of_npubToHex (tables : Unicode) {s key : Str}
    (decoded : npubToHex tables s = some key) :
    Denotes (s.map readKelvin) key := by
  obtain ⟨oneCase, bytes, npub, rfl⟩ := (npubToHex_eq_some tables).mp decoded
  have known := tables.toLower_ascii fun c member => (npub.plain c member).1
  rcases oneCase with lower | upper
  · rw [← lower] at npub
    have isAscii : IsAscii s := fun c member => (npub.plain c member).1
    rw [isAscii.map_readKelvin]
    exact .lowerNpub npub
  · rw [tables.toUpper_eq known] at upper
    have isUpper : (s.map readKelvin).map asciiUpper = s.map readKelvin := by
      rw [map_eq_self_iff, List.forall_mem_map]
      exact fun c member =>
        asciiUpper_readKelvin.mpr (map_eq_self_iff.mp upper.symm c member)
    refine .upperNpub npub ?_
    rw [tables.toLower_eq known, List.map_map]
    simp only [Function.comp_def, asciiUpper_asciiLower]
    exact isUpper.symm

theorem npubToHex_lowerNpub (tables : Unicode) {s : Str} {bytes : List UInt8}
    (npub : IsNpub (s.map readKelvin) bytes) :
    (str "npub1").isPrefixOf (tables.toLower s) = true ∧
      npubToHex tables s = some (bytesHex bytes) := by
  have noSign : s.map readKelvin = s := by
    rw [map_eq_self_iff]
    intro c member
    have plain := npub.plain _ (List.mem_map_of_mem member)
    apply if_neg
    rintro rfl
    exact absurd plain.2 (by decide)
  rw [noSign] at npub
  have lower := tables.toLower_plain npub.plain
  rw [npubToHex_eq_some, lower]
  exact ⟨npub.starts, .inl rfl, bytes, npub, rfl⟩

/-- A sign for kelvin lowers to the letter k, and stays itself in capitals. -/
theorem npubToHex_upperNpub (tables : Unicode) {s text : Str}
    {bytes : List UInt8} (npub : IsNpub text bytes)
    (upper : s.map readKelvin = text.map asciiUpper) :
    (str "npub1").isPrefixOf (tables.toLower s) = true ∧
      npubToHex tables s = some (bytesHex bytes) := by
  have letters : ∀ c ∈ s, ∃ letter ∈ text,
      asciiUpper letter = readKelvin c := by
    intro c member
    have image : readKelvin c ∈ s.map readKelvin :=
      List.mem_map_of_mem member
    rwa [upper, List.mem_map] at image
  have known : KelvinOrAscii s := by
    intro c member
    obtain ⟨letter, isLetter, same⟩ := letters c member
    by_cases sign : c = kelvin
    · exact .inr sign
    · have small := (npub.plain letter isLetter).1
      have value := asciiUpper_val letter
      rw [same, readKelvin, if_neg sign] at value
      left
      rw [value]
      split <;> omega
  have lower : tables.toLower s = text := by
    rw [tables.toLower_eq known, upper, List.map_map, map_eq_self_iff]
    exact fun c member => asciiLower_asciiUpper (npub.plain c member).2
  have isUpper : tables.toUpper s = s := by
    rw [tables.toUpper_eq known, map_eq_self_iff]
    intro c member
    obtain ⟨letter, -, same⟩ := letters c member
    rw [← asciiUpper_readKelvin, ← same, asciiUpper_asciiUpper]
  rw [npubToHex_eq_some, lower]
  exact ⟨npub.starts, .inr isUpper.symm, bytes, npub, rfl⟩

theorem normalizePubkey_npub (tables : Unicode) {s key : Str}
    (size : (strip s).length ≠ 64) :
    normalizePubkey tables s = some key ↔
      Denotes ((strip s).map readKelvin) key := by
  unfold normalizePubkey
  generalize strip s = s at *
  dsimp only
  rw [if_neg size]
  constructor
  · intro decoded
    split at decoded
    · exact denotes_of_npubToHex tables decoded
    · cases decoded
  · intro denotes
    cases denotes with
    | hex isHex =>
        have length := isHex.1
        rw [List.length_map, List.length_map] at length
        exact absurd length size
    | lowerNpub npub =>
        obtain ⟨starts, reads⟩ := npubToHex_lowerNpub tables npub
        rw [if_pos starts]
        exact reads
    | upperNpub npub upper =>
        obtain ⟨starts, reads⟩ := npubToHex_upperNpub tables npub upper
        rw [if_pos starts]
        exact reads

/-- The policy reads an entry as what it denotes once every sign for kelvin is
the letter K. -/
theorem normalizePubkey_eq_some (tables : Unicode) {s key : Str}
    (isKey : IsHexKey key) :
    normalizePubkey tables s = some key ↔
      Denotes ((strip s).map readKelvin) key := by
  by_cases size : (strip s).length = 64
  · exact normalizePubkey_hex tables isKey size
  · exact normalizePubkey_npub tables size

end Floonet.Plugin
