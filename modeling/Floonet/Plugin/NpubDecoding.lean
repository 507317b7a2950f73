import Floonet.Bech32.Encoding
import Floonet.Plugin.AuthorKeys

/-!
# Decoding npubs

On ASCII text the policy decodes exactly the npubs of keys in one case.  A
text that differs from an npub in one symbol has another residue, so it is
not decoded.
-/

namespace Floonet.Plugin

open Python

/-! ## Encoded keys -/

/-- The npub of a key, in lower case. -/
def encodeNpub (key : List UInt8) : Str := npubText (Bech32.toBase32 key)

theorem isNpub_iff {s : Str} {key : List UInt8} :
    IsNpub s key ↔ key.length = 32 ∧ s = encodeNpub key := by
  constructor
  · rintro ⟨size, data, regrouped, rfl⟩
    rw [Bech32.fromBase32_eq_some_iff] at regrouped
    rw [regrouped]
    exact ⟨size, rfl⟩
  · rintro ⟨size, rfl⟩
    exact ⟨size, _, Bech32.fromBase32_toBase32 key, rfl⟩

section Ascii

variable (tables : Unicode) {s : Str}

theorem toLower_isAscii (isAscii : IsAscii s) :
    tables.toLower s = s.map asciiLower := by
  rw [tables.toLower_eq isAscii.kelvinOrAscii, isAscii.map_readKelvin]

theorem toUpper_isAscii (isAscii : IsAscii s) :
    tables.toUpper s = s.map asciiUpper :=
  tables.toUpper_eq isAscii.kelvinOrAscii

theorem npubToHex_ascii (isAscii : IsAscii s) {hex : Str} :
    npubToHex tables s = some hex ↔ ∃ key : List UInt8, key.length = 32 ∧
      (s = encodeNpub key ∨ s = (encodeNpub key).map asciiUpper) ∧
      hex = bytesHex key := by
  rw [npubToHex_eq_some, toLower_isAscii tables isAscii,
    toUpper_isAscii tables isAscii]
  constructor
  · rintro ⟨oneCase, key, npub, rfl⟩
    obtain ⟨size, lower⟩ := isNpub_iff.mp npub
    refine ⟨key, size, ?_, rfl⟩
    rcases oneCase with isLower | isUpper
    · exact .inl (isLower.trans lower)
    · right
      rw [← lower, List.map_map]
      simp only [Function.comp_def, asciiUpper_asciiLower]
      exact isUpper
  · rintro ⟨key, size, oneCase, rfl⟩
    have npub : IsNpub (encodeNpub key) key := isNpub_iff.mpr ⟨size, rfl⟩
    have lowered : (encodeNpub key).map asciiLower = encodeNpub key := by
      rw [map_eq_self_iff]
      intro c member
      rw [asciiLower, (npub.plain c member).2]
      rfl
    rcases oneCase with rfl | rfl
    · exact ⟨.inl lowered.symm, key, lowered.symm ▸ npub, rfl⟩
    · have raised : ((encodeNpub key).map asciiUpper).map asciiLower =
          encodeNpub key := by
        rw [List.map_map, map_eq_self_iff]
        exact fun c member => asciiLower_asciiUpper (npub.plain c member).2
      refine ⟨.inr ?_, key, raised.symm ▸ npub, rfl⟩
      rw [List.map_map]
      simp only [Function.comp_def, asciiUpper_asciiUpper]

end Ascii

/-! ## Substitutions -/

theorem symbolPoint_injective {left right : Fin 32}
    (same : symbolPoint left = symbolPoint right) : left = right := by
  have values := congrArg (bech32Charset.idxOf? ·) same
  simp only [charset_idxOf?, Option.some.injEq] at values
  exact Fin.ext values

theorem symbols_substitute {front : List Nat} {symbols symbols' : List (Fin 32)}
    (residue : Bech32.polymod (front ++ symbols.map Fin.val) =
      Bech32.polymod (front ++ symbols'.map Fin.val))
    {place : Nat} {c : CodePoint} (within : place < symbols.length)
    (same : (symbols.map symbolPoint).set place c =
      symbols'.map symbolPoint) : symbolPoint symbols[place] = c := by
  have length := congrArg List.length same
  rw [List.length_set, List.length_map, List.length_map] at length
  obtain ⟨symbol, rfl⟩ : ∃ symbol, c = symbolPoint symbol := by
    refine ⟨symbols'[place], ?_⟩
    have entry := congrArg (·[place]?) same
    simpa [within, length ▸ within] using entry
  have others : symbols' = symbols.take place ++
      symbol :: symbols.drop (place + 1) := by
    rw [← List.map_set] at same
    rw [← List.map_injective_iff.mpr (fun _ _ => symbolPoint_injective) same,
      List.set_eq_take_append_cons_drop, if_pos within]
  have whole : symbols = symbols.take place ++
      symbols[place] :: symbols.drop (place + 1) := by
    rw [← List.drop_eq_getElem_cons within, List.take_append_drop]
  have split : ∀ symbol : Fin 32, front ++ (symbols.take place ++
      symbol :: symbols.drop (place + 1)).map Fin.val =
        (front ++ (symbols.take place).map Fin.val) ++
          symbol.val :: (symbols.drop (place + 1)).map Fin.val := by
    intro symbol
    rw [List.map_append, List.map_cons, List.append_assoc]
  have sameSymbol : symbols[place] = symbol := by
    apply Bech32.polymod_substitute
    rw [← split, ← split, ← whole, ← others]
    exact residue
  rw [sameSymbol]

theorem encodeNpub_symbols (key : List UInt8) : ∃ symbols : List (Fin 32),
    encodeNpub key = str "npub1" ++ symbols.map symbolPoint ∧
      Bech32.polymod (Bech32.expandPrefix "npub".toList ++
        symbols.map Fin.val) = 1 := by
  refine ⟨_, ?_, (Bech32.polymod_eq_iff .bech32 _ (Bech32.toBase32 key)
    rfl).mpr rfl⟩
  rw [encodeNpub, npubText_eq, ← List.singleton_append, ← List.append_assoc]
  rfl

/-- Npubs that agree but for one place behind the separator agree there,
too. -/
theorem encodeNpub_substitute {key key' : List UInt8} {place : Nat}
    {c : CodePoint} (behind : 5 ≤ place)
    (within : place < (encodeNpub key).length)
    (same : (encodeNpub key).set place c = encodeNpub key') :
    (encodeNpub key)[place] = c := by
  obtain ⟨symbols, text, residue⟩ := encodeNpub_symbols key
  obtain ⟨symbols', text', residue'⟩ := encodeNpub_symbols key'
  have five : (str "npub1").length = 5 := rfl
  simp only [text, text'] at same within ⊢
  rw [List.length_append, List.length_map] at within
  rw [List.set_append_right _ _ (by omega), List.append_cancel_left_eq] at same
  rw [List.getElem_append_right (by omega), List.getElem_map]
  exact symbols_substitute (residue.trans residue'.symm) (by omega) same

/-- The lower case of a text that the policy decodes. -/
theorem lower_of_npubToHex (tables : Unicode) {s hex : Str}
    (isAscii : IsAscii s) (decoded : npubToHex tables s = some hex) :
    ∃ key : List UInt8, s.map asciiLower = encodeNpub key := by
  obtain ⟨-, key, npub, -⟩ := (npubToHex_eq_some tables).mp decoded
  rw [toLower_isAscii tables isAscii] at npub
  exact ⟨key, (isNpub_iff.mp npub).2⟩

theorem npubToHex_substitute (tables : Unicode) {s hex : Str}
    (isAscii : IsAscii s) (decoded : npubToHex tables s = some hex)
    {place : Nat} (behind : 5 ≤ place) (within : place < s.length)
    {c : CodePoint} (small : c.val < 128)
    (different : asciiLower c ≠ asciiLower s[place]) :
    npubToHex tables (s.set place c) = none := by
  have stillAscii : IsAscii (s.set place c) := by
    intro d member
    rcases List.mem_or_eq_of_mem_set member with old | rfl
    · exact isAscii d old
    · exact small
  cases outcome : npubToHex tables (s.set place c) with
  | none => rfl
  | some hex' =>
      obtain ⟨key, lower⟩ := lower_of_npubToHex tables isAscii decoded
      obtain ⟨key', lower'⟩ := lower_of_npubToHex tables stillAscii outcome
      rw [List.map_set, lower] at lower'
      have bound : place < (encodeNpub key).length := by
        rw [← lower, List.length_map]
        exact within
      have agree := encodeNpub_substitute behind bound lower'
      simp only [← lower, List.getElem_map] at agree
      exact absurd agree.symm different

/-- The policy decodes a text exactly if it is the npub of a key in one case,
and then to that key; so the npub of a key decodes to the key, and an npub with
one symbol replaced is not decoded. -/
theorem npubToHex_exact (tables : Unicode) {s : Str} (isAscii : IsAscii s) :
    (∀ hex, npubToHex tables s = some hex ↔
      ∃ key : List UInt8, key.length = 32 ∧
        (s = encodeNpub key ∨ s = (encodeNpub key).map asciiUpper) ∧
        hex = bytesHex key) ∧
    (∀ key : List UInt8, key.length = 32 →
      npubToHex tables (encodeNpub key) = some (bytesHex key)) ∧
    (∀ hex, npubToHex tables s = some hex → ∀ place, 5 ≤ place →
      ∀ within : place < s.length, ∀ c : CodePoint, c.val < 128 →
        asciiLower c ≠ asciiLower s[place] →
          npubToHex tables (s.set place c) = none) := by
  refine ⟨fun hex => npubToHex_ascii tables isAscii, ?_, ?_⟩
  · intro key size
    have npub : IsNpub (encodeNpub key) key := isNpub_iff.mpr ⟨size, rfl⟩
    exact (npubToHex_ascii tables fun c member =>
      (npub.plain c member).1).mpr ⟨key, size, .inl rfl, rfl⟩
  · intro hex decoded place behind within c small different
    exact npubToHex_substitute tables isAscii decoded behind within small
      different

section Samples

/-- The npub of the key whose bytes are all 0xAA. -/
def sampleNpub : Str :=
  str "npub1424242424242424242424242424242424242424242424242424qamrcaj"

example : sampleNpub = encodeNpub (List.replicate 32 0xAA) := by
  decide +kernel

theorem sampleNpub_isAscii : IsAscii sampleNpub := by
  have all : sampleNpub.all (·.val < 128) = true := by decide +kernel
  intro c member
  exact of_decide_eq_true (List.all_eq_true.mp all c member)

theorem npubToHex_exact_sample :
    (∀ hex, npubToHex Unicode.basic sampleNpub = some hex ↔
      ∃ key : List UInt8, key.length = 32 ∧
        (sampleNpub = encodeNpub key ∨
          sampleNpub = (encodeNpub key).map asciiUpper) ∧
        hex = bytesHex key) ∧
    (∀ key : List UInt8, key.length = 32 →
      npubToHex Unicode.basic (encodeNpub key) = some (bytesHex key)) ∧
    (∀ hex, npubToHex Unicode.basic sampleNpub = some hex → ∀ place, 5 ≤ place →
      ∀ within : place < sampleNpub.length, ∀ c : CodePoint, c.val < 128 →
        asciiLower c ≠ asciiLower sampleNpub[place] →
          npubToHex Unicode.basic (sampleNpub.set place c) = none) :=
  npubToHex_exact Unicode.basic sampleNpub_isAscii

end Samples

end Floonet.Plugin
