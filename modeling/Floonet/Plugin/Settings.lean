import Floonet.Plugin.AuthorKeys

/-!
# Effective settings

A setting has the value of the environment, or else the last one that the file
assigns.  A loaded configuration has the kinds that are read from the list of
kinds, and the authors that the entries denote.
-/

namespace Floonet.Plugin

open Python Validation

/-! ## Precedence -/

/-- The last value that a file assigns to a key. -/
def lastAssigned (file : FileRead) (key : Str) : Option Str :=
  match file with
  | .text content =>
      ((readlines content).filterMap readLine).reverse.lookup key
  | _ => none

/-- The effective value of a setting. -/
def effective (env : Dict Str) (file : FileRead) (key : String) : Option Str :=
  (env (str key)).or (lastAssigned file (str key))

theorem foldl_setLine (lines : List Str) (values : Dict Str) (key : Str) :
    lines.foldl setLine values key =
      ((lines.filterMap readLine).reverse.lookup key).or (values key) := by
  induction lines generalizing values with
  | nil => simp
  | cons line lines induction =>
      rw [List.foldl_cons, induction, setLine]
      cases assigned : readLine line with
      | none => rw [List.filterMap_cons_none assigned]
      | some entry =>
          obtain ⟨name, value⟩ := entry
          rw [List.filterMap_cons_some assigned, List.reverse_cons,
            List.lookup_append, Option.or_assoc]
          congr 1
          dsimp only
          by_cases same : key = name
          · rw [same, Dict.set_self]
            simp
          · rw [Dict.set_other _ _ same]
            simp [List.lookup_cons, beq_eq_false_iff_ne.mpr same]

theorem readEnvFile_lookup {file : FileRead} {values : Dict Str}
    (read : readEnvFile file = .ok values) (key : Str) :
    values key = lastAssigned file key := by
  cases file with
  | osError =>
      cases read
      rfl
  | undecodable => cases read
  | text content =>
      cases read
      rw [foldl_setLine, Dict.empty, Option.or_none]
      rfl

/-! ## Kinds -/

/-- The integer is read from the list. -/
def Listed (tables : Unicode) (raw : Str) (kind : Int) : Prop :=
  ∃ piece ∈ split ',' raw, tables.int 10 piece = some kind

theorem strip_eq_nil {s : Str} (blank : strip s = []) :
    ∀ c ∈ s, isspace c = true := by
  intro c member
  rw [← List.takeWhile_append_dropWhile (p := isspace) (l := s)] at member
  rcases List.mem_append.mp member with front | back
  · exact List.mem_takeWhile_imp front
  · exact List.rdropWhile_eq_nil_iff.mp blank c back

theorem int_blank (tables : Unicode) {s : Str} (blank : strip s = []) :
    tables.int 10 s = none := by
  have spaces : ∀ c ∈ (s.map tables.toAscii).dropWhile isCSpace,
      c.val ≤ 32 := by
    intro c member
    obtain ⟨d, isSource, rfl⟩ :=
      List.mem_map.mp (List.dropWhile_subset isCSpace member)
    have space := strip_eq_nil blank d isSource
    unfold Unicode.toAscii
    split
    · rename_i small
      simp only [isspace, Bool.or_eq_true, Bool.and_eq_true,
        decide_eq_true_eq, beq_iff_eq] at space
      omega
    · decide
  unfold Unicode.int
  generalize (s.map tables.toAscii).dropWhile isCSpace = text at *
  cases text with
  | nil => rfl
  | cons c rest =>
      have small := spaces c List.mem_cons_self
      have other : ∀ sign : Char, 32 < sign.toNat → sign.toNat < 128 →
          c ≠ ascii sign := by
        rintro sign low high rfl
        rw [ascii, Fin.val_ofNat, Nat.mod_eq_of_lt (by omega)] at small
        omega
      have noDigit : digitValue c = none := by
        rw [digitValue, if_neg (by omega), if_neg (by omega),
          if_neg (by omega)]
      have scanned : scanDigits 10 true [] (c :: rest) = none := by
        rw [scanDigits, if_neg (other '_' (by decide) (by decide)), noDigit]
        rfl
      simp [other '+' (by decide) (by decide),
        other '-' (by decide) (by decide), scanned]

theorem mapM_mem {Item Image : Type} {f : Item → Option Image}
    {items : List Item} {images : List Image}
    (mapped : items.mapM f = some images) {image : Image} :
    image ∈ images ↔ ∃ item ∈ items, f item = some image := by
  induction items generalizing images with
  | nil =>
      cases mapped
      simp
  | cons item items induction =>
      simp only [List.mapM_cons, Option.pure_def, Option.bind_eq_bind,
        Option.bind_eq_some_iff, Option.some.injEq] at mapped
      obtain ⟨first, isFirst, rest, isRest, rfl⟩ := mapped
      simp [isFirst, induction isRest, eq_comm]

theorem parseKinds_mem {tables : Unicode} {raw : Str} {kinds : List Int}
    (parsed : parseKinds tables raw = .ok kinds) {kind : Int} :
    kind ∈ kinds ↔ Listed tables raw kind := by
  simp only [parseKinds, bind_eq_ok, demand_eq_ok] at parsed
  obtain ⟨read, mapped, -, -, same⟩ := parsed
  cases pure_eq_ok.mp same
  rw [mapM_mem mapped]
  constructor
  · rintro ⟨piece, member, isKind⟩
    exact ⟨piece, (List.mem_filter.mp member).1, isKind⟩
  · rintro ⟨piece, member, isKind⟩
    refine ⟨piece, List.mem_filter.mpr ⟨member, ?_⟩, isKind⟩
    cases blank : strip piece with
    | nil =>
        rw [int_blank tables blank] at isKind
        cases isKind
    | cons c rest => rfl

/-! ## Authors -/

/-- An entry of the list denotes the key. -/
def NamesAuthor (raw key : Str) : Prop :=
  ∃ entry ∈ split ',' raw, Denotes (strip entry) key

/-- An entry of the list denotes the key once every sign for kelvin in it is
the letter K. -/
def NamesAuthorByKelvin (raw key : Str) : Prop :=
  ∃ entry ∈ split ',' raw, Denotes ((strip entry).map readKelvin) key

theorem parseAuthors_mem {tables : Unicode} {raw key : Str}
    (isKey : IsHexKey key) :
    key ∈ parseAuthors tables raw ↔ NamesAuthorByKelvin raw key := by
  simp only [parseAuthors, List.mem_filterMap, NamesAuthorByKelvin]
  apply exists_congr
  intro entry
  apply and_congr_right
  intro _
  have reads := normalizePubkey_eq_some tables (s := strip entry) isKey
  rw [strip_strip] at reads
  rw [← reads]
  split
  · rename_i blank
    rw [List.isEmpty_iff.mp blank]
    simp [normalizePubkey, strip, rstripWhere, Unicode.toLower,
      Unicode.lowerFrom, str]
  · rfl

end Floonet.Plugin
