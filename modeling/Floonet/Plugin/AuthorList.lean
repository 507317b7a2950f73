import Floonet.Plugin.NpubDecoding
import Floonet.Plugin.WritePolicy

/-!
# The list of authors

The policy ignores the entries that denote no key, with a warning, and the
authors are keys in lower-case digits, apart from two kinds of entries: texts
of 64 characters that are an integer in another notation, and npubs with a
sign for kelvin.
-/

namespace Floonet.Plugin

open Python Validation

/-! ## Reading the list -/

/-- What loading reports on the standard error. -/
inductive LoadWarning where
  /-- "floonet-writepolicy: ignoring invalid authorized author `entry`\n" -/
  | invalidAuthor (entry : Str)

/-- The authors so far, and the warnings. -/
structure AuthorScan where
  authorizedAuthors : List Str
  stderr : List LoadWarning

variable (tables : Unicode)

def AuthorScan.step (scan : AuthorScan) (entry : Str) : AuthorScan :=
  let entry := strip entry
  if entry.isEmpty then scan
  else match normalizePubkey tables entry with
    | none => { scan with stderr := scan.stderr ++ [.invalidAuthor entry] }
    | some hexPubkey =>
        { scan with
          authorizedAuthors := scan.authorizedAuthors ++ [hexPubkey] }

/-- The loop of `load_config` over the entries of the list. -/
def scanAuthors (raw : Str) : AuthorScan :=
  (split ',' raw).foldl (AuthorScan.step tables) ⟨[], []⟩

/-- The pieces between the commas. -/
def pieces (raw : Str) : List Str := (split ',' raw).map strip

/-- The entries of the list; a blank piece is none. -/
def entries (raw : Str) : List Str :=
  (pieces raw).filter fun piece => !piece.isEmpty

variable {tables} {raw entry : Str}

theorem strip_of_mem_pieces (member : entry ∈ pieces raw) :
    strip entry = entry := by
  obtain ⟨piece, -, rfl⟩ := List.mem_map.mp member
  exact strip_strip piece

theorem mem_entries : entry ∈ entries raw ↔ entry ∈ pieces raw ∧ entry ≠ [] := by
  simp [entries]

theorem foldl_scan (list : List Str) (scan : AuthorScan) :
    let final := list.foldl (AuthorScan.step tables) scan
    final.authorizedAuthors = scan.authorizedAuthors ++
      list.filterMap (fun piece => if (strip piece).isEmpty then none
        else normalizePubkey tables (strip piece)) ∧
    ∀ warning, warning ∈ final.stderr ↔ warning ∈ scan.stderr ∨
      ∃ piece ∈ list, strip piece ≠ [] ∧
        normalizePubkey tables (strip piece) = none ∧
        warning = .invalidAuthor (strip piece) := by
  induction list generalizing scan with
  | nil => simp
  | cons piece list induction =>
      obtain ⟨authors, warnings⟩ := induction (scan.step tables piece)
      rw [List.foldl_cons]
      dsimp only at authors warnings ⊢
      rw [authors]
      simp only [warnings]
      cases blank : strip piece with
      | nil => simp [AuthorScan.step, blank]
      | cons c rest =>
          cases read : normalizePubkey tables (c :: rest) with
          | none => simp [AuthorScan.step, blank, read, or_assoc]
          | some author => simp [AuthorScan.step, blank, read]

theorem scanAuthors_authors (tables : Unicode) (raw : Str) :
    (scanAuthors tables raw).authorizedAuthors = parseAuthors tables raw :=
  (foldl_scan (split ',' raw) ⟨[], []⟩).1

theorem mem_authors {author : Str} : author ∈ parseAuthors tables raw ↔
    ∃ entry ∈ entries raw, normalizePubkey tables entry = some author := by
  simp only [parseAuthors, List.mem_filterMap, mem_entries, pieces,
    List.mem_map]
  constructor
  · rintro ⟨piece, member, read⟩
    split at read
    · cases read
    · rename_i nonblank
      exact ⟨strip piece, ⟨⟨piece, member, rfl⟩,
        fun blank => nonblank (List.isEmpty_iff.mpr blank)⟩, read⟩
  · rintro ⟨_, ⟨⟨piece, member, rfl⟩, nonblank⟩, read⟩
    exact ⟨piece, member, by rw [if_neg (by simpa using nonblank), read]⟩

theorem mem_stderr : .invalidAuthor entry ∈ (scanAuthors tables raw).stderr ↔
    entry ∈ entries raw ∧ normalizePubkey tables entry = none := by
  rw [scanAuthors, (foldl_scan (split ',' raw) ⟨[], []⟩).2, mem_entries, pieces,
    List.mem_map]
  constructor
  · rintro (before | ⟨piece, member, nonblank, unread, same⟩)
    · cases before
    · cases same
      exact ⟨⟨⟨piece, member, rfl⟩, nonblank⟩, unread⟩
  · rintro ⟨⟨⟨piece, member, rfl⟩, nonblank⟩, unread⟩
    exact .inr ⟨piece, member, nonblank, unread, rfl⟩

/-! ## What an entry is read as -/

theorem bytesHex_isHexKey {bytes : List UInt8} (size : bytes.length = 32) :
    IsHexKey (bytesHex bytes) := by
  have digits : ∀ value : Fin 16,
      isHexLower (ascii (Text.hexDigit value.val)) = true := by
    decide
  rw [bytesHex, Text.hexEncode, str, String.toList_ofList]
  constructor
  · rw [List.length_map, Text.length_hexEncodeChars, size]
  · rw [List.all_map, List.all_eq_true]
    intro c member
    obtain ⟨digit, rfl⟩ := Text.mem_hexEncodeChars member
    exact digits digit

theorem Denotes.isHexKey {key : Str} (denotes : Denotes entry key) :
    IsHexKey key := by
  cases denotes with
  | hex isHex => exact isHex
  | lowerNpub npub => exact bytesHex_isHexKey npub.size
  | upperNpub npub => exact bytesHex_isHexKey npub.size

/-- The entry is read as a key but denotes none: an integer of 64 characters
that are not all digits, or an npub with a sign for kelvin. -/
inductive Misread (tables : Unicode) (entry : Str) : Prop where
  | number : entry.length = 64 → tables.int 16 entry ≠ none →
      ¬ IsHexKey (entry.map asciiLower) → Misread tables entry
  | kelvin {key : Str} : kelvin ∈ entry →
      Denotes (entry.map readKelvin) key → Misread tables entry

theorem map_readKelvin_of_notMem (absent : kelvin ∉ entry) :
    entry.map readKelvin = entry := by
  rw [map_eq_self_iff]
  intro c member
  apply if_neg
  rintro rfl
  exact absent member

/-- What the policy reads as an author is a key that the entry denotes, unless
the entry is misread. -/
theorem denotes_of_normalizePubkey {author : Str}
    (stripped : strip entry = entry) (usual : ¬ Misread tables entry)
    (read : normalizePubkey tables entry = some author) :
    Denotes entry author := by
  have isKey : IsHexKey author := by
    have unfolded := read
    rw [normalizePubkey, stripped] at unfolded
    split at unfolded
    · rename_i size
      split at unfolded
      · cases unfolded
      · rename_i number isInt
        cases unfolded
        by_cases isHex : IsHexKey (entry.map asciiLower)
        · have isAscii := (Denotes.hex isHex).isAscii
          rwa [toLower_isAscii tables isAscii]
        · exact absurd (.number size (by simp [isInt]) isHex) usual
    · split at unfolded
      · obtain ⟨-, bytes, npub, rfl⟩ :=
          (npubToHex_eq_some tables).mp unfolded
        exact bytesHex_isHexKey npub.size
      · cases unfolded
  have denotes := (normalizePubkey_eq_some tables isKey).mp read
  rw [stripped] at denotes
  by_cases sign : kelvin ∈ entry
  · exact absurd (.kelvin sign denotes) usual
  · rwa [map_readKelvin_of_notMem sign] at denotes

namespace Misread

theorem read (misread : Misread tables entry) (stripped : strip entry = entry) :
    ∃ author, normalizePubkey tables entry = some author := by
  cases misread with
  | number size isInt notHex =>
      obtain ⟨number, isNumber⟩ := Option.ne_none_iff_exists'.mp isInt
      refine ⟨tables.toLower entry, ?_⟩
      rw [normalizePubkey, stripped, if_pos size, isNumber]
  | @kelvin key sign denotes =>
      refine ⟨key, ?_⟩
      rw [normalizePubkey_eq_some tables denotes.isHexKey, stripped]
      exact denotes

theorem denotes_nothing (misread : Misread tables entry) :
    ¬ ∃ key, Denotes entry key := by
  rintro ⟨key, denotes⟩
  cases misread with
  | number size isInt notHex =>
      cases denotes with
      | hex isHex => exact notHex isHex
      | lowerNpub npub =>
          have length := npub.length
          omega
      | upperNpub npub upper =>
          have length := congrArg List.length upper
          rw [List.length_map, npub.length] at length
          omega
  | kelvin sign =>
      exact absurd (denotes.isAscii _ sign) (by decide)

end Misread

/-! ## Strict reading -/

/-- Every author is a key in lower-case digits, and what is listed but denotes
no key adds no author and is reported. -/
structure ReadsStrictly (tables : Unicode) (raw : Str) (listed : List Str)
    (authors : List Str) : Prop where
  canonical : ∀ author ∈ authors, IsHexKey author
  ignored : ∀ entry ∈ listed, (¬∃ key, Denotes entry key) →
    (∀ scan : AuthorScan,
      (scan.step tables entry).authorizedAuthors = scan.authorizedAuthors) ∧
    .invalidAuthor entry ∈ (scanAuthors tables raw).stderr

theorem AuthorScan.step_read {author : Str} (stripped : strip entry = entry)
    (nonblank : entry ≠ []) (read : normalizePubkey tables entry = some author)
    (scan : AuthorScan) :
    (scan.step tables entry).authorizedAuthors =
      scan.authorizedAuthors ++ [author] := by
  rw [step, stripped, if_neg (by simpa using nonblank), read]

theorem AuthorScan.step_unread (stripped : strip entry = entry)
    (unread : normalizePubkey tables entry = none) (scan : AuthorScan) :
    (scan.step tables entry).authorizedAuthors = scan.authorizedAuthors := by
  rw [step, stripped]
  split
  · rfl
  · rw [unread]

theorem ReadsStrictly.usual {listed authors : List Str}
    (strict : ReadsStrictly tables raw listed authors)
    (covered : entries raw ⊆ listed) :
    ∀ entry ∈ entries raw, ¬ Misread tables entry := by
  intro entry member misread
  obtain ⟨piece, nonblank⟩ := mem_entries.mp member
  have stripped := strip_of_mem_pieces piece
  obtain ⟨author, read⟩ := misread.read stripped
  obtain ⟨adds, -⟩ :=
    strict.ignored entry (covered member) misread.denotes_nothing
  have added := AuthorScan.step_read stripped nonblank read ⟨[], []⟩
  rw [adds] at added
  cases added

theorem readsStrictly_of_usual
    (usual : ∀ entry ∈ entries raw, ¬ Misread tables entry) :
    ReadsStrictly tables raw (entries raw) (parseAuthors tables raw) where
  canonical := by
    intro author member
    obtain ⟨entry, isEntry, read⟩ := mem_authors.mp member
    have stripped := strip_of_mem_pieces (mem_entries.mp isEntry).1
    exact (denotes_of_normalizePubkey stripped (usual entry isEntry)
      read).isHexKey
  ignored := by
    intro entry isEntry nothing
    have stripped := strip_of_mem_pieces (mem_entries.mp isEntry).1
    have unread : normalizePubkey tables entry = none := by
      cases outcome : normalizePubkey tables entry with
      | none => rfl
      | some author =>
          exact absurd ⟨author, denotes_of_normalizePubkey stripped
            (usual entry isEntry) outcome⟩ nothing
    exact ⟨AuthorScan.step_unread stripped unread,
      mem_stderr.mpr ⟨isEntry, unread⟩⟩

theorem not_denotes_nil : ¬∃ key, Denotes [] key := by
  rintro ⟨key, denotes⟩
  cases denotes with
  | hex isHex => exact absurd isHex.1 (by simp)
  | lowerNpub npub => exact absurd npub.length (by simp)
  | upperNpub npub upper =>
      have length := congrArg List.length upper
      rw [List.length_map, npub.length] at length
      cases length

variable {Secs : Type} {float : Str → Option Secs} {openFile : Str → FileRead}
  {defaultEnvFile : Str} {env : Dict Str} {cfg : Cfg Secs}

/-- The entries of the list are read strictly exactly if none is misread.  The
blank pieces of the list, which are skipped without a warning, are no
entries.  The loop that warns collects the authors of the configuration. -/
theorem authors_strict_iff
    (loaded : loadConfig tables float openFile defaultEnvFile env = .ok cfg) :
    let raw := (Settings.of env
      (envFile openFile defaultEnvFile env)).authorizedAuthors
    (ReadsStrictly tables raw (entries raw) cfg.authorizedAuthors ↔
      ∀ entry ∈ entries raw, ¬ Misread tables entry) ∧
    (ReadsStrictly tables raw (pieces raw) cfg.authorizedAuthors ↔
      (∀ entry ∈ entries raw, ¬ Misread tables entry) ∧ [] ∉ pieces raw) ∧
    (scanAuthors tables raw).authorizedAuthors = cfg.authorizedAuthors := by
  intro raw
  have covered : entries raw ⊆ pieces raw :=
    fun entry member => (mem_entries.mp member).1
  rw [loadConfig_authors loaded]
  refine ⟨?_, ?_, scanAuthors_authors tables raw⟩
  · exact ⟨fun strict => strict.usual (List.Subset.refl _),
      readsStrictly_of_usual⟩
  constructor
  · intro strict
    refine ⟨strict.usual covered, fun blank => ?_⟩
    have reported := (strict.ignored [] blank not_denotes_nil).2
    exact (mem_entries.mp (mem_stderr.mp reported).1).2 rfl
  · rintro ⟨usual, noBlank⟩
    have same : pieces raw = entries raw := by
      symm
      rw [entries, List.filter_eq_self]
      intro piece member
      have nonblank : piece ≠ [] := by
        rintro rfl
        exact noBlank member
      simpa using nonblank
    rw [same]
    exact readsStrictly_of_usual usual

section Samples

theorem authors_strict_iff_npub :
    let raw := (authorSettings authorNpub).authorizedAuthors
    (ReadsStrictly Unicode.basic raw (entries raw) authorCfg.authorizedAuthors ↔
      ∀ entry ∈ entries raw, ¬ Misread Unicode.basic entry) ∧
    (ReadsStrictly Unicode.basic raw (pieces raw) authorCfg.authorizedAuthors ↔
      (∀ entry ∈ entries raw, ¬ Misread Unicode.basic entry) ∧
        [] ∉ pieces raw) ∧
    (scanAuthors Unicode.basic raw).authorizedAuthors =
      authorCfg.authorizedAuthors :=
  authors_strict_iff authorNpub_loads

/-- A number in the notation of programming languages. -/
def prefixedNumber : Str := str "0x" ++ (List.replicate 31 (str "03")).flatten

def prefixedCfg : Cfg Nat :=
  { defaultCfg with authorizedAuthors := [prefixedNumber] }

theorem prefixedNumber_notKey : ¬ IsHexKey prefixedNumber := by
  unfold IsHexKey
  decide +kernel

/-- The number becomes an author. -/
theorem author_misread :
    let raw := (authorSettings prefixedNumber).authorizedAuthors
    loadAuthors prefixedNumber = .ok prefixedCfg ∧
      ¬ ReadsStrictly Unicode.basic raw (entries raw)
        prefixedCfg.authorizedAuthors ∧
      ¬ ReadsStrictly Unicode.basic raw (pieces raw)
        prefixedCfg.authorizedAuthors := by
  intro raw
  have listed : prefixedNumber ∈ prefixedCfg.authorizedAuthors :=
    List.mem_cons_self
  refine ⟨toOption_eq_some.mp (by decide +kernel), fun strict => ?_,
    fun strict => ?_⟩
  · exact prefixedNumber_notKey (strict.canonical _ listed)
  · exact prefixedNumber_notKey (strict.canonical _ listed)

end Samples

end Floonet.Plugin
