/-!
# Tables with a primary key and a partial unique index

A `Table` carries the two constraints a relational engine enforces: no two
rows share a primary key, and no two rows share an entry of the unique index.
The index is partial: a row for which `index` is `none` is not in it.  Every
statement computes the rows it would leave behind; `commit` refuses them when
they violate a constraint, and the caller keeps the old table.
-/

namespace Relational

variable {Row Key Ix : Type}

/-- Two rows that may stand in one table. -/
def Compatible (key : Row → Key) (index : Row → Option Ix)
    (left right : Row) : Prop :=
  key left ≠ key right ∧ ∀ entry ∈ index left, entry ∉ index right

instance [DecidableEq Key] [DecidableEq Ix] (key : Row → Key)
    (index : Row → Option Ix) (left right : Row) :
    Decidable (Compatible key index left right) :=
  inferInstanceAs (Decidable (_ ∧ _))

theorem Compatible.symm {key : Row → Key} {index : Row → Option Ix}
    {left right : Row} (compatible : Compatible key index left right) :
    Compatible key index right left :=
  ⟨compatible.1.symm, fun entry inRight inLeft =>
    compatible.2 entry inLeft inRight⟩

/-- Rows of which no two violate a constraint. -/
@[ext] structure Table (key : Row → Key) (index : Row → Option Ix) where
  rows : List Row
  compatible : rows.Pairwise (Compatible key index)

namespace Table

variable [DecidableEq Key] [DecidableEq Ix]
  {key : Row → Key} {index : Row → Option Ix}

def empty : Table key index := ⟨[], .nil⟩

/-- Replace the rows, unless a constraint would be violated. -/
def commit (rows : List Row) : Option (Table key index) :=
  if compatible : rows.Pairwise (Compatible key index) then
    some ⟨rows, compatible⟩
  else none

/-! ## Queries -/

/-- The first row satisfying a condition. -/
def select (table : Table key index) (condition : Row → Bool) : Option Row :=
  table.rows.find? condition

/-- Whether some row satisfies a condition. -/
def exists? (table : Table key index) (condition : Row → Bool) : Bool :=
  table.rows.any condition

/-! ## Statements -/

/-- `INSERT`. -/
def insert (table : Table key index) (row : Row) :
    Option (Table key index) :=
  commit (table.rows ++ [row])

/-- `UPDATE ... WHERE`; also the number of rows that matched. -/
def update (table : Table key index) (condition : Row → Bool)
    (change : Row → Row) : Option (Table key index × Nat) :=
  (commit (table.rows.map fun row =>
    if condition row then change row else row)).map
      fun updated => (updated, table.rows.countP condition)

/-- `DELETE ... WHERE`. -/
def delete (table : Table key index) (condition : Row → Bool) :
    Table key index :=
  ⟨table.rows.filter fun row => !condition row,
    table.compatible.filter _⟩

/-- `INSERT ... ON CONFLICT(key) DO UPDATE ... WHERE`: a row with the same key
is changed instead if it satisfies the condition, and nothing happens if it
does not. -/
def upsert (table : Table key index) (row : Row) (condition : Row → Bool)
    (change : Row → Row) : Option (Table key index × Nat) :=
  if table.exists? fun old => decide (key old = key row) then
    table.update (fun old => decide (key old = key row) && condition old)
      change
  else (table.insert row).map fun inserted => (inserted, 1)

/-! ## Rows of a table -/

theorem commit_eq_some {rows : List Row} {table : Table key index} :
    commit rows = some table ↔ table.rows = rows := by
  unfold commit
  constructor
  · intro committed
    split at committed
    · cases committed
      rfl
    · cases committed
  · intro equal
    subst equal
    simp [table.compatible]

omit [DecidableEq Key] [DecidableEq Ix] in
theorem eq_or_compatible (table : Table key index) {left right : Row}
    (leftMember : left ∈ table.rows) (rightMember : right ∈ table.rows) :
    left = right ∨ Compatible key index left right := by
  refine List.Pairwise.forall_of_forall_of_flip
    (R := fun left right => left = right ∨ Compatible key index left right)
    (fun _ _ => .inl rfl) (table.compatible.imp .inr) ?_
    leftMember rightMember
  exact table.compatible.imp fun compatible => .inr compatible.symm

omit [DecidableEq Key] [DecidableEq Ix] in
theorem eq_of_key (table : Table key index) {left right : Row}
    (leftMember : left ∈ table.rows) (rightMember : right ∈ table.rows)
    (sameKey : key left = key right) : left = right := by
  rcases table.eq_or_compatible leftMember rightMember with same | compatible
  · exact same
  · exact absurd sameKey compatible.1

omit [DecidableEq Key] [DecidableEq Ix] in
/-- An entry of the unique index determines the row. -/
theorem eq_of_index (table : Table key index) (entry : Ix) {left right : Row}
    (leftMember : left ∈ table.rows) (rightMember : right ∈ table.rows)
    (leftEntry : index left = some entry)
    (rightEntry : index right = some entry) : left = right := by
  rcases table.eq_or_compatible leftMember rightMember with same | compatible
  · exact same
  · exact absurd rightEntry (compatible.2 entry leftEntry)

omit [DecidableEq Key] [DecidableEq Ix] in
theorem select_eq_some {table : Table key index} {condition : Row → Bool}
    {row : Row}
    (unique : ∀ left ∈ table.rows, ∀ right ∈ table.rows,
      condition left → condition right → left = right) :
    table.select condition = some row ↔
      row ∈ table.rows ∧ condition row = true := by
  constructor
  · intro selected
    exact ⟨List.mem_of_find?_eq_some selected, List.find?_some selected⟩
  · rintro ⟨member, holds⟩
    cases found : table.select condition with
    | none =>
        have refuted := List.find?_eq_none.mp found row member
        exact absurd holds refuted
    | some other =>
        rw [unique other (List.mem_of_find?_eq_some found) row member
          (List.find?_some found) holds]

omit [DecidableEq Key] [DecidableEq Ix] in
theorem select_eq_none {table : Table key index} {condition : Row → Bool} :
    table.select condition = none ↔
      ∀ row ∈ table.rows, condition row = false := by
  simp [select]

omit [DecidableEq Key] [DecidableEq Ix] in
theorem exists?_eq_true {table : Table key index} {condition : Row → Bool} :
    table.exists? condition = true ↔
      ∃ row ∈ table.rows, condition row = true := by
  simp [exists?]

omit [DecidableEq Key] [DecidableEq Ix] in
theorem exists?_eq_false {table : Table key index} {condition : Row → Bool} :
    table.exists? condition = false ↔
      ∀ row ∈ table.rows, condition row = false := by
  simp [exists?]

omit [DecidableEq Ix] in
theorem select_key {table : Table key index} {value : Key} {row : Row} :
    table.select (fun row => decide (key row = value)) = some row ↔
      row ∈ table.rows ∧ key row = value := by
  rw [select_eq_some, decide_eq_true_iff]
  intro left leftMember right rightMember leftKey rightKey
  rw [decide_eq_true_iff] at leftKey rightKey
  exact table.eq_of_key leftMember rightMember (leftKey.trans rightKey.symm)

/-! ## What a statement leaves behind -/

theorem insert_rows {table inserted : Table key index} {row : Row}
    (done : table.insert row = some inserted) :
    inserted.rows = table.rows ++ [row] :=
  commit_eq_some.mp done

theorem insert_isSome {table : Table key index} {row : Row} :
    (table.insert row).isSome ↔
      ∀ old ∈ table.rows, Compatible key index old row := by
  have appended : (table.rows ++ [row]).Pairwise (Compatible key index) ↔
      ∀ old ∈ table.rows, Compatible key index old row := by
    simp [List.pairwise_append, table.compatible]
  rw [← appended, insert, commit]
  split
  · rename_i compatible
    simp [compatible]
  · rename_i violated
    simp [violated]

theorem update_rows {table updated : Table key index}
    {condition : Row → Bool} {change : Row → Row} {count : Nat}
    (done : table.update condition change = some (updated, count)) :
    updated.rows =
        (table.rows.map fun row => if condition row then change row else row) ∧
      count = table.rows.countP condition := by
  simp only [update, Option.map_eq_some_iff, Prod.mk.injEq] at done
  obtain ⟨committed, success, rfl, rfl⟩ := done
  exact ⟨commit_eq_some.mp success, rfl⟩

theorem mem_update {table updated : Table key index}
    {condition : Row → Bool} {change : Row → Row} {count : Nat} {row : Row}
    (done : table.update condition change = some (updated, count)) :
    row ∈ updated.rows ↔
      ∃ old ∈ table.rows, row = if condition old then change old else old := by
  rw [(update_rows done).1, List.mem_map]
  simp only [eq_comm]

/-- A change that keeps the key and adds no index entry violates nothing. -/
theorem update_isSome (table : Table key index)
    (condition : Row → Bool) (change : Row → Row)
    (keepsKey : ∀ row, key (change row) = key row)
    (keepsIndex : ∀ row, ∀ entry ∈ index (change row), entry ∈ index row) :
    (table.update condition change).isSome := by
  have compatible : (table.rows.map fun row =>
      if condition row then change row else row).Pairwise
        (Compatible key index) := by
    rw [List.pairwise_map]
    refine table.compatible.imp fun {left right} compatible => ?_
    have sameKey : ∀ row,
        key (if condition row then change row else row) = key row := by
      intro row
      split
      · exact keepsKey row
      · rfl
    have oldEntry : ∀ row,
        ∀ entry ∈ index (if condition row then change row else row),
          entry ∈ index row := by
      intro row entry member
      split at member
      · exact keepsIndex row entry member
      · exact member
    refine ⟨?_, fun entry inLeft inRight => ?_⟩
    · rw [sameKey, sameKey]
      exact compatible.1
    · exact compatible.2 entry (oldEntry left entry inLeft)
        (oldEntry right entry inRight)
  simp [update, commit, compatible]

/-- A change of one row violates nothing if no other row has its new entry. -/
theorem update_isSome_of_fixed {table : Table key index}
    {condition : Row → Bool} {change : Row → Row} {value : Key}
    (fixed : ∀ row, condition row = true → key row = value)
    (keepsKey : ∀ row, key (change row) = key row)
    (newEntry : ∀ old ∈ table.rows, condition old = true →
      ∀ other ∈ table.rows, key other ≠ value →
        ∀ entry ∈ index (change old), entry ∉ index other) :
    (table.update condition change).isSome := by
  have compatible : (table.rows.map fun row =>
      if condition row then change row else row).Pairwise
        (Compatible key index) := by
    rw [List.pairwise_map]
    apply table.compatible.imp_of_mem
    intro left right leftMember rightMember compatible
    have otherKey : ∀ row, condition row = true →
        ∀ other, key row ≠ key other → key other ≠ value :=
      fun row holds other different same =>
        different ((fixed row holds).trans same.symm)
    split
    · rename_i leftHolds
      have rightKey := otherKey left leftHolds right compatible.1
      rw [if_neg fun rightHolds => rightKey (fixed right rightHolds)]
      exact ⟨by rw [keepsKey]; exact compatible.1,
        newEntry left leftMember leftHolds right rightMember rightKey⟩
    · split
      · rename_i leftOut rightHolds
        have leftKey := otherKey right rightHolds left compatible.1.symm
        exact Compatible.symm ⟨by rw [keepsKey]; exact compatible.1.symm,
          newEntry right rightMember rightHolds left leftMember leftKey⟩
      · exact compatible
  simp [update, commit, compatible]

omit [DecidableEq Key] [DecidableEq Ix] in
/-- A condition that at most one row satisfies matches at most one row. -/
theorem count_cases {table : Table key index} {condition : Row → Bool}
    (unique : ∀ left ∈ table.rows, ∀ right ∈ table.rows,
      condition left → condition right → left = right) :
    (table.rows.countP condition = 0 ∧
      ∀ row ∈ table.rows, condition row = false) ∨
    (table.rows.countP condition = 1 ∧
      ∃ row ∈ table.rows, condition row = true) := by
  rw [List.countP_eq_length_filter]
  have matching : ∀ row, row ∈ table.rows.filter condition ↔
      row ∈ table.rows ∧ condition row = true := fun row => List.mem_filter
  have compatible := table.compatible.filter condition
  generalize table.rows.filter condition = found at matching compatible
  match found with
  | [] =>
      left
      refine ⟨rfl, fun row member => ?_⟩
      cases holds : condition row with
      | false => rfl
      | true =>
          exact absurd ((matching row).mpr ⟨member, holds⟩) List.not_mem_nil
  | [row] => exact .inr ⟨rfl, row, (matching row).mp List.mem_cons_self⟩
  | first :: second :: rest =>
      obtain ⟨firstMember, firstHolds⟩ :=
        (matching first).mp List.mem_cons_self
      obtain ⟨secondMember, secondHolds⟩ :=
        (matching second).mp (List.mem_cons_of_mem _ List.mem_cons_self)
      have same := unique first firstMember second secondMember
        firstHolds secondHolds
      have different := (List.pairwise_cons.mp compatible).1 second
        List.mem_cons_self
      exact absurd (congrArg key same) different.1

/-- An update whose condition fixes the primary key changes nothing or one
row. -/
theorem update_cases {table updated : Table key index}
    {condition : Row → Bool} {change : Row → Row} {count : Nat} {value : Key}
    (fixed : ∀ row, condition row = true → key row = value)
    (done : table.update condition change = some (updated, count)) :
    (count = 0 ∧ updated = table ∧
      ∀ row ∈ table.rows, condition row = false) ∨
    (count = 1 ∧ ∃ old ∈ table.rows, condition old = true ∧
      ∀ row, row ∈ updated.rows ↔
        row = change old ∨ row ∈ table.rows ∧ key row ≠ value) := by
  have unique : ∀ left ∈ table.rows, ∀ right ∈ table.rows,
      condition left → condition right → left = right :=
    fun left leftMember right rightMember leftHolds rightHolds =>
      table.eq_of_key leftMember rightMember
        ((fixed left leftHolds).trans (fixed right rightHolds).symm)
  obtain ⟨rows, counted⟩ := update_rows done
  rcases count_cases unique with ⟨zero, none⟩ | ⟨one, old, oldMember, holds⟩
  · refine .inl ⟨counted.trans zero, ?_, none⟩
    ext1
    rw [rows]
    refine (List.map_congr_left fun row member => ?_).trans (List.map_id _)
    rw [none row member]
    rfl
  · refine .inr ⟨counted.trans one, old, oldMember, holds, fun row => ?_⟩
    rw [mem_update done]
    constructor
    · rintro ⟨before, beforeMember, rfl⟩
      by_cases matched : condition before
      · rw [if_pos matched,
          unique before beforeMember old oldMember matched holds]
        exact .inl rfl
      · rw [if_neg matched]
        refine .inr ⟨beforeMember, fun sameKey => matched ?_⟩
        rwa [table.eq_of_key beforeMember oldMember
          (sameKey.trans (fixed old holds).symm)]
    · rintro (rfl | ⟨member, different⟩)
      · exact ⟨old, oldMember, (if_pos holds).symm⟩
      · refine ⟨row, member, (if_neg fun matched => ?_).symm⟩
        exact different (fixed row matched)

theorem upsert_replaces (table : Table key index) (row : Row)
    (change : Row → Row) (keepsKey : ∀ old, key (change old) = key old)
    (replaces : ∀ old ∈ table.rows, key old = key row → change old = row)
    (unindexed : ∀ old, index old = none) :
    ∃ updated count,
      table.upsert row (fun _ => true) change = some (updated, count) ∧
        ∀ other, other ∈ updated.rows ↔
          other = row ∨ other ∈ table.rows ∧ key other ≠ key row := by
  unfold upsert
  split
  · rename_i present
    obtain ⟨old, member, isKey⟩ := exists?_eq_true.mp present
    rw [decide_eq_true_iff] at isKey
    obtain ⟨⟨updated, count⟩, done⟩ := Option.isSome_iff_exists.mp
      (table.update_isSome
        (fun old => decide (key old = key row) && true) change keepsKey
        fun other entry indexed => by simp [unindexed] at indexed)
    refine ⟨updated, count, done, ?_⟩
    have fixed : ∀ old, (decide (key old = key row) && true) = true →
        key old = key row := by simp
    rcases update_cases fixed done with
      ⟨-, -, none⟩ | ⟨-, changed, changedMember, isChanged, rows⟩
    · have absent := none old member
      simp [isKey] at absent
    · rw [← replaces changed changedMember (fixed changed isChanged)]
      intro other
      rw [rows other, keepsKey, fixed changed isChanged]
  · rename_i absent
    rw [Bool.not_eq_true, exists?_eq_false] at absent
    have apart : ∀ old ∈ table.rows, key old ≠ key row := by
      simpa using absent
    obtain ⟨inserted, done⟩ := Option.isSome_iff_exists.mp
      (insert_isSome.mpr fun old member =>
        ⟨apart old member, fun entry indexed => by
          simp [unindexed] at indexed⟩)
    refine ⟨inserted, 1, by rw [done, Option.map_some], fun other => ?_⟩
    rw [insert_rows done, List.mem_append, List.mem_singleton]
    constructor
    · rintro (old | new)
      · exact .inr ⟨old, apart other old⟩
      · exact .inl new
    · rintro (new | ⟨old, -⟩)
      · exact .inr new
      · exact .inl old

end Table

end Relational
