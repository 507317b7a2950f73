import Floonet.World

/-!
# What the statements do to the tables

`Effect` is the inversion of `DbOp.exec`: one constructor for each way in which
a statement can change the names, the offers or the transfers.  Later modules
argue by cases on it and do not look at the statements again.
-/

namespace Floonet

open Relational

/-! ## Queries -/

namespace Db

variable {db : Db} {name pubkey offerId : String}

theorem lookup_eq_some :
    db.lookup name = some pubkey ↔
      ∃ row ∈ db.names.rows,
        row.name = name ∧ row.pubkey = pubkey ∧ row.active = true := by
  have unique : ∀ left ∈ db.names.rows, ∀ right ∈ db.names.rows,
      (decide (left.name = name) && left.active) = true →
      (decide (right.name = name) && right.active) = true → left = right := by
    intro left leftMember right rightMember leftHolds rightHolds
    simp only [Bool.and_eq_true, decide_eq_true_iff] at leftHolds rightHolds
    exact db.names.eq_of_key leftMember rightMember
      (leftHolds.1.trans rightHolds.1.symm)
  simp only [lookup, Option.map_eq_some_iff, Table.select_eq_some unique,
    Bool.and_eq_true, decide_eq_true_iff]
  constructor
  · rintro ⟨row, ⟨member, named, active⟩, owner⟩
    exact ⟨row, member, named, owner, active⟩
  · rintro ⟨row, member, named, owner, active⟩
    exact ⟨row, ⟨member, named, active⟩, owner⟩

theorem nameOf_eq_some :
    db.nameOf pubkey = some name ↔
      ∃ row ∈ db.names.rows,
        row.name = name ∧ row.pubkey = pubkey ∧ row.active = true := by
  have unique : ∀ left ∈ db.names.rows, ∀ right ∈ db.names.rows,
      (decide (left.pubkey = pubkey) && left.active) = true →
      (decide (right.pubkey = pubkey) && right.active) = true →
      left = right := by
    intro left leftMember right rightMember leftHolds rightHolds
    simp only [Bool.and_eq_true, decide_eq_true_iff] at leftHolds rightHolds
    apply db.names.eq_of_index pubkey leftMember rightMember
    · simp [NameRow.activePubkey, leftHolds]
    · simp [NameRow.activePubkey, rightHolds]
  simp only [nameOf, Option.map_eq_some_iff, Table.select_eq_some unique,
    Bool.and_eq_true, decide_eq_true_iff]
  constructor
  · rintro ⟨row, ⟨member, owner, active⟩, named⟩
    exact ⟨row, member, named, owner, active⟩
  · rintro ⟨row, member, named, owner, active⟩
    exact ⟨row, ⟨member, owner, active⟩, named⟩

/-- The two directions of the active registry are inverse to each other. -/
theorem lookup_eq_some_iff_nameOf :
    db.lookup name = some pubkey ↔ db.nameOf pubkey = some name := by
  rw [lookup_eq_some, nameOf_eq_some]

theorem lookup_eq_none :
    db.lookup name = none ↔
      ∀ row ∈ db.names.rows, row.name = name → row.active = false := by
  simp only [lookup, Option.map_eq_none_iff, Table.select_eq_none,
    Bool.and_eq_false_iff, decide_eq_false_iff_not]
  exact forall_congr' fun row => forall_congr' fun _ =>
    Decidable.imp_iff_not_or.symm

theorem nameOf_eq_none :
    db.nameOf pubkey = none ↔
      ∀ row ∈ db.names.rows, row.pubkey = pubkey → row.active = false := by
  simp only [nameOf, Option.map_eq_none_iff, Table.select_eq_none,
    Bool.and_eq_false_iff, decide_eq_false_iff_not]
  exact forall_congr' fun row => forall_congr' fun _ =>
    Decidable.imp_iff_not_or.symm

theorem getOffer_eq_some {row : OfferRow} :
    db.getOffer offerId = some row ↔
      row ∈ db.offers.rows ∧ row.offerId = offerId :=
  Table.select_key

theorem getOffer_eq_none :
    db.getOffer offerId = none ↔
      ∀ row ∈ db.offers.rows, row.offerId ≠ offerId := by
  simp [getOffer, Table.select_eq_none]

theorem liveOfferForName_eq_false {now : Int} :
    db.liveOfferForName name now = false ↔
      ∀ row ∈ db.offers.rows, row.name = name → row.onSale now = false := by
  simp only [liveOfferForName, Table.exists?_eq_false, Bool.and_eq_false_iff,
    decide_eq_false_iff_not]
  exact forall_congr' fun row => forall_congr' fun _ =>
    Decidable.imp_iff_not_or.symm

theorem liveOfferBinding_eq_false {proofAddress : String} {now : Int} :
    db.liveOfferBinding proofAddress now = false ↔
      ∀ row ∈ db.offers.rows,
        row.proofAddress = proofAddress → row.onSale now = false := by
  simp only [liveOfferBinding, Table.exists?_eq_false, Bool.and_eq_false_iff,
    decide_eq_false_iff_not]
  exact forall_congr' fun row => forall_congr' fun _ =>
    Decidable.imp_iff_not_or.symm

theorem excessUsed_eq_false {excessHex : String} :
    db.excessUsed excessHex = false ↔
      ∀ row ∈ db.transfers.rows, row.kernelExcess ≠ excessHex := by
  simp [excessUsed, Table.exists?_eq_false]

/-- The rows of one table determine who owns which name. -/
theorem lookup_congr {other : Db} (same : other.names = db.names) :
    other.lookup = db.lookup := by
  funext name
  unfold lookup
  rw [same]

end Db

theorem OfferRow.onSale_iff {row : OfferRow} {now : Int} :
    row.onSale now = true ↔ row.status = .live ∧ now ≤ row.expiration := by
  simp [onSale]

/-! ## Changes -/

namespace Db

/-- `name` now belongs to `owner`, and nothing else about the names changed. -/
def Reassigned (before after : Db) (name : String) (owner : Option String) :
    Prop :=
  ∀ other, after.lookup other =
    if other = name then owner else before.lookup other

/-- The offer `offerId`, if it is lodged, went through `change`. -/
def Revised (before after : Db) (offerId : String)
    (change : OfferRow → OfferRow) : Prop :=
  ∀ row, row ∈ after.offers.rows ↔ ∃ old ∈ before.offers.rows,
    row = if old.offerId = offerId then change old else old

theorem Revised.congr {before after : Db} {offerId : String}
    {change change' : OfferRow → OfferRow}
    (revised : Revised before after offerId change)
    (same : ∀ row ∈ before.offers.rows, row.offerId = offerId →
      change' row = change row) : Revised before after offerId change' := by
  have agrees : ∀ old ∈ before.offers.rows,
      (if old.offerId = offerId then change' old else old) =
        if old.offerId = offerId then change old else old := by
    intro old member
    split
    · rename_i isOffer
      exact same old member isOffer
    · rfl
  intro row
  rw [revised row]
  constructor
  · rintro ⟨old, member, rfl⟩
    exact ⟨old, member, (agrees old member).symm⟩
  · rintro ⟨old, member, rfl⟩
    exact ⟨old, member, agrees old member⟩

theorem Revised.of_same {db : Db} {offerId : String}
    {change : OfferRow → OfferRow}
    (same : ∀ row ∈ db.offers.rows, row.offerId = offerId →
      change row = row) : Revised db db offerId change := by
  have unchanged : Revised db db offerId id := by
    intro row
    simp
  exact unchanged.congr same

theorem reassigned_of_rows (before after : Db) (new : NameRow) {name : String}
    (named : new.name = name)
    (rows : ∀ row, row ∈ after.names.rows ↔
      row = new ∨ row ∈ before.names.rows ∧ row.name ≠ name) :
    Reassigned before after name
      (if new.active then some new.pubkey else none) := by
  intro other
  apply Option.ext
  intro owner
  by_cases same : other = name
  · subst same
    rw [if_pos rfl, lookup_eq_some]
    constructor
    · rintro ⟨row, member, rowNamed, rfl, active⟩
      rcases (rows row).mp member with rfl | ⟨-, different⟩
      · simp [active]
      · exact absurd rowNamed different
    · intro found
      by_cases active : new.active
      · rw [if_pos active] at found
        exact ⟨new, (rows new).mpr (.inl rfl), named, Option.some.inj found,
          active⟩
      · rw [if_neg active] at found
        cases found
  · rw [if_neg same, lookup_eq_some, lookup_eq_some]
    constructor
    · rintro ⟨row, member, rowNamed, rest⟩
      rcases (rows row).mp member with rfl | ⟨old, -⟩
      · exact absurd (rowNamed.symm.trans named) same
      · exact ⟨row, old, rowNamed, rest⟩
    · rintro ⟨row, member, rowNamed, rest⟩
      refine ⟨row, (rows row).mpr (.inr ⟨member, ?_⟩), rowNamed, rest⟩
      exact fun equal => same (rowNamed.symm.trans equal)

theorem names_update {db : Db} {names : NamesTable} {name : String}
    {condition : NameRow → Bool} {change : NameRow → NameRow} {count : Nat}
    (fixed : ∀ row, condition row = true → row.name = name)
    (done : db.names.update condition change = some (names, count)) :
    (count = 0 ∧ names = db.names ∧
      ∀ row ∈ db.names.rows, condition row = false) ∨
    (count = 1 ∧ ∃ old ∈ db.names.rows, condition old = true ∧
      ∀ row, row ∈ names.rows ↔
        row = change old ∨ row ∈ db.names.rows ∧ row.name ≠ name) :=
  Table.update_cases fixed done

/-- An update of the offers by their primary key always succeeds. -/
theorem offers_update (db : Db) (offerId : String)
    (condition : OfferRow → Bool) (change : OfferRow → OfferRow)
    (fixed : ∀ row, condition row = true → row.offerId = offerId)
    (keepsId : ∀ row, (change row).offerId = row.offerId) :
    ∃ offers count, db.offers.update condition change = some (offers, count) ∧
      ((count = 0 ∧ offers = db.offers ∧
          ∀ row ∈ db.offers.rows, condition row = false) ∨
        (count = 1 ∧ ∃ old ∈ db.offers.rows, condition old = true ∧
          Revised db { db with offers } offerId change)) := by
  have succeeds := db.offers.update_isSome condition change
    keepsId (fun row entry member => nomatch entry)
  obtain ⟨⟨offers, count⟩, done⟩ := Option.isSome_iff_exists.mp succeeds
  refine ⟨offers, count, done, ?_⟩
  rcases Table.update_cases fixed done with none | ⟨one, old, member, holds, -⟩
  · exact .inl none
  · refine .inr ⟨one, old, member, holds, fun row => ?_⟩
    rw [Table.mem_update done]
    have matched : ∀ before ∈ db.offers.rows,
        condition before = true ↔ before.offerId = offerId := by
      intro before beforeMember
      refine ⟨fixed before, fun sameId => ?_⟩
      rw [db.offers.eq_of_key beforeMember member
        (sameId.trans (fixed old holds).symm)]
      exact holds
    constructor
    · rintro ⟨before, beforeMember, rfl⟩
      refine ⟨before, beforeMember, ?_⟩
      simp only [matched before beforeMember]
    · rintro ⟨before, beforeMember, rfl⟩
      refine ⟨before, beforeMember, ?_⟩
      simp only [matched before beforeMember]

/-! ## Statements -/

variable (db : Db)

/-- A key without an active name is in no entry of the partial index. -/
theorem not_mem_activePubkey {db : Db} {pubkey : String}
    (nameless : db.nameOf pubkey = none) {row : NameRow}
    (member : row ∈ db.names.rows) : pubkey ∉ row.activePubkey := by
  intro entry
  have active : row.active = true ∧ row.pubkey = pubkey := by
    by_cases active : row.active = true <;>
      simp_all [NameRow.activePubkey]
  have inactive := nameOf_eq_none.mp nameless row member active.2
  rw [active.1] at inactive
  cases inactive

/-- The row that a key acquires replaces the one of that name. -/
def Acquired (db : Db) (names : NamesTable) (name pubkey : String)
    (now : Int) : Prop :=
  ∀ row, row ∈ names.rows ↔ row = ⟨name, pubkey, now, none⟩ ∨
    row ∈ db.names.rows ∧ row.name ≠ name

theorem nameless_before {db : Db} {names : NamesTable} {name pubkey : String}
    {now : Int} (rows : db.Acquired names name pubkey now)
    (free : db.lookup name = none) : db.nameOf pubkey = none := by
  rw [nameOf_eq_none]
  intro row member owner
  cases active : row.active with
  | false => rfl
  | true =>
      have different : row.name ≠ name := by
        intro same
        have inactive := lookup_eq_none.mp free row member same
        rw [active] at inactive
        cases inactive
      have same := names.eq_of_index pubkey
        ((rows row).mpr (.inr ⟨member, different⟩))
        ((rows _).mpr (.inl rfl))
        (by simp [NameRow.activePubkey, active, owner])
        (by simp [NameRow.activePubkey, NameRow.active])
      exact absurd (congrArg NameRow.name same) different

theorem active_of_lookup {db : Db} {name owner : String} {row : NameRow}
    (found : db.lookup name = some owner) (member : row ∈ db.names.rows)
    (named : row.name = name) : row.active = true ∧ row.pubkey = owner := by
  obtain ⟨active, activeMember, activeNamed, owned, isActive⟩ :=
    lookup_eq_some.mp found
  have same := db.names.eq_of_key member activeMember
    (named.trans activeNamed.symm)
  rw [same]
  exact ⟨isActive, owned⟩

/-- The update of a released name. -/
def reclaim (name pubkey : String) (now : Int) : Option (NamesTable × Nat) :=
  db.names.update (fun old => decide (old.name = name) && !old.active)
    fun row => { row with pubkey, createdAt := now, releasedAt := none }

variable {db} {name pubkey : String} {now : Int}

theorem released_name {row : NameRow}
    (holds : (decide (row.name = name) && !row.active) = true) :
    row.name = name := by
  rw [Bool.and_eq_true, decide_eq_true_iff] at holds
  exact holds.1

theorem lookup_of_released {row : NameRow} (member : row ∈ db.names.rows)
    (holds : (decide (row.name = name) && !row.active) = true) :
    db.lookup name = none := by
  cases found : db.lookup name with
  | none => rfl
  | some owner =>
      have active := active_of_lookup found member (released_name holds)
      simp [active.1] at holds

theorem reclaim_eq_none (done : db.reclaim name pubkey now = none) :
    db.lookup name = none ∧ ∃ other, db.nameOf pubkey = some other := by
  have fails := (congrArg Option.isSome done).symm
  cases free : db.lookup name with
  | some owner =>
      have succeeds := fails.trans (Table.update_isSome_of_fixed
        (fun _ => released_name) (fun _ => rfl) fun old member holds => by
          rw [lookup_of_released member holds] at free
          cases free)
      cases succeeds
  | none =>
      cases nameless : db.nameOf pubkey with
      | some other => exact ⟨rfl, other, rfl⟩
      | none =>
          have succeeds := fails.trans (Table.update_isSome_of_fixed
            (fun _ => released_name) (fun _ => rfl)
            fun old member holds other otherMember _ entry inNew => by
              cases inNew
              exact not_mem_activePubkey nameless otherMember)
          cases succeeds

theorem reclaim_eq_some {names : NamesTable} {count : Nat}
    (present : ∃ row ∈ db.names.rows, row.name = name)
    (done : db.reclaim name pubkey now = some (names, count)) :
    (count = 0 ∧ names = db.names ∧ ∃ owner, db.lookup name = some owner) ∨
      (count = 1 ∧ db.lookup name = none ∧
        db.Acquired names name pubkey now) := by
  rcases names_update (fun _ => released_name) done with
    ⟨rfl, rfl, none⟩ | ⟨rfl, old, member, holds, rows⟩
  · refine .inl ⟨rfl, rfl, ?_⟩
    obtain ⟨row, member, named⟩ := present
    have active := none row member
    simp only [named, decide_true, Bool.true_and, Bool.not_eq_false'] at active
    exact ⟨row.pubkey, lookup_eq_some.mpr ⟨row, member, named, rfl, active⟩⟩
  · rw [released_name holds] at rows
    exact .inr ⟨rfl, lookup_of_released member holds, rows⟩

section Absent

variable (absent : ∀ row ∈ db.names.rows, row.name ≠ name)
include absent

theorem insert_eq_none
    (done : db.names.insert ⟨name, pubkey, now, none⟩ = none) :
    ∃ other, db.nameOf pubkey = some other := by
  cases nameless : db.nameOf pubkey with
  | some other => exact ⟨other, rfl⟩
  | none =>
      have fails := (congrArg Option.isSome done).symm
      have succeeds := fails.trans (Table.insert_isSome.mpr
        fun old member => ⟨absent old member, fun entry inOld inNew => by
          cases inNew
          exact not_mem_activePubkey nameless member inOld⟩)
      cases succeeds

theorem insert_eq_some {names : NamesTable}
    (done : db.names.insert ⟨name, pubkey, now, none⟩ = some names) :
    db.Acquired names name pubkey now := by
  intro row
  rw [Table.insert_rows done, List.mem_append, List.mem_singleton, or_comm]
  constructor
  · exact Or.imp_right fun member => ⟨member, absent row member⟩
  · exact Or.imp_right And.left

end Absent

variable (db)

theorem insertName_cases (name pubkey : String) (now : Int) :
    (db.insertName name pubkey now = (.ok 0, db) ∧
      ∃ owner, db.lookup name = some owner) ∨
    (db.insertName name pubkey now = (.error .constraintViolation, db) ∧
      db.lookup name = none ∧ ∃ other, db.nameOf pubkey = some other) ∨
    ∃ names, db.insertName name pubkey now = (.ok 1, { db with names }) ∧
      db.lookup name = none ∧ db.nameOf pubkey = none ∧
      ∀ row, row ∈ names.rows ↔ row = ⟨name, pubkey, now, none⟩ ∨
        row ∈ db.names.rows ∧ row.name ≠ name := by
  unfold insertName Table.upsert
  cases found : db.names.exists? fun old => decide (old.name = name) with
  | true =>
      have present : ∃ row ∈ db.names.rows, row.name = name := by
        obtain ⟨row, member, named⟩ := Table.exists?_eq_true.mp found
        exact ⟨row, member, of_decide_eq_true named⟩
      simp only [if_true]
      cases done : db.reclaim name pubkey now with
      | none =>
          rw [reclaim] at done
          rw [done]
          exact .inr (.inl ⟨rfl, reclaim_eq_none done⟩)
      | some result =>
          obtain ⟨names, count⟩ := result
          have outcome := reclaim_eq_some present done
          rw [reclaim] at done
          rw [done]
          rcases outcome with ⟨rfl, rfl, owned⟩ | ⟨rfl, free, rows⟩
          · exact .inl ⟨rfl, owned⟩
          · exact .inr (.inr ⟨names, rfl, free, nameless_before rows free,
              rows⟩)
  | false =>
      have absent : ∀ row ∈ db.names.rows, row.name ≠ name := by
        intro row member
        have refuted := Table.exists?_eq_false.mp found row member
        rwa [decide_eq_false_iff_not] at refuted
      have free : db.lookup name = none :=
        lookup_eq_none.mpr fun row member named =>
          absurd named (absent row member)
      simp only [if_neg Bool.false_ne_true]
      cases done : db.names.insert ⟨name, pubkey, now, none⟩ with
      | none => exact .inr (.inl ⟨rfl, free, insert_eq_none absent done⟩)
      | some names =>
          have rows := insert_eq_some absent done
          exact .inr (.inr ⟨names, rfl, free, nameless_before rows free, rows⟩)

theorem releaseName_cases (name : String) (now : Int) :
    (db.releaseName name now = (.ok 0, db) ∧ db.lookup name = none) ∨
    ∃ names owner, db.releaseName name now = (.ok 1, { db with names }) ∧
      db.lookup name = some owner ∧
      Reassigned db { db with names } name none := by
  have fixed : ∀ row : NameRow,
      (decide (row.name = name) && row.active) = true → row.name = name := by
    intro row holds
    simp only [Bool.and_eq_true, decide_eq_true_iff] at holds
    exact holds.1
  have succeeds := db.names.update_isSome
    (fun row => decide (row.name = name) && row.active)
    (fun row => { row with releasedAt := some now })
    (fun _ => rfl) (fun row entry member => nomatch member)
  obtain ⟨⟨names, count⟩, done⟩ := Option.isSome_iff_exists.mp succeeds
  unfold releaseName
  rw [done]
  rcases names_update fixed done with
    ⟨rfl, rfl, none⟩ | ⟨rfl, old, member, holds, rows⟩
  · refine .inl ⟨rfl, lookup_eq_none.mpr fun row member named => ?_⟩
    simpa [named] using none row member
  · simp only [Bool.and_eq_true, decide_eq_true_iff] at holds
    exact .inr ⟨names, old.pubkey, rfl,
      lookup_eq_some.mpr ⟨old, member, holds.1, rfl, holds.2⟩,
      reassigned_of_rows db { db with names }
        { old with releasedAt := some now } holds.1 rows⟩

theorem insertOffer_cases (row : OfferRow) :
    (db.insertOffer row = (.error .constraintViolation, db) ∧
      ∃ old ∈ db.offers.rows, old.offerId = row.offerId) ∨
    ∃ offers, db.insertOffer row = (.ok 1, { db with offers }) ∧
      (∀ old ∈ db.offers.rows, old.offerId ≠ row.offerId) ∧
      offers.rows = db.offers.rows ++ [row] := by
  unfold insertOffer
  cases done : db.offers.insert row with
  | none =>
      refine .inl ⟨rfl, ?_⟩
      cases found : db.getOffer row.offerId with
      | some old =>
          obtain ⟨member, sameId⟩ := getOffer_eq_some.mp found
          exact ⟨old, member, sameId⟩
      | none =>
          have fails := (congrArg Option.isSome done).symm
          have succeeds := fails.trans (Table.insert_isSome.mpr
            fun old member => ⟨getOffer_eq_none.mp found old member,
              fun entry inOld => nomatch inOld⟩)
          cases succeeds
  | some offers =>
      have inserted := congrArg Option.isSome done
      refine .inr ⟨offers, rfl, fun old member => ?_, Table.insert_rows done⟩
      exact (Table.insert_isSome.mp inserted old member).1

theorem markOfferDead_cases (offerId : String) (status : OfferStatus)
    (endHeight : Option Int) (stateChangedAt : Int) :
    (db.markOfferDead offerId status endHeight stateChangedAt = (.ok 0, db) ∧
      ∀ row ∈ db.offers.rows, row.offerId = offerId → row.status ≠ .live) ∨
    ∃ offers old, db.markOfferDead offerId status endHeight stateChangedAt =
        (.ok 1, { db with offers }) ∧
      old ∈ db.offers.rows ∧ old.offerId = offerId ∧ old.status = .live ∧
      Revised db { db with offers } offerId fun row =>
        { row with status, endHeight, stateChangedAt := some stateChangedAt } := by
  obtain ⟨offers, count, done, cases⟩ := offers_update db offerId
    (fun row =>
      decide (row.offerId = offerId) && decide (row.status = .live))
    (fun row =>
      { row with status, endHeight, stateChangedAt := some stateChangedAt })
    (fun row holds => by simp_all) (fun _ => rfl)
  unfold markOfferDead
  rw [done]
  rcases cases with ⟨rfl, rfl, none⟩ | ⟨rfl, old, member, holds, revised⟩
  · refine .inl ⟨rfl, fun row member sameId live => ?_⟩
    simpa [sameId, live] using none row member
  · simp only [Bool.and_eq_true, decide_eq_true_iff] at holds
    exact .inr ⟨offers, old, rfl, member, holds.1, holds.2, revised⟩

theorem setOfferStatus_cases (offerId : String) (status : OfferStatus) :
    ∃ offers count, db.setOfferStatus offerId status =
        (.ok count, { db with offers }) ∧
      Revised db { db with offers } offerId fun row => { row with status } := by
  obtain ⟨offers, count, done, cases⟩ := offers_update db offerId
    (fun row => decide (row.offerId = offerId))
    (fun row => { row with status })
    (fun row holds => of_decide_eq_true holds) (fun _ => rfl)
  unfold setOfferStatus
  rw [done]
  refine ⟨offers, count, rfl, ?_⟩
  rcases cases with ⟨-, rfl, none⟩ | ⟨-, old, -, -, revised⟩
  · intro row
    constructor
    · intro member
      refine ⟨row, member, (if_neg fun sameId => ?_).symm⟩
      simpa [sameId] using none row member
    · rintro ⟨old, member, rfl⟩
      rw [if_neg fun sameId => by simpa [sameId] using none old member]
      exact member
  · exact revised

/-- What the claim transaction leaves behind when it commits. -/
structure Claimed (before after : Db) (offer : OfferRow) (excessHex : String)
    (kernelHeight : Option Int) (now : Int) : Prop where
  owned : before.lookup offer.name = some offer.sellerPubkey
  unused : ∀ row ∈ before.transfers.rows,
    row.offerId ≠ offer.offerId ∧ row.kernelExcess ≠ excessHex
  names : ∃ old ∈ before.names.rows,
    old.name = offer.name ∧ old.pubkey = offer.sellerPubkey ∧
      old.active = true ∧
      ∀ row, row ∈ after.names.rows ↔
        row = { old with pubkey := offer.buyerPubkey, createdAt := now } ∨
          row ∈ before.names.rows ∧ row.name ≠ offer.name
  transfers : after.transfers.rows = before.transfers.rows ++
    [⟨offer.offerId, offer.name, offer.sellerPubkey, offer.buyerPubkey,
      offer.priceNanogrin, excessHex, kernelHeight, now⟩]
  offers : Revised before after offer.offerId fun row =>
    { row with status := .consumed }
  paidGrants : after.paidGrants = before.paidGrants

theorem Claimed.reassigned {before after : Db} {offer : OfferRow}
    {excessHex : String} {kernelHeight : Option Int} {now : Int}
    (claimed : Claimed before after offer excessHex kernelHeight now) :
    Reassigned before after offer.name (some offer.buyerPubkey) := by
  obtain ⟨old, member, named, owned, active, rows⟩ := claimed.names
  have reassigned := reassigned_of_rows before after
    { old with pubkey := offer.buyerPubkey, createdAt := now } named rows
  have stillActive : NameRow.active
      { old with pubkey := offer.buyerPubkey, createdAt := now } = true :=
    active
  rwa [if_pos stillActive] at reassigned

/-- The update that hands a name over to the buyer. -/
def handOver (offer : OfferRow) (now : Int) : Option (NamesTable × Nat) :=
  db.names.update
    (fun row => decide (row.name = offer.name) &&
      decide (row.pubkey = offer.sellerPubkey) && row.active)
    fun row => { row with pubkey := offer.buyerPubkey, createdAt := now }

section Claims

variable {db} {offer : OfferRow} {excessHex : String}
variable {kernelHeight : Option Int} {now : Int}

theorem seller_name {row : NameRow}
    (holds : (decide (row.name = offer.name) &&
      decide (row.pubkey = offer.sellerPubkey) && row.active) = true) :
    row.name = offer.name := by
  simp only [Bool.and_eq_true, decide_eq_true_iff] at holds
  exact holds.1.1

theorem handOver_eq_none (done : db.handOver offer now = none) :
    db.nameOf offer.buyerPubkey ≠ none := by
  intro nameless
  have fails := (congrArg Option.isSome done).symm
  have succeeds := fails.trans
    (Table.update_isSome_of_fixed (fun _ => seller_name) (fun _ => rfl)
      fun old member holds other otherMember _ entry inNew => by
        simp only [Bool.and_eq_true, decide_eq_true_iff] at holds
        have entryIsBuyer : entry = offer.buyerPubkey := by
          simp only [NameRow.activePubkey] at inNew
          split at inNew
          · exact (Option.some.inj inNew).symm
          · cases inNew
        rw [entryIsBuyer]
        exact not_mem_activePubkey nameless otherMember)
  cases succeeds

theorem handOver_eq_some {names : NamesTable} {count : Nat}
    (done : db.handOver offer now = some (names, count)) :
    (count = 0 ∧ db.lookup offer.name ≠ some offer.sellerPubkey) ∨
      (count = 1 ∧ ∃ old ∈ db.names.rows,
        old.name = offer.name ∧ old.pubkey = offer.sellerPubkey ∧
          old.active = true ∧
          ∀ row, row ∈ names.rows ↔
            row = { old with pubkey := offer.buyerPubkey, createdAt := now } ∨
              row ∈ db.names.rows ∧ row.name ≠ offer.name) := by
  rcases names_update (fun _ => seller_name) done with
    ⟨rfl, rfl, none⟩ | ⟨rfl, old, member, holds, rows⟩
  · refine .inl ⟨rfl, fun owned => ?_⟩
    obtain ⟨row, member, named, seller, active⟩ := lookup_eq_some.mp owned
    have refuted := none row member
    simp [named, seller, active] at refuted
  · simp only [Bool.and_eq_true, decide_eq_true_iff] at holds
    exact .inr ⟨rfl, old, member, holds.1.1, holds.1.2, holds.2, rows⟩

theorem recordTransfer_eq_none
    (full : db.transfers.insert ⟨offer.offerId, offer.name, offer.sellerPubkey,
      offer.buyerPubkey, offer.priceNanogrin, excessHex, kernelHeight,
      now⟩ = none) :
    ∃ row ∈ db.transfers.rows,
      row.offerId = offer.offerId ∨ row.kernelExcess = excessHex := by
  have fails := (congrArg Option.isSome full).symm
  apply Classical.byContradiction
  intro fresh
  have succeeds := fails.trans (Table.insert_isSome.mpr
    fun row rowMember => ⟨fun sameId => fresh ⟨row, rowMember, .inl sameId⟩,
      fun entry inOld inNew => by
        cases inNew
        exact fresh ⟨row, rowMember, .inr (Option.some.inj inOld)⟩⟩)
  cases succeeds

end Claims

theorem runClaimTxn_cases (offer : OfferRow) (excessHex : String)
    (kernelHeight : Option Int) (now : Int) :
    (∃ error, db.runClaimTxn offer excessHex kernelHeight now =
        (.error error, db) ∧
      (db.lookup offer.name ≠ some offer.sellerPubkey ∨
        (∃ row ∈ db.transfers.rows,
          row.offerId = offer.offerId ∨ row.kernelExcess = excessHex) ∨
        db.nameOf offer.buyerPubkey ≠ none)) ∨
    ∃ after, db.runClaimTxn offer excessHex kernelHeight now =
        (.ok (), after) ∧
      Claimed db after offer excessHex kernelHeight now := by
  unfold runClaimTxn
  cases done : db.handOver offer now with
  | none =>
      have named := handOver_eq_none done
      rw [handOver] at done
      rw [done]
      exact .inl ⟨_, rfl, .inr (.inr named)⟩
  | some result =>
      obtain ⟨names, updated⟩ := result
      have outcome := handOver_eq_some done
      rw [handOver] at done
      rw [done]
      rcases outcome with ⟨rfl, lost⟩ | ⟨rfl, old, member, named, seller,
        active, rows⟩
      · exact .inl ⟨_, rfl, .inl lost⟩
      · simp only [ne_eq, not_true_eq_false, if_false]
        cases inserted : db.transfers.insert
            ⟨offer.offerId, offer.name, offer.sellerPubkey, offer.buyerPubkey,
              offer.priceNanogrin, excessHex, kernelHeight, now⟩ with
        | none =>
            exact .inl ⟨_, rfl, .inr (.inl (recordTransfer_eq_none inserted))⟩
        | some transfers =>
            obtain ⟨offers, count, consumed, revised⟩ := setOfferStatus_cases
              ({ db with names, transfers } : Db) offer.offerId .consumed
            refine .inr ⟨{ db with names, transfers, offers }, ?_, ?_⟩
            · simp only [consumed]
            · have succeeded := congrArg Option.isSome inserted
              have fresh := Table.insert_isSome.mp succeeded
              exact {
                owned := lookup_eq_some.mpr ⟨old, member, named, seller, active⟩
                unused := fun row rowMember => ⟨(fresh row rowMember).1,
                  fun sameExcess => (fresh row rowMember).2 excessHex
                    (congrArg some sameExcess) rfl⟩
                names := ⟨old, member, named, seller, active, rows⟩
                transfers := Table.insert_rows inserted
                offers := revised
                paidGrants := rfl }

end Db

end Floonet
