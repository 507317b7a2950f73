import Floonet.Statements

/-!
# Effects of atomic steps

`Effect` inverts `Op.exec`: one constructor for each way in which a step can
change the names, the offers or the transfers.  `World.Evolves` collects what
no step ever undoes.
-/

namespace Floonet

open Relational

/-- A statement reports that it changed a row. -/
def changedRows : Except SqlError Nat → Bool
  | .ok count => decide (0 < count)
  | .error _ => false

/-- The answer says that the step changed the names. -/
def Op.reassigns : (op : Op) → op.Ans → Bool
  | .db (.insertName _ _), answer => changedRows answer
  | .db (.releaseName _), answer => changedRows answer
  | .db (.runClaimTxn _ _ _ _), answer =>
      match answer with
      | .ok _ => true
      | .error _ => false
  | _, _ => false

/-- Names, offers and transfers are the same. -/
structure Db.SameMarket (before after : Db) : Prop where
  names : after.names = before.names
  offers : after.offers = before.offers
  transfers : after.transfers = before.transfers

theorem Db.SameMarket.refl (db : Db) : db.SameMarket db := ⟨rfl, rfl, rfl⟩

/-- What a step that starts at time `now` with the tables `before` does. -/
inductive Effect (now : Int) (before after : Db) :
    (op : Op) → op.Ans → Prop where
  | kept {op : Op} {answer : op.Ans} (silent : op.reassigns answer = false)
      (same : before.SameMarket after) : Effect now before after op answer
  | registered {name pubkey : String}
      (free : before.lookup name = none)
      (nameless : before.nameOf pubkey = none)
      (names : before.Reassigned after name (some pubkey))
      (offers : after.offers = before.offers)
      (transfers : after.transfers = before.transfers) :
      Effect now before after (.db (.insertName name pubkey)) (.ok 1)
  | released {name owner : String}
      (owned : before.lookup name = some owner)
      (names : before.Reassigned after name none)
      (offers : after.offers = before.offers)
      (transfers : after.transfers = before.transfers) :
      Effect now before after (.db (.releaseName name)) (.ok 1)
  | lodged {row : OfferRow}
      (fresh : ∀ old ∈ before.offers.rows, old.offerId ≠ row.offerId)
      (names : after.names = before.names)
      (offers : after.offers.rows = before.offers.rows ++ [row])
      (transfers : after.transfers = before.transfers) :
      Effect now before after (.db (.insertOffer row)) (.ok 1)
  | died {offerId : String} {status : OfferStatus} {endHeight : Option Int}
      {stateChangedAt : Int} {old : OfferRow}
      (member : old ∈ before.offers.rows) (sameId : old.offerId = offerId)
      (live : old.status = .live)
      (names : after.names = before.names)
      (offers : before.Revised after offerId fun row =>
        { row with status, endHeight, stateChangedAt := some stateChangedAt })
      (transfers : after.transfers = before.transfers) :
      Effect now before after
        (.db (.markOfferDead offerId status endHeight stateChangedAt)) (.ok 1)
  | revised {offerId : String} {count : Nat}
      (names : after.names = before.names)
      (offers : before.Revised after offerId fun row =>
        { row with status := .revoked })
      (transfers : after.transfers = before.transfers) :
      Effect now before after (.db (.reviseRevoked offerId)) (.ok count)
  | claimed {offer : OfferRow} {excessHex : String} {kernelHeight : Option Int}
      {claimedAt : Int}
      (claimed : before.Claimed after offer excessHex kernelHeight claimedAt) :
      Effect now before after
        (.db (.runClaimTxn offer excessHex kernelHeight claimedAt)) (.ok ())

theorem Op.exec_effect (env : Env) (op : Op) (world : World) :
    Effect world.unixTime.seconds world.db (op.exec env world).2.db op
      (op.exec env world).1 := by
  cases op with
  | db op =>
      cases op with
      | insertName name pubkey =>
          simp only [exec, DbOp.exec]
          rcases world.db.insertName_cases name pubkey world.unixTime.seconds
            with ⟨done, -⟩ | ⟨done, -⟩ | ⟨names, done, free, nameless, rows⟩
          · rw [done]
            exact .kept rfl (.refl _)
          · rw [done]
            exact .kept rfl (.refl _)
          · rw [done]
            exact .registered free nameless
              (Db.reassigned_of_rows world.db { world.db with names }
                ⟨name, pubkey, _, none⟩ rfl rows) rfl rfl
      | releaseName name =>
          simp only [exec, DbOp.exec]
          rcases world.db.releaseName_cases name world.unixTime.seconds
            with ⟨done, -⟩ | ⟨names, owner, done, owned, reassigned⟩
          · rw [done]
            exact .kept rfl (.refl _)
          · rw [done]
            exact .released owned reassigned rfl rfl
      | insertOffer row =>
          simp only [exec, DbOp.exec]
          rcases world.db.insertOffer_cases row
            with ⟨done, -⟩ | ⟨offers, done, fresh, rows⟩
          · rw [done]
            exact .kept rfl (.refl _)
          · rw [done]
            exact .lodged fresh rfl rows rfl
      | markOfferDead offerId status endHeight stateChangedAt =>
          simp only [exec, DbOp.exec]
          rcases world.db.markOfferDead_cases offerId status endHeight
            stateChangedAt
            with ⟨done, -⟩ | ⟨offers, old, done, member, sameId, live, revised⟩
          · rw [done]
            exact .kept rfl (.refl _)
          · rw [done]
            exact .died member sameId live rfl revised rfl
      | reviseRevoked offerId =>
          simp only [exec, DbOp.exec]
          obtain ⟨offers, count, done, revised⟩ :=
            world.db.setOfferStatus_cases offerId .revoked
          rw [done]
          exact .revised rfl revised rfl
      | runClaimTxn offer excessHex kernelHeight claimedAt =>
          simp only [exec, DbOp.exec]
          rcases world.db.runClaimTxn_cases offer excessHex kernelHeight
            claimedAt with ⟨error, done, -⟩ | ⟨after, done, claimed⟩
          · rw [done]
            exact .kept rfl (.refl _)
          · rw [done]
            exact .claimed claimed
      | putPendingGrant pubkey resource invoice amount =>
          refine .kept rfl ?_
          simp only [exec, DbOp.exec, Db.putPendingGrant]
          split <;> exact ⟨rfl, rfl, rfl⟩
      | markGrantPaid invoiceId =>
          refine .kept rfl ?_
          simp only [exec, DbOp.exec, Db.markGrantPaid]
          split <;> exact ⟨rfl, rfl, rfl⟩
      | _ => exact .kept rfl ⟨rfl, rfl, rfl⟩
  | _ => exact .kept rfl ⟨rfl, rfl, rfl⟩

theorem Effect.names {now : Int} {before after : Db} {op : Op}
    {answer : op.Ans} (effect : Effect now before after op answer)
    (silent : op.reassigns answer = false) : after.names = before.names := by
  cases effect with
  | kept _ same => exact same.names
  | registered => cases silent
  | released => cases silent
  | lodged _ names _ _ => exact names
  | died _ _ _ names _ _ => exact names
  | revised names _ _ => exact names
  | claimed => cases silent

/-- Only a release or a claim transaction takes a name away. -/
theorem Effect.loses {now : Int} {before after : Db} {op : Op}
    {answer : op.Ans} (effect : Effect now before after op answer)
    {name owner : String} (owned : before.lookup name = some owner)
    (lost : after.lookup name ≠ some owner) :
    op = .db (.releaseName name) ∨
      ∃ offer excessHex kernelHeight claimedAt,
        op = .db (.runClaimTxn offer excessHex kernelHeight claimedAt) ∧
          offer.name = name ∧ offer.sellerPubkey = owner := by
  have sameNames : after.names = before.names → False := by
    intro same
    rw [Db.lookup_congr same] at lost
    exact lost owned
  have moved : ∀ {changed : String} {newOwner : Option String},
      before.Reassigned after changed newOwner → name = changed := by
    intro changed newOwner reassigned
    apply Classical.byContradiction
    intro different
    rw [reassigned name, if_neg different] at lost
    exact lost owned
  cases effect with
  | kept _ same => exact absurd same.names sameNames
  | registered free _ reassigned _ _ =>
      rw [moved reassigned, free] at owned
      cases owned
  | released _ reassigned _ _ =>
      rw [moved reassigned]
      exact .inl rfl
  | lodged _ names _ _ => exact absurd names sameNames
  | died _ _ _ names _ _ => exact absurd names sameNames
  | revised names _ _ => exact absurd names sameNames
  | claimed claimed =>
      have same := moved claimed.reassigned
      rw [same, claimed.owned] at owned
      exact .inr ⟨_, _, _, _, rfl, same.symm, Option.some.inj owned⟩

theorem Op.exec_clock (env : Env) (op : Op) (world : World) :
    (op.exec env world).2.unixTime = world.unixTime ∧
      (op.exec env world).2.chainTip = world.chainTip := by
  cases op <;> exact ⟨rfl, rfl⟩

/-! ## What is never undone -/

/-- The signed terms of an offer are fixed, and a dead offer stays dead with
the death record it has. -/
structure OfferRow.Evolves (earlier later : OfferRow) : Prop where
  terms : later = { earlier with
    status := later.status
    endHeight := later.endHeight
    stateChangedAt := later.stateChangedAt }
  dead : earlier.status ≠ .live → later.status ≠ .live ∧
    later.endHeight = earlier.endHeight ∧
    later.stateChangedAt = earlier.stateChangedAt

namespace OfferRow.Evolves

variable {earlier middle later : OfferRow}

theorem refl (row : OfferRow) : row.Evolves row :=
  ⟨rfl, fun dead => ⟨dead, rfl, rfl⟩⟩

theorem trans (first : earlier.Evolves middle)
    (second : middle.Evolves later) : earlier.Evolves later := by
  refine ⟨second.terms.trans ?_, fun dead => ?_⟩
  · rw [first.terms]
  · obtain ⟨middleDead, firstHeight, firstChanged⟩ := first.dead dead
    obtain ⟨laterDead, secondHeight, secondChanged⟩ := second.dead middleDead
    exact ⟨laterDead, secondHeight.trans firstHeight,
      secondChanged.trans firstChanged⟩

theorem offerId (evolves : earlier.Evolves later) :
    later.offerId = earlier.offerId := by
  rw [evolves.terms]

theorem name (evolves : earlier.Evolves later) :
    later.name = earlier.name := by
  rw [evolves.terms]

theorem sellerPubkey (evolves : earlier.Evolves later) :
    later.sellerPubkey = earlier.sellerPubkey := by
  rw [evolves.terms]

theorem buyerPubkey (evolves : earlier.Evolves later) :
    later.buyerPubkey = earlier.buyerPubkey := by
  rw [evolves.terms]

theorem proofAddress (evolves : earlier.Evolves later) :
    later.proofAddress = earlier.proofAddress := by
  rw [evolves.terms]

theorem expiration (evolves : earlier.Evolves later) :
    later.expiration = earlier.expiration := by
  rw [evolves.terms]

end OfferRow.Evolves

/-- What no step undoes: offers stay, with their terms, and so do transfers. -/
structure Db.Evolves (earlier later : Db) : Prop where
  offers : ∀ row ∈ earlier.offers.rows,
    ∃ current ∈ later.offers.rows, row.Evolves current
  transfers : ∀ row ∈ earlier.transfers.rows, row ∈ later.transfers.rows

namespace Db.Evolves

theorem refl (db : Db) : db.Evolves db :=
  ⟨fun row member => ⟨row, member, .refl row⟩, fun _ member => member⟩

theorem trans {earlier middle later : Db} (first : earlier.Evolves middle)
    (second : middle.Evolves later) : earlier.Evolves later := by
  refine ⟨fun row member => ?_, fun row member =>
    second.transfers row (first.transfers row member)⟩
  obtain ⟨between, betweenMember, firstStep⟩ := first.offers row member
  obtain ⟨current, currentMember, secondStep⟩ :=
    second.offers between betweenMember
  exact ⟨current, currentMember, firstStep.trans secondStep⟩

end Db.Evolves

/-- What a step makes of the offers: each evolves, and at most a new one is
lodged. -/
structure Db.OffersStep (before after : Db) (op : Op)
    (change : OfferRow → OfferRow) : Prop where
  evolves : ∀ row ∈ before.offers.rows, row.Evolves (change row)
  kept : ∀ row ∈ before.offers.rows, change row ∈ after.offers.rows
  origin : ∀ row ∈ after.offers.rows,
    (∃ old ∈ before.offers.rows, row = change old) ∨
      op = .db (.insertOffer row) ∧
        ∀ old ∈ before.offers.rows, old.offerId ≠ row.offerId

theorem Db.OffersStep.of_same {before after : Db} {op : Op}
    (same : after.offers = before.offers) :
    before.OffersStep after op id where
  evolves row _ := .refl row
  kept row member := by rwa [same]
  origin row member := .inl ⟨row, by rwa [← same], rfl⟩

theorem Db.OffersStep.of_revised {before after : Db} {op : Op}
    {offerId : String} {change : OfferRow → OfferRow}
    (revised : before.Revised after offerId change)
    (changes : ∀ row ∈ before.offers.rows, row.offerId = offerId →
      row.Evolves (change row)) :
    before.OffersStep after op fun row =>
      if row.offerId = offerId then change row else row where
  evolves row member := by
    split
    · rename_i sameId
      exact changes row member sameId
    · exact .refl row
  kept row member := (revised _).mpr ⟨row, member, rfl⟩
  origin row member := .inl ((revised row).mp member)

theorem Effect.offersStep {now : Int} {before after : Db} {op : Op}
    {answer : op.Ans} (effect : Effect now before after op answer) :
    ∃ change, before.OffersStep after op change := by
  cases effect with
  | kept _ same => exact ⟨id, .of_same same.offers⟩
  | registered _ _ _ offers _ => exact ⟨id, .of_same offers⟩
  | released _ _ offers _ => exact ⟨id, .of_same offers⟩
  | @lodged row fresh _ offers _ =>
      refine ⟨id, fun row _ => .refl row, fun row member => ?_,
        fun row member => ?_⟩
      · rw [offers]
        exact List.mem_append_left _ member
      · rw [offers, List.mem_append, List.mem_singleton] at member
        rcases member with old | rfl
        · exact .inl ⟨row, old, rfl⟩
        · exact .inr ⟨rfl, fresh⟩
  | died member sameId live _ revised _ =>
      refine ⟨_, .of_revised revised fun row rowMember rowId => ⟨rfl, ?_⟩⟩
      have same := before.offers.eq_of_key rowMember member
        (rowId.trans sameId.symm)
      rw [same]
      exact fun dead => absurd live dead
  | revised _ revised _ =>
      exact ⟨_, .of_revised revised fun row _ _ =>
        ⟨rfl, fun _ => ⟨nofun, rfl, rfl⟩⟩⟩
  | claimed claimed =>
      exact ⟨_, .of_revised claimed.offers fun row _ _ =>
        ⟨rfl, fun _ => ⟨nofun, rfl, rfl⟩⟩⟩

theorem Effect.transfers {now : Int} {before after : Db} {op : Op}
    {answer : op.Ans} (effect : Effect now before after op answer) :
    after.transfers = before.transfers ∨
      ∃ offer excessHex kernelHeight claimedAt,
        op = .db (.runClaimTxn offer excessHex kernelHeight claimedAt) ∧
          before.Claimed after offer excessHex kernelHeight claimedAt := by
  cases effect with
  | kept _ same => exact .inl same.transfers
  | registered _ _ _ _ transfers => exact .inl transfers
  | released _ _ _ transfers => exact .inl transfers
  | lodged _ _ _ transfers => exact .inl transfers
  | died _ _ _ _ _ transfers => exact .inl transfers
  | revised _ _ transfers => exact .inl transfers
  | claimed claimed => exact .inr ⟨_, _, _, _, rfl, claimed⟩

theorem Effect.evolves {now : Int} {before after : Db} {op : Op}
    {answer : op.Ans} (effect : Effect now before after op answer) :
    before.Evolves after := by
  obtain ⟨change, step⟩ := effect.offersStep
  refine ⟨fun row member =>
    ⟨change row, step.kept row member, step.evolves row member⟩,
    fun row member => ?_⟩
  rcases effect.transfers with same | ⟨_, _, _, _, _, claimed⟩
  · rwa [same]
  · rw [claimed.transfers]
    exact List.mem_append_left _ member

/-- Every offer was stored before or has just been lodged. -/
theorem Effect.offer_origin {now : Int} {before after : Db} {op : Op}
    {answer : op.Ans} (effect : Effect now before after op answer)
    {row : OfferRow} (member : row ∈ after.offers.rows) :
    (∃ old ∈ before.offers.rows, old.Evolves row) ∨
      op = .db (.insertOffer row) ∧
        ∀ old ∈ before.offers.rows, old.offerId ≠ row.offerId := by
  obtain ⟨change, step⟩ := effect.offersStep
  rcases step.origin row member with ⟨old, oldMember, rfl⟩ | lodged
  · exact .inl ⟨old, oldMember, step.evolves old oldMember⟩
  · exact .inr lodged

/-- Later worlds of a run. -/
structure World.Evolves (earlier later : World) : Prop where
  clock : earlier.unixTime.seconds ≤ later.unixTime.seconds
  chain : earlier.chainTip ≤ later.chainTip
  db : earlier.db.Evolves later.db

namespace World.Evolves

theorem refl (world : World) : world.Evolves world :=
  ⟨Int.le_refl _, Nat.le_refl _, .refl _⟩

theorem trans {earlier middle later : World}
    (first : earlier.Evolves middle) (second : middle.Evolves later) :
    earlier.Evolves later :=
  ⟨Int.le_trans first.clock second.clock,
    Nat.le_trans first.chain second.chain, first.db.trans second.db⟩

theorem exec (env : Env) (op : Op) (world : World) :
    world.Evolves (op.exec env world).2 := by
  obtain ⟨sameTime, sameTip⟩ := op.exec_clock env world
  refine ⟨?_, Nat.le_of_eq sameTip.symm, (op.exec_effect env world).evolves⟩
  exact Int.le_of_eq (congrArg UnixTime.seconds sameTime.symm)

theorem tick (elapsed : Tick) (world : World) :
    world.Evolves (world.tick elapsed) := by
  refine ⟨?_, Nat.le_add_right _ _, .refl _⟩
  have bounded := world.unixTime.bounded
  simp only [World.tick, UnixTime.advance]
  omega

end World.Evolves

end Floonet
