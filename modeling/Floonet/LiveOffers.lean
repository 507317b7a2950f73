import Floonet.Addresses
import Floonet.Client
import Floonet.Runs

/-!
# Offers on sale

Lodging checks that no other offer on sale has the name or the address, and
inserts later.  No constraint of the table guards the insertion, so the offers
on sale are distinct as long as lodgings do not overlap.
-/

namespace Floonet

open Concurrent System Text Validation

variable {ext : Extern} {cfg : Config}
  {permitted : Permission World Request Op Op.Ans Response}

/-! ## Distinct sales -/

/-- The offer is `live` and not past its expiration. -/
def World.OnSale (world : World) (row : OfferRow) : Prop :=
  row ∈ world.db.offers.rows ∧ row.onSale world.unixTime.seconds = true

/-- No two offers on sale agree in `value`. -/
def World.SalesDistinct {Value : Type} (value : OfferRow → Value)
    (world : World) : Prop :=
  ∀ left right, world.OnSale left → world.OnSale right →
    value left = value right → left = right

/-- An offer on sale was on sale before the time passed. -/
theorem OfferRow.onSale_earlier {row : OfferRow} {earlier later : Int}
    (passed : earlier ≤ later) (onSale : row.onSale later = true) :
    row.onSale earlier = true := by
  rw [OfferRow.onSale_iff] at onSale ⊢
  exact ⟨onSale.1, Int.le_trans passed onSale.2⟩

theorem OfferRow.Evolves.onSale {earlier later : OfferRow} {now : Int}
    (evolves : earlier.Evolves later) (onSale : later.onSale now = true) :
    earlier.onSale now = true := by
  rw [OfferRow.onSale_iff] at onSale ⊢
  rw [← evolves.expiration]
  refine ⟨?_, onSale.2⟩
  apply Decidable.byContradiction
  intro dead
  exact (evolves.dead dead).1 onSale.1

theorem onSale_origin {env : Env} {op : Op} {world : World} {row : OfferRow}
    (onSale : (op.exec env world).2.OnSale row) :
    (∃ old, world.OnSale old ∧ old.Evolves row) ∨
      op = .db (.insertOffer row) := by
  obtain ⟨member, isOnSale⟩ := onSale
  rw [(op.exec_clock env world).1] at isOnSale
  rcases (op.exec_effect env world).offer_origin member with
    ⟨old, oldMember, evolves⟩ | ⟨lodged, -⟩
  · exact .inl ⟨old, ⟨oldMember, evolves.onSale isOnSale⟩, evolves⟩
  · exact .inr lodged

/-- Between an evolution and the present, an offer on sale was on sale. -/
theorem World.Evolves.onSale {earlier later : World} {row : OfferRow}
    {stored : OfferRow} (evolves : earlier.Evolves later)
    (onSale : later.OnSale row) (member : stored ∈ earlier.db.offers.rows)
    (sameId : stored.offerId = row.offerId) :
    stored.Evolves row ∧ earlier.OnSale stored := by
  obtain ⟨current, currentMember, storedEvolves⟩ :=
    evolves.db.offers stored member
  have same := later.db.offers.eq_of_key currentMember onSale.1
    (storedEvolves.offerId.trans sameId)
  subst same
  exact ⟨storedEvolves, member,
    OfferRow.onSale_earlier evolves.clock (storedEvolves.onSale onSale.2)⟩

/-- A step keeps sales distinct unless it lodges an offer whose value is
already on sale. -/
theorem World.SalesDistinct.exec {Value : Type} {value : OfferRow → Value}
    (fixed : ∀ earlier later : OfferRow, earlier.Evolves later →
      value later = value earlier)
    {env : Env} {op : Op} {world : World}
    (distinct : world.SalesDistinct value)
    (free : ∀ row, op = .db (.insertOffer row) →
      ∀ other, world.OnSale other → value other ≠ value row) :
    (op.exec env world).2.SalesDistinct value := by
  intro left right leftOnSale rightOnSale sameValue
  have byId : ∀ {old : OfferRow}, left.offerId = old.offerId →
      right.offerId = old.offerId → left = right :=
    fun leftId rightId => (op.exec env world).2.db.offers.eq_of_key
      leftOnSale.1 rightOnSale.1 (leftId.trans rightId.symm)
  rcases onSale_origin leftOnSale with ⟨oldLeft, wasLeft, leftEvolves⟩ | lodgesLeft
  · rcases onSale_origin rightOnSale with
      ⟨oldRight, wasRight, rightEvolves⟩ | lodgesRight
    · have same : oldLeft = oldRight := by
        apply distinct oldLeft oldRight wasLeft wasRight
        rw [← fixed oldLeft left leftEvolves, sameValue,
          fixed oldRight right rightEvolves]
      subst same
      exact byId leftEvolves.offerId rightEvolves.offerId
    · have differs := free right lodgesRight oldLeft wasLeft
      rw [← fixed oldLeft left leftEvolves] at differs
      exact absurd sameValue differs
  · rcases onSale_origin rightOnSale with
      ⟨oldRight, wasRight, rightEvolves⟩ | lodgesRight
    · have differs := free left lodgesLeft oldRight wasRight
      rw [← fixed oldRight right rightEvolves] at differs
      exact absurd sameValue.symm differs
    · have same := lodgesLeft.symm.trans lodgesRight
      cases same
      rfl

theorem World.SalesDistinct.tick {Value : Type} {value : OfferRow → Value}
    {world : World} (elapsed : Tick) (distinct : world.SalesDistinct value) :
    (world.tick elapsed).SalesDistinct value := by
  have earlier : ∀ row, (world.tick elapsed).OnSale row → world.OnSale row :=
    fun row onSale => ⟨onSale.1, OfferRow.onSale_earlier
      (World.Evolves.tick elapsed world).clock onSale.2⟩
  exact fun left right leftOnSale rightOnSale =>
    distinct left right (earlier left leftOnSale) (earlier right rightOnSale)

/-! ## Overlapping lodgings -/

/-- Every offer on sale with the value `wanted` was stored when the check was
made. -/
def NoneSince (value : OfferRow → String) (wanted : String)
    (check : Taken World Op Op.Ans) (world : World) : Prop :=
  ∀ other, world.OnSale other → value other = wanted →
    ∃ stored ∈ check.after.db.offers.rows, stored.offerId = other.offerId

/-- When a lodging inserts its offer, none of the offers on sale with the same
name was inserted since its check of the name, and none with the same address
since its check of the address. -/
def lodgesApart : Permission World Request Op Op.Ans Response :=
  fun pool label _ => ∀ index taken thread row, label = .act index taken →
    pool.threads[index]? = some thread → taken.op = .db (.insertOffer row) →
    ∀ check ∈ thread.past,
      (∀ now, check.op = .db (.liveOfferForName row.name now) →
        NoneSince OfferRow.name row.name check pool.state) ∧
      (∀ now, check.op = .db (.liveOfferBinding row.proofAddress now) →
        NoneSince OfferRow.proofAddress row.proofAddress check pool.state)

section Lodging

variable {pool : FloonetPool} {thread : FloonetThread}

theorem free_of_check {value : OfferRow → String} {wanted : String}
    {check : Taken World Op Op.Ans} {now : Int}
    (fixed : ∀ earlier later : OfferRow, earlier.Evolves later →
      value later = value earlier)
    (evolves : check.after.Evolves pool.state)
    (clock : now ≤ pool.state.unixTime.seconds)
    (free : ∀ stored ∈ check.after.db.offers.rows, value stored = wanted →
      stored.onSale now = false)
    (none : NoneSince value wanted check pool.state) :
    ∀ other, pool.state.OnSale other → value other ≠ wanted := by
  intro other onSale sameValue
  obtain ⟨stored, storedMember, sameId⟩ := none other onSale sameValue
  obtain ⟨storedEvolves, -⟩ := evolves.onSale onSale storedMember sameId
  have wasOnSale := storedEvolves.onSale
    (OfferRow.onSale_earlier clock onSale.2)
  have notOnSale := free stored storedMember
    ((fixed stored other storedEvolves).symm.trans sameValue)
  rw [notOnSale] at wasOnSale
  cases wasOnSale

theorem nameCheck (reachable : (server ext cfg).Reachable permitted pool)
    (member : thread ∈ pool.threads) {name : String} {now : Int}
    (saw : History.Saw thread.events (.db (.liveOfferForName name now)) false) :
    ∃ check ∈ thread.past, check.op = .db (.liveOfferForName name now) ∧
      check.after.Evolves pool.state ∧
      ∀ stored ∈ check.after.db.offers.rows, stored.name = name →
        stored.onSale now = false := by
  obtain ⟨env, world, checkMember, answer, evolves⟩ :=
    Reachable.saw reachable member saw
  exact ⟨_, checkMember, rfl, evolves,
    Db.liveOfferForName_eq_false.mp answer.symm⟩

theorem addressCheck (reachable : (server ext cfg).Reachable permitted pool)
    (member : thread ∈ pool.threads) {address : String} {now : Int}
    (saw : History.Saw thread.events (.db (.liveOfferBinding address now))
      false) :
    ∃ check ∈ thread.past, check.op = .db (.liveOfferBinding address now) ∧
      check.after.Evolves pool.state ∧
      ∀ stored ∈ check.after.db.offers.rows, stored.proofAddress = address →
        stored.onSale now = false := by
  obtain ⟨env, world, checkMember, answer, evolves⟩ :=
    Reachable.saw reachable member saw
  exact ⟨_, checkMember, rfl, evolves,
    Db.liveOfferBinding_eq_false.mp answer.symm⟩

/-- What lodgings that do not overlap insert is not on sale yet. -/
theorem lodging_free
    (reachable : (server ext cfg).Reachable permitted pool)
    (member : thread ∈ pool.threads) {row : OfferRow}
    {next : Op.Ans (.db (.insertOffer row)) → Handler Response}
    (pending : thread.program = .step (.db (.insertOffer row)) next)
    (apart : ∀ check ∈ thread.past,
      (∀ now, check.op = .db (.liveOfferForName row.name now) →
        NoneSince OfferRow.name row.name check pool.state) ∧
      (∀ now, check.op = .db (.liveOfferBinding row.proofAddress now) →
        NoneSince OfferRow.proofAddress row.proofAddress check pool.state)) :
    ∀ other, pool.state.OnSale other →
      other.name ≠ row.name ∧ other.proofAddress ≠ row.proofAddress := by
  have leads := Reachable.leads reachable member pending
  generalize thread.request = request at leads
  cases leads with
  | silent silent => cases silent
  | lodge _ _ clock _ _ nameFree addressFree _ =>
      have passed := (Reachable.sawClock reachable member clock).2
      obtain ⟨nameChecked, nameMember, nameOp, nameEvolves, names⟩ :=
        nameCheck reachable member nameFree
      obtain ⟨addressChecked, addressMember, addressOp, addressEvolves,
        addresses⟩ := addressCheck reachable member addressFree
      intro other onSale
      constructor
      · exact free_of_check (fun _ _ evolves => evolves.name) nameEvolves
          passed names ((apart _ nameMember).1 _ nameOp) other onSale
      · exact free_of_check (fun _ _ evolves => evolves.proofAddress)
          addressEvolves passed addresses ((apart _ addressMember).2 _ addressOp)
          other onSale

end Lodging

/-- Names and addresses on sale are distinct in every run whose lodgings do
not overlap. -/
theorem sales_distinct {pool : FloonetPool}
    (reachable : (server ext cfg).Reachable lodgesApart pool) :
    pool.state.SalesDistinct OfferRow.name ∧
      pool.state.SalesDistinct OfferRow.proofAddress := by
  apply Reachable.invariant (fun world => world.SalesDistinct OfferRow.name ∧
    world.SalesDistinct OfferRow.proofAddress) ?start ?act ?tick reachable
  case start =>
    intro world initial
    have none : ∀ row, ¬ world.OnSale row := by
      intro row onSale
      have member := onSale.1
      rw [initial.db] at member
      cases member
    exact ⟨fun left _ onSale => absurd onSale (none left),
      fun left _ onSale => absurd onSale (none left)⟩
  case act =>
    intro pool index thread op next env before induction found pending apart
    have free : ∀ row, op = .db (.insertOffer row) → ∀ other,
        pool.state.OnSale other →
          other.name ≠ row.name ∧ other.proofAddress ≠ row.proofAddress := by
      rintro row rfl
      exact lodging_free before (List.mem_of_getElem? found) pending
        (apart index _ thread row rfl found rfl)
    constructor
    · apply induction.1.exec (fun _ _ evolves => evolves.name)
      exact fun row lodges other onSale => (free row lodges other onSale).1
    · apply induction.2.exec (fun _ _ evolves => evolves.proofAddress)
      exact fun row lodges other onSale => (free row lodges other onSale).2
  case tick =>
    exact fun elapsed world induction =>
      ⟨induction.1.tick elapsed, induction.2.tick elapsed⟩

section Schedules

open Sample

/-- The first offer ever is being inserted, or no offer is. -/
def firstLodging (pool : FloonetPool) :
    Label World Request Op Op.Ans → Bool
  | .act _ taken => match taken.op with
    | .db (.insertOffer _) => pool.state.db.offers.rows.isEmpty
    | _ => true
  | _ => true

theorem lodgesApart_of_firstLodging {pool later : FloonetPool}
    {label : Label World Request Op Op.Ans}
    (first : firstLodging pool label = true) : lodgesApart pool label later := by
  rintro index taken thread row rfl found lodges check _
  simp only [firstLodging, lodges, List.isEmpty_iff] at first
  have none : ∀ (value : OfferRow → String) wanted,
      NoneSince value wanted check pool.state := by
    intro value wanted other onSale
    have member := onSale.1
    rw [first] at member
    cases member
  exact ⟨fun _ _ => none _ _, fun _ _ => none _ _⟩

theorem sales_distinct_lodging : ∃ pool,
    Market.Reachable lodgesApart pool ∧
      (pool.state.db.offers.rows.any fun row =>
        row.onSale pool.state.unixTime.seconds) = true ∧
      pool.state.SalesDistinct OfferRow.name := by
  have reached : ∃ pool, Market.Reachable lodgesApart pool ∧
      (pool.state.db.offers.rows.any fun row =>
        row.onSale pool.state.unixTime.seconds) = true :=
    play_reaches (fun pool label _ => firstLodging pool label)
      (fun _ _ _ => lodgesApart_of_firstLodging) world_initial lodging
      (by decide +kernel)
  obtain ⟨pool, reachable, onSale⟩ := reached
  exact ⟨pool, reachable, onSale, (sales_distinct reachable).1⟩

/-- Both offers of `alice` pass their checks before either is inserted. -/
def overlappingLodgings : List Market.Move :=
  Market.alone registerSeller 0 (node 100 100) 10 ++
    Market.alone lodgeFirst 1 (node 100 100) 9 ++
    Market.alone lodgeSecond 2 (node 100 100) 10 ++ [.act 1 (node 100 100)]

theorem sales_collide : ∃ pool, Market.Reachable anyMove pool ∧
    ∃ left right, pool.state.OnSale left ∧ pool.state.OnSale right ∧
      left.name = right.name ∧ left ≠ right := by
  have reached : ∃ pool, Market.Reachable anyMove pool ∧
      (pool.state.db.offers.rows.any fun left =>
        pool.state.db.offers.rows.any fun right =>
          left.onSale pool.state.unixTime.seconds &&
            right.onSale pool.state.unixTime.seconds &&
            decide (left.name = right.name ∧
              left.proofAddress ≠ right.proofAddress)) = true :=
    play_reaches (fun _ _ _ => true) (fun _ _ _ _ => trivial) world_initial
      overlappingLodgings (by decide +kernel)
  obtain ⟨pool, reachable, both⟩ := reached
  obtain ⟨left, leftMember, both⟩ := List.any_eq_true.mp both
  obtain ⟨right, rightMember, both⟩ := List.any_eq_true.mp both
  simp only [Bool.and_eq_true, decide_eq_true_iff] at both
  obtain ⟨⟨leftOnSale, rightOnSale⟩, sameName, differ⟩ := both
  exact ⟨pool, reachable, left, right, ⟨leftMember, leftOnSale⟩,
    ⟨rightMember, rightOnSale⟩, sameName,
    fun same => differ (congrArg OfferRow.proofAddress same)⟩

end Schedules

/-! ## Serial runs -/

/-- Lodgings do not overlap when requests are served one at a time. -/
theorem lodgesApart_of_serial {pool : FloonetPool}
    (reachable : (server ext cfg).Reachable oneAtATime pool) :
    (server ext cfg).Reachable lodgesApart pool := by
  apply reachable.mono
  intro pool label later before step _ index taken thread row isAct found
    lodges check checkMember
  have member := List.mem_of_getElem? found
  cases step with
  | arrive => cases isAct
  | tick => cases isAct
  | @act acting actor op next env actorFound pending =>
      cases isAct
      rw [found] at actorFound
      cases actorFound
      have isInsertion : op = .db (.insertOffer row) := lodges
      subst isInsertion
      have leads := Reachable.leads before member pending
      generalize thread.request = request at leads
      cases leads with
      | silent silent => cases silent
      | lodge _ _ _ _ _ _ _ unwritten =>
          have same := Reachable.unwritten before member
            (Thread.not_finished_of_pending pending) unwritten check checkMember
          have none : ∀ value wanted,
              NoneSince value wanted check pool.state := by
            intro value wanted other onSale _
            have otherMember := onSale.1
            rw [same.offers] at otherMember
            exact ⟨other, otherMember, rfl⟩
          exact ⟨fun _ _ => none _ _, fun _ _ => none _ _⟩

/-- The addresses of the stored offers are in normal form. -/
def World.Normalized (ext : Extern) (world : World) : Prop :=
  ∀ row ∈ world.db.offers.rows, ∃ address,
    row.proofAddress = normalizeGrinAddress ext address

theorem lodgeRequest_normalizes {authPubkey : String} {body : Bytes}
    {lodgement : Lodgement}
    (accepted : lodgeRequest ext cfg authPubkey body = .ok lodgement) :
    ∃ address, lodgement.proofAddress = normalizeGrinAddress ext address := by
  simp only [lodgeRequest, bind_eq_ok, require_eq_ok, demand_eq_ok,
    pure_eq_ok] at accepted
  obtain ⟨_, -, _, -, _, -, _, -, _, -, _, -, tags, -, _, -, _, -, _, -, _, -,
    _, -, _, -, rfl⟩ := accepted
  exact ⟨tags.proofAddress, rfl⟩

theorem Reachable.normalized {pool : FloonetPool}
    (reachable : (server ext cfg).Reachable permitted pool) :
    pool.state.Normalized ext := by
  apply Reachable.invariant (World.Normalized ext) ?start ?act ?tick reachable
  case start =>
    intro world initial row member
    rw [initial.db] at member
    cases member
  case act =>
    intro pool index thread op next env before induction found pending _ row
      member
    rcases (op.exec_effect env pool.state).offer_origin member with
      ⟨old, oldMember, evolves⟩ | ⟨rfl, -⟩
    · rw [evolves.proofAddress]
      exact induction old oldMember
    · have leads := Reachable.leads before (List.mem_of_getElem? found) pending
      generalize thread.request = request at leads
      cases leads with
      | silent silent => cases silent
      | lodge _ accepted => exact lodgeRequest_normalizes accepted
  case tick => exact fun _ _ induction => induction

/-- Two offers on sale with classic addresses under one prefix are paid to
different keys. -/
def World.KeysDistinct (ext : Extern) (world : World) : Prop :=
  ∀ left right, world.OnSale left → world.OnSale right → left ≠ right →
    ∀ hrp leftData rightData key,
      ClassicAddress ext left.proofAddress hrp leftData →
      ClassicAddress ext right.proofAddress hrp rightData →
      decodeGrinAddress ext left.proofAddress = some key →
      decodeGrinAddress ext right.proofAddress ≠ some key

/-- Addresses on sale are distinct as texts, and as keys under one prefix. -/
theorem addresses_distinct (decoder : ext.Bech32Decoder)
    {log : List FloonetExchange} {world : World}
    (run : (server ext cfg).SerialRun log world) :
    world.SalesDistinct OfferRow.proofAddress ∧ world.KeysDistinct ext := by
  obtain ⟨threads, reachable, -⟩ := run.embed
  have texts := (sales_distinct (lodgesApart_of_serial reachable)).2
  refine ⟨texts, ?_⟩
  -- The crate may decode upper-case text too; no stored address has any.
  have notUpper : ∀ row, world.OnSale row →
      ∀ c ∈ row.proofAddress.toList, isAsciiUppercase c = false := by
    intro row onSale
    obtain ⟨address, normal⟩ := Reachable.normalized reachable row onSale.1
    rw [normal]
    exact normalizeGrinAddress_notUpper ext address
  intro left right leftOnSale rightOnSale differ hrp leftData rightData key
    leftAddress rightAddress leftKeyed rightKeyed
  apply differ
  apply texts left right leftOnSale rightOnSale
  exact leftAddress.eq_of_key decoder (notUpper left leftOnSale) rightAddress
    (notUpper right rightOnSale) leftKeyed rightKeyed

section Schedules

open Sample

/-- Two sellers sell at addresses that differ in their prefixes. -/
theorem addresses_distinct_lodging : ∃ log world,
    Market.SerialRun log world ∧ world.db.offers.rows.length = 2 ∧
      world.SalesDistinct OfferRow.proofAddress ∧ world.KeysDistinct host := by
  have reached : ∃ log world, Market.SerialRun log world ∧
      world.db.offers.rows.length = 2 :=
    conduct_reaches world_initial
      [.serve (node 100 100) registerSeller, .serve (node 100 100) lodgeFirst,
        .serve (node 100 100) registerBob, .serve (node 100 100) lodgeRival]
      (by decide +kernel)
  obtain ⟨log, world, run, stored⟩ := reached
  exact ⟨log, world, run, stored, addresses_distinct host_decoder run⟩

/-- Two sellers lodge offers that name one key under the two prefixes. -/
theorem keys_collide : ∃ log world, Market.SerialRun log world ∧
    ∃ left right, world.OnSale left ∧ world.OnSale right ∧ left ≠ right ∧
      decodeGrinAddress host left.proofAddress =
        decodeGrinAddress host right.proofAddress := by
  have reached : ∃ log world, Market.SerialRun log world ∧
      (world.db.offers.rows.any fun left =>
        world.db.offers.rows.any fun right =>
          left.onSale world.unixTime.seconds &&
            right.onSale world.unixTime.seconds &&
            decide (left.proofAddress = firstAddress ∧
              right.proofAddress = firstTestAddress)) = true :=
    conduct_reaches world_initial
      [.serve (node 100 100) registerSeller, .serve (node 100 100) lodgeFirst,
        .serve (node 100 100) registerBob, .serve (node 100 100) lodgeRival]
      (by decide +kernel)
  obtain ⟨log, world, run, both⟩ := reached
  obtain ⟨left, leftMember, both⟩ := List.any_eq_true.mp both
  obtain ⟨right, rightMember, both⟩ := List.any_eq_true.mp both
  simp only [Bool.and_eq_true, decide_eq_true_iff] at both
  obtain ⟨⟨leftOnSale, rightOnSale⟩, leftAddress, rightAddress⟩ := both
  refine ⟨log, world, run, left, right, ⟨leftMember, leftOnSale⟩,
    ⟨rightMember, rightOnSale⟩, ?_, ?_⟩
  · intro same
    have sameAddress := congrArg OfferRow.proofAddress same
    rw [leftAddress, rightAddress] at sameAddress
    revert sameAddress
    decide +kernel
  · rw [leftAddress, rightAddress]
    decide +kernel

end Schedules

/-! ## Sellers and owners -/

/-- Every offer on sale is signed by the owner of its name. -/
def World.SellersOwn (world : World) : Prop :=
  ∀ row, world.OnSale row →
    world.db.lookup row.name = some row.sellerPubkey

/-- No name is released while an offer of it is on sale, or claimed while
another offer of it is. -/
def salesKept : Permission World Request Op Op.Ans Response :=
  fun pool label _ => ∀ index taken, label = .act index taken →
    ∀ row, pool.state.OnSale row →
      taken.op ≠ .db (.releaseName row.name) ∧
      ∀ offer excessHex kernelHeight now,
        taken.op = .db (.runClaimTxn offer excessHex kernelHeight now) →
          offer.name = row.name → offer.offerId = row.offerId

theorem Effect.claimed_offSale {now : Int} {before after : Db}
    {offer : OfferRow} {excessHex : String} {kernelHeight : Option Int}
    {claimedAt : Int} {answer : Except TxErr Unit}
    (effect : Effect now before after
      (.db (.runClaimTxn offer excessHex kernelHeight claimedAt)) answer)
    {row : OfferRow} (member : row ∈ after.offers.rows)
    (sameId : offer.offerId = row.offerId) :
    before.SameMarket after ∨ row.status = .consumed := by
  cases effect with
  | kept _ same => exact .inl same
  | claimed claimed =>
      obtain ⟨old, -, rfl⟩ := (claimed.offers row).mp member
      right
      split at sameId
      · rename_i isOffer
        rw [if_pos isOffer]
      · rename_i notOffer
        exact absurd sameId.symm notOffer

theorem sellersOwn_exec
    {pool : FloonetPool} {thread : FloonetThread} {op : Op}
    {next : op.Ans → Handler Response} {index : Nat} (env : Env)
    (reachable : (server ext cfg).Reachable oneAtATime pool)
    (found : pool.threads[index]? = some thread)
    (pending : thread.program = .step op next)
    (sellersOwn : pool.state.SellersOwn)
    (kept : ∀ row, pool.state.OnSale row →
      op ≠ .db (.releaseName row.name) ∧
      ∀ offer excessHex kernelHeight now,
        op = .db (.runClaimTxn offer excessHex kernelHeight now) →
          offer.name = row.name → offer.offerId = row.offerId) :
    (op.exec env pool.state).2.SellersOwn := by
  intro row onSale
  have effect := op.exec_effect env pool.state
  have member := List.mem_of_getElem? found
  rcases onSale_origin onSale with ⟨old, wasOnSale, evolves⟩ | rfl
  · have owned := sellersOwn old wasOnSale
    obtain ⟨unreleased, claims⟩ := kept old wasOnSale
    rw [← evolves.name, ← evolves.sellerPubkey] at owned
    rw [← evolves.name] at unreleased
    apply Classical.byContradiction
    intro lost
    rcases effect.loses owned lost with
      rfl | ⟨offer, excessHex, kernelHeight, claimedAt, rfl, named, -⟩
    · exact unreleased rfl
    · have sameId := claims offer excessHex kernelHeight claimedAt rfl
        (named.trans evolves.name)
      rcases effect.claimed_offSale onSale.1
        (sameId.trans evolves.offerId.symm) with same | consumed
      · rw [Db.lookup_congr same.names] at lost
        exact lost owned
      · have live := (OfferRow.onSale_iff.mp onSale.2).1
        rw [consumed] at live
        cases live
  · have leads := Reachable.leads reachable member pending
    generalize thread.request = request at leads
    cases leads with
    | silent silent => cases silent
    | lodge _ _ _ _ owner _ _ unwritten =>
        obtain ⟨env', world, lookedUp, answer, -⟩ :=
          Reachable.saw reachable member owner
        have same := Reachable.unwritten reachable member
          (Thread.not_finished_of_pending pending) unwritten _ lookedUp
        rw [Db.lookup_congr (effect.names rfl), Db.lookup_congr same.names]
        exact answer.symm

/-- As long as names change hands only without other sales of them, the owner
of a name on sale is its seller, so no offer of a former owner keeps the owner
from lodging. -/
theorem sellers_own {pool : FloonetPool}
    (reachable : (server ext cfg).Reachable (fun before label after =>
      oneAtATime before label after ∧ salesKept before label after) pool) :
    pool.state.SellersOwn ∧
    ∀ name owner, pool.state.db.lookup name = some owner →
      pool.state.db.liveOfferForName name pool.state.unixTime.seconds = true →
        ∃ row, pool.state.OnSale row ∧ row.name = name ∧
          row.sellerPubkey = owner := by
  have sellersOwn : pool.state.SellersOwn := by
    apply Reachable.invariant World.SellersOwn ?start ?act ?tick reachable
    case start =>
      intro world initial row onSale
      have member := onSale.1
      rw [initial.db] at member
      cases member
    case act =>
      intro pool index thread op next env before induction found pending kept
      have serial := before.mono fun _ _ _ _ _ both => both.1
      exact sellersOwn_exec env serial found pending induction
        (kept.2 index _ rfl)
    case tick =>
      intro elapsed world induction row onSale
      apply induction row
      exact ⟨onSale.1, OfferRow.onSale_earlier
        (World.Evolves.tick elapsed world).clock onSale.2⟩
  refine ⟨sellersOwn, fun name owner owned blocked => ?_⟩
  obtain ⟨row, member, named⟩ := Relational.Table.exists?_eq_true.mp blocked
  simp only [Bool.and_eq_true, decide_eq_true_iff] at named
  have owns := sellersOwn row ⟨member, named.2⟩
  rw [named.1, owned] at owns
  exact ⟨row, ⟨member, named.2⟩, named.1, (Option.some.inj owns).symm⟩

section Schedules

open Sample

/-- A serial move that takes no name away. -/
def keepsOwners (pool : FloonetPool) : Label World Request Op Op.Ans → Bool
  | .act _ taken => match taken.op with
    | .db (.releaseName _) => false
    | .db (.runClaimTxn _ _ _ _) => false
    | _ => true
  | _ => pool.threads.all fun thread => thread.program.nextOp.isNone

theorem salesKept_of_keepsOwners {pool later : FloonetPool}
    {label : Label World Request Op Op.Ans}
    (keeps : keepsOwners pool label = true) :
    oneAtATime pool label later ∧ salesKept pool label later := by
  constructor
  · intro notAct thread member
    have finished : (pool.threads.all fun thread =>
        thread.program.nextOp.isNone) = true := by
      cases label with
      | act index taken => exact absurd rfl (notAct index taken)
      | _ => exact keeps
    have done := List.all_eq_true.mp finished thread member
    exact Program.nextOp_eq_none.mp (Option.isNone_iff_eq_none.mp done)
  · rintro index taken rfl row -
    simp only [keepsOwners] at keeps
    constructor
    · intro isRelease
      rw [isRelease] at keeps
      cases keeps
    · intro offer excessHex kernelHeight now isClaim
      rw [isClaim] at keeps
      cases keeps

theorem sellers_own_lodging : ∃ pool,
    Market.Reachable (fun before label after =>
      oneAtATime before label after ∧ salesKept before label after) pool ∧
    ∃ row, pool.state.OnSale row ∧
      pool.state.db.lookup row.name = some row.sellerPubkey := by
  have reached : ∃ pool,
      Market.Reachable (fun before label after =>
        oneAtATime before label after ∧ salesKept before label after) pool ∧
      (pool.state.db.offers.rows.any fun row =>
        row.onSale pool.state.unixTime.seconds) = true :=
    play_reaches (fun pool label _ => keepsOwners pool label)
      (fun _ _ _ => salesKept_of_keepsOwners) world_initial lodging
      (by decide +kernel)
  obtain ⟨pool, reachable, onSale⟩ := reached
  obtain ⟨row, member, onSale⟩ := List.any_eq_true.mp onSale
  exact ⟨pool, reachable, row, ⟨member, onSale⟩,
    (sellers_own reachable).1 row ⟨member, onSale⟩⟩

/-- The seller of the offer on sale has released the name. -/
theorem sellers_release : ∃ log world, Market.SerialRun log world ∧
    ∃ row, world.OnSale row ∧
      world.db.lookup row.name ≠ some row.sellerPubkey := by
  have reached : ∃ log world, Market.SerialRun log world ∧
      (world.db.offers.rows.any fun row =>
        row.onSale world.unixTime.seconds &&
          decide (world.db.lookup row.name ≠ some row.sellerPubkey)) = true :=
    conduct_reaches world_initial
      [.serve (node 100 100) registerSeller, .serve (node 100 100) lodgeFirst,
        .serve (node 100 100) release]
      (by decide +kernel)
  obtain ⟨log, world, run, lost⟩ := reached
  obtain ⟨row, member, lost⟩ := List.any_eq_true.mp lost
  simp only [Bool.and_eq_true, decide_eq_true_iff] at lost
  exact ⟨log, world, run, row, ⟨member, lost.1⟩, lost.2⟩

end Schedules

end Floonet
