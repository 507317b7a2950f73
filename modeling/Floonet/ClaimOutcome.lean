import Floonet.DeathRecord
import Floonet.OfferLifecycle

/-!
# The outcome of a claim

What a claim answers and writes when no other request runs: the conditions of
the response 201, in the order of the checks, and the tables afterwards.
-/

namespace Floonet

open Concurrent MachineInt Program System Validation

variable {ext : Extern} {cfg : Config} {env : Env} {world : World}

/-! ## The opening -/

def Op.offTables : Op → Bool
  | .db _ => false
  | _ => true

theorem Op.exec_offTables {op : Op} (off : op.offTables = true) (env : Env)
    (world : World) : (op.exec env world).2.db = world.db := by
  cases op with
  | db op => cases off
  | _ => rfl

theorem authorize_offTables (bucket : String) (headers : Headers)
    (method : Method) (urlPath : String) (body : Bytes) (past : History) :
    (authorize ext cfg bucket headers method urlPath body).Every
      (fun _ op => op.offTables = true) (fun _ _ => True) past := by
  have keeps : ∀ (past' : History) (op : Op), op.offTables = true →
      op.offTables = true := fun _ _ off => off
  have allowOff : (App.allowWrite cfg bucket (clientIp headers)).Every
      (fun _ op => op.offTables = true) (fun _ _ => True) past :=
    ⟨rfl, fun _ => ⟨rfl, fun _ => trivial⟩⟩
  have verifyOff : (verifyNip98 ext cfg headers method urlPath body).Uses
      fun _ op => op.offTables = true :=
    (verifyNip98_reads ext cfg headers method urlPath body).mono
      (by simp [Op.offTables])
  unfold authorize
  refine allowOff.quiet_bind keeps fun new allowed _ _ => ?_
  split
  · trivial
  · refine (verifyOff _).quiet_bind keeps fun new' result _ _ => ?_
    rcases result with ⟨code, message⟩ | ⟨pubkey, authId⟩
    · trivial
    · refine ⟨rfl, fun _ => ⟨rfl, fun fresh => ?_⟩⟩
      cases fresh <;> trivial

theorem authorize_run (ext : Extern) (cfg : Config) (env : Env)
    (world : World) (bucket : String) (headers : Headers) (method : Method)
    (urlPath : String) (body : Bytes) :
    ((authorize ext cfg bucket headers method urlPath body).run (Op.exec env)
      world).2.db = world.db := by
  refine (authorize_offTables bucket headers method urlPath body
    []).run_preserves (fun later : World => later.db = world.db) ?_ rfl
  intro op later off same
  rw [Op.exec_offTables off, same]

theorem authorize_signer {bucket : String} {headers : Headers}
    {method : Method} {urlPath : String} {body : Bytes} {authPubkey : String}
    (authorized : ((authorize ext cfg bucket headers method urlPath body).run
      (Op.exec env) world).1 = .ok authPubkey) :
    headers.signer = some authPubkey := by
  obtain ⟨past, result⟩ := (authorize_silent ext cfg bucket headers method
    urlPath body []).run_result (Op.exec env) world
  rw [authorized] at result
  exact result

theorem authorize_refusal {bucket : String} {headers : Headers}
    {method : Method} {urlPath : String} {body : Bytes} {refusal : Response}
    (refused : ((authorize ext cfg bucket headers method urlPath body).run
      (Op.exec env) world).1 = .error refusal) : refusal.TurnsAway := by
  obtain ⟨past, result⟩ := (authorize_silent ext cfg bucket headers method
    urlPath body []).run_result (Op.exec env) world
  rw [refused] at result
  exact result

/-- No program moves the clock. -/
theorem run_clock {Res : Type} (env : Env) (program : Handler Res)
    (world : World) :
    (program.run (Op.exec env) world).2.unixTime = world.unixTime := by
  refine run_preserves (Op.exec env)
    (fun later => later.unixTime = world.unixTime) ?_ program world rfl
  intro op later same
  rw [(op.exec_clock env later).1, same]

/-! ## Settling -/

/-- The node reports heights that fit the columns of the tables. -/
structure Env.HeightsBounded (env : Env) : Prop where
  tip : ∀ height, env.tipHeight = .ok height → height.toNat < 2 ^ 63
  kernel : ∀ excessHex kernel height, env.kernel excessHex = .ok kernel →
    kernel.height = some height → height.toNat < 2 ^ 63

/-- The tip that a node reports. -/
def Env.reportedTip (env : Env) : Option Int :=
  env.tipHeight.toOption.map fun height => height.toNat

/-- The tip as it is recorded. -/
def Env.recordedTip (env : Env) : Option Int :=
  env.tipHeight.toOption.map fun height => asI64 height.toNat

theorem Env.HeightsBounded.recordedTip (bounded : env.HeightsBounded) :
    env.recordedTip = env.reportedTip := by
  unfold Env.recordedTip Env.reportedTip
  cases answer : env.tipHeight with
  | ok height =>
      simp [Except.toOption, asI64_of_lt (bounded.tip height answer)]
  | error message => rfl

/-- The height of a kernel that a node reports. -/
def Env.kernelHeight (env : Env) (excessHex : String) : Option Int :=
  (env.kernel excessHex).toOption.bind fun kernel =>
    kernel.height.map fun height => height.toNat

/-- The offer as `settle_expiry` leaves it. -/
def settled (tip : Option Int) (now : Int) (offer : OfferRow) : OfferRow :=
  if offer.status = .live ∧ offer.expiration < now then
    { offer with
      status := .expired
      endHeight := tip
      stateChangedAt := some now }
  else offer

theorem settled_offerId (tip : Option Int) (now : Int) (offer : OfferRow) :
    (settled tip now offer).offerId = offer.offerId := by
  unfold settled
  split <;> rfl

theorem settled_buyerPubkey (tip : Option Int) (now : Int) (offer : OfferRow) :
    (settled tip now offer).buyerPubkey = offer.buyerPubkey := by
  unfold settled
  split <;> rfl

theorem deathHeight_run (enabled : cfg.allowTransfers = true) :
    (deathHeight cfg).run (Op.exec env) world = (env.recordedTip, world) := by
  unfold deathHeight Env.recordedTip
  rw [enabled]
  cases answer : env.tipHeight with
  | ok height => simp [Op.exec, answer, Except.toOption]
  | error message => simp [Op.exec, answer, Except.toOption]

/-- The tables after settling an offer at time `now`. -/
structure Db.SettledAt (tip : Option Int) (now : Int) (offerId : String)
    (before after : Db) : Prop where
  names : after.names = before.names
  offers : before.Revised after offerId (settled tip now)
  transfers : after.transfers = before.transfers
  paidGrants : after.paidGrants = before.paidGrants

theorem settleExpiry_run (env : Env) (now : Int)
    (enabled : cfg.allowTransfers = true) {offer : OfferRow}
    (member : offer ∈ world.db.offers.rows) :
    ∃ db, (settleExpiry cfg offer now).run (Op.exec env) world =
        (settled env.recordedTip now offer, { world with db }) ∧
      Db.SettledAt env.recordedTip now offer.offerId world.db db := by
  have sole : ∀ row ∈ world.db.offers.rows, row.offerId = offer.offerId →
      row = offer := fun row rowMember =>
    world.db.offers.eq_of_key rowMember member
  by_cases late : offer.status = .live ∧ offer.expiration < now
  · have notSettled : ¬(offer.status ≠ .live ∨ now ≤ offer.expiration) := by
      rintro (dead | early)
      · exact dead late.1
      · omega
    rcases world.db.markOfferDead_cases offer.offerId .expired env.recordedTip
        now with ⟨-, none⟩ | ⟨offers, old, done, -, -, -, revised⟩
    · exact absurd late.1 (none offer member rfl)
    · have settles : Db.SettledAt env.recordedTip now offer.offerId world.db
          { world.db with offers } := by
        refine ⟨rfl, revised.congr fun row rowMember sameId => ?_, rfl, rfl⟩
        rw [sole row rowMember sameId, settled, if_pos late]
      have found : ({ world.db with offers } : Db).getOffer offer.offerId =
          some (settled env.recordedTip now offer) := by
        apply Db.getOffer_eq_some.mpr
        refine ⟨(settles.offers _).mpr ⟨offer, member, ?_⟩,
          settled_offerId _ now offer⟩
        rw [if_pos rfl]
      refine ⟨{ world.db with offers }, ?_, settles⟩
      simp only [settleExpiry, if_neg notSettled, run_bind,
        deathHeight_run enabled]
      simp [Op.exec, DbOp.exec, done, found]
  · have isSettled : offer.status ≠ .live ∨ now ≤ offer.expiration := by
      by_cases live : offer.status = .live
      · exact .inr (Int.not_lt.mp fun past => late ⟨live, past⟩)
      · exact .inl live
    have unchanged : settled env.recordedTip now offer = offer := if_neg late
    refine ⟨world.db, ?_, rfl, ?_, rfl, rfl⟩
    · rw [unchanged, settleExpiry, if_pos isSettled]
      rfl
    · refine Db.Revised.of_same fun row rowMember sameId => ?_
      rw [sole row rowMember sameId, unchanged]

/-! ## The gates -/

/-- A dead offer is claimed within the grace window, for a kernel that settled
at or below the height of its death. -/
def InTime (cfg : Config) (env : Env) (offer : OfferRow) (excessHex : String)
    (now : Int) : Prop :=
  offer.status = .revoked ∨ offer.status = .expired →
    ∃ changed endHeight height, offer.stateChangedAt = some changed ∧
      now - changed ≤ cfg.transferClaimGrace ∧
      offer.endHeight = some endHeight ∧
      env.kernelHeight excessHex = some height ∧ height ≤ endHeight

/-- The node has found the kernel, with enough confirmations. -/
def Confirmed (cfg : Config) (env : Env) (excessHex : String) : Prop :=
  ∃ kernel, env.kernel excessHex = .ok kernel ∧ kernel.found = true ∧
    cfg.transferMinConf ≤ kernel.confirmations.toNat

theorem deathGate_alive {offer : OfferRow} {now : Int}
    (alive : ¬(offer.status = .revoked ∨ offer.status = .expired)) :
    deathGate cfg offer now = .ok none :=
  if_neg alive

theorem deathGate_eq_ok {offer : OfferRow} {now : Int}
    {deadEndHeight : Option Int} (recorded : offer.DeathRecorded now)
    (bounded : now < 2 ^ 63)
    (dead : offer.status = .revoked ∨ offer.status = .expired) :
    deathGate cfg offer now = .ok deadEndHeight ↔
      ∃ changed endHeight, offer.stateChangedAt = some changed ∧
        now - changed ≤ cfg.transferClaimGrace ∧
        offer.endHeight = some endHeight ∧ deadEndHeight = some endHeight := by
  obtain ⟨changed, known⟩ := Option.isSome_iff_exists.mp (recorded.known dead)
  obtain ⟨nonneg, past⟩ := recorded.past changed known
  have exact_ : wrapI64 (now - changed) = now - changed :=
    wrapI64_of_bounds (by omega) (by omega)
  simp only [deathGate, if_pos dead, known, Option.getD_some, exact_,
    bind_eq_ok, require_eq_ok, demand_eq_ok, pure_eq_ok, decide_eq_true_iff,
    Option.some.injEq]
  constructor
  · rintro ⟨-, inWindow, endHeight, recorded, rfl⟩
    exact ⟨changed, endHeight, rfl, inWindow, recorded, rfl⟩
  · rintro ⟨_, endHeight, rfl, inWindow, recorded, rfl⟩
    exact ⟨(), inWindow, endHeight, recorded, rfl⟩

theorem settledInTime_some {endHeight : Int} {kernelHeight : Option Int} :
    settledInTime (some endHeight) kernelHeight = true ↔
      ∃ height, kernelHeight = some height ∧ height ≤ endHeight := by
  cases kernelHeight with
  | none => simp [settledInTime]
  | some height => simp [settledInTime]

/-- Both halves of the death gate, before and after the node answers. -/
theorem inTime_iff {offer : OfferRow} {now : Int} {excessHex : String}
    (recorded : offer.DeathRecorded now) (bounded : now < 2 ^ 63) :
    InTime cfg env offer excessHex now ↔
      ∃ deadEndHeight, deathGate cfg offer now = .ok deadEndHeight ∧
        settledInTime deadEndHeight (env.kernelHeight excessHex) = true := by
  by_cases dead : offer.status = .revoked ∨ offer.status = .expired
  · simp only [deathGate_eq_ok recorded bounded dead]
    constructor
    · intro inTime
      obtain ⟨changed, endHeight, height, known, inWindow, died, settles,
        below⟩ := inTime dead
      exact ⟨some endHeight, ⟨changed, endHeight, known, inWindow, died, rfl⟩,
        settledInTime_some.mpr ⟨height, settles, below⟩⟩
    · rintro ⟨-, ⟨changed, endHeight, known, inWindow, died, rfl⟩, settles⟩ -
      obtain ⟨height, settles, below⟩ := settledInTime_some.mp settles
      exact ⟨changed, endHeight, height, known, inWindow, died, settles, below⟩
  · constructor
    · exact fun _ => ⟨none, deathGate_alive dead, rfl⟩
    · exact fun _ isDead => absurd isDead dead

theorem kernelGate_eq_ok {offer : OfferRow} {excessHex : String}
    {deadEndHeight kernelHeight : Option Int} (bounded : env.HeightsBounded) :
    kernelGate cfg offer deadEndHeight (env.kernel excessHex) =
        .ok kernelHeight ↔
      Confirmed cfg env excessHex ∧
        settledInTime deadEndHeight (env.kernelHeight excessHex) = true ∧
        kernelHeight = env.kernelHeight excessHex := by
  have cast : ∀ kernel, env.kernel excessHex = .ok kernel →
      kernel.height.map (fun height => asI64 height.toNat) =
        env.kernelHeight excessHex := by
    intro kernel answer
    rw [Env.kernelHeight, answer]
    cases known : kernel.height with
    | none => simp [Except.toOption, known]
    | some height =>
        have small := bounded.kernel excessHex kernel height answer known
        simp [Except.toOption, known, asI64_of_lt small]
  simp only [kernelGate, bind_eq_ok, require_eq_ok, demand_eq_ok, pure_eq_ok,
    toOption_eq_some, Bool.and_eq_true, decide_eq_true_iff, Confirmed]
  constructor
  · rintro ⟨kernel, answer, -, ⟨found, deep⟩, -, settles, rfl⟩
    rw [cast kernel answer] at settles ⊢
    exact ⟨⟨kernel, answer, found, deep⟩, settles, rfl⟩
  · rintro ⟨⟨kernel, answer, found, deep⟩, settles, rfl⟩
    refine ⟨kernel, answer, (), ⟨found, deep⟩, (), ?_, cast kernel answer⟩
    rwa [cast kernel answer]

theorem proofGate_eq_ok {offer : OfferRow} {payment : Payment} :
    proofGate offer payment = .ok () ↔
      payment.verified = true ∧ payment.recipient = offer.proofAddress ∧
        0 ≤ offer.priceNanogrin ∧
        (payment.amount.toNat : Int) = offer.priceNanogrin := by
  have cast : 0 ≤ offer.priceNanogrin →
      (payment.amount.toNat = asU64 offer.priceNanogrin ↔
        (payment.amount.toNat : Int) = offer.priceNanogrin) := by
    intro nonneg
    have price := asU64_of_nonneg nonneg
    omega
  simp only [proofGate, bind_eq_ok, require_eq_ok, Bool.and_eq_true,
    beq_iff_eq, decide_eq_true_iff]
  constructor
  · rintro ⟨-, verified, -, recipient, nonneg, amount⟩
    exact ⟨verified, recipient, nonneg, (cast nonneg).mp amount⟩
  · rintro ⟨verified, recipient, nonneg, amount⟩
    exact ⟨(), verified, (), recipient, nonneg, (cast nonneg).mpr amount⟩

/-! ## The decision -/

/-- A response 201 after certain writes if a condition holds, and otherwise
another response and other tables. -/
structure Decides (accepted : Prop) (Wrote Kept : Db → Prop)
    (out : Response × World) : Prop where
  created : accepted → out.1.status = .created ∧ Wrote out.2.db
  refused : ¬accepted → out.1.status ≠ .created ∧ Kept out.2.db

section Decides

variable {accepted accepted' : Prop} {Wrote Wrote' Kept Kept' : Db → Prop}
  {out : Response × World}

theorem Decides.refuse (impossible : ¬accepted)
    (status : out.1.status ≠ .created) (kept : Kept out.2.db) :
    Decides accepted Wrote Kept out where
  created holds := absurd holds impossible
  refused _ := ⟨status, kept⟩

theorem Decides.imp (decides : Decides accepted Wrote Kept out)
    (same : accepted' ↔ accepted)
    (wrote : accepted → ∀ after, Wrote after → Wrote' after)
    (kept : ∀ after, Kept after → Kept' after) :
    Decides accepted' Wrote' Kept' out where
  created holds := by
    have isAccepted := same.mp holds
    obtain ⟨status, wrote'⟩ := decides.created isAccepted
    exact ⟨status, wrote isAccepted _ wrote'⟩
  refused impossible := by
    obtain ⟨status, kept'⟩ := decides.refused fun holds =>
      impossible (same.mpr holds)
    exact ⟨status, kept _ kept'⟩

theorem Decides.created_iff (decides : Decides accepted Wrote Kept out) :
    out.1.status = .created ↔ accepted := by
  constructor
  · intro created
    apply Classical.byContradiction
    intro impossible
    exact (decides.refused impossible).1 created
  · exact fun holds => (decides.created holds).1

end Decides

theorem claimRetry_run (offerId excessHex : String) :
    ((claimRetry cfg offerId excessHex).run (Op.exec env) world).1.status ≠
        .created ∧
      ((claimRetry cfg offerId excessHex).run (Op.exec env) world).2.db =
        world.db := by
  unfold claimRetry
  simp only [App.transferForOffer, perform_bind, run_step]
  split
  · split
    · exact ⟨nofun, rfl⟩
    · exact ⟨nofun, rfl⟩
  · exact ⟨nofun, rfl⟩

theorem nodeKernel_run (enabled : cfg.allowTransfers = true)
    (excessHex : String) :
    (nodeKernel cfg excessHex).run (Op.exec env) world =
      (env.kernel excessHex, world) := by
  unfold nodeKernel
  rw [enabled]
  rfl

theorem executeClaim_run {offer : OfferRow} {excessHex : String}
    (kernelHeight : Option Int) (now : Int)
    (owned : world.db.lookup offer.name = some offer.sellerPubkey)
    (nameless : world.db.nameOf offer.buyerPubkey = none)
    (unused : ∀ row ∈ world.db.transfers.rows,
      row.offerId ≠ offer.offerId ∧ row.kernelExcess ≠ excessHex) :
    ((executeClaim cfg offer excessHex kernelHeight now).run (Op.exec env)
        world).1.status = .created ∧
      world.db.Claimed ((executeClaim cfg offer excessHex kernelHeight now).run
        (Op.exec env) world).2.db offer excessHex kernelHeight now := by
  rcases world.db.runClaimTxn_cases offer excessHex kernelHeight now with
    ⟨error, -, why⟩ | ⟨after, done, claimed⟩
  · rcases why with disowned | ⟨row, member, used⟩ | named
    · exact absurd owned disowned
    · obtain ⟨otherId, otherExcess⟩ := unused row member
      rcases used with sameId | sameExcess
      · exact absurd sameId otherId
      · exact absurd sameExcess otherExcess
    · exact absurd nameless named
  · simp only [executeClaim, App.runClaimTxn, App.recordOp, perform_bind,
      run_step, Op.exec, DbOp.exec, done, pure_eq_done, run_done]
    exact ⟨trivial, claimed⟩

theorem claimPaid_decides (enabled : cfg.allowTransfers = true)
    (bounded : env.HeightsBounded) {offer : OfferRow} {excessHex : String}
    (deadEndHeight : Option Int) (now : Int)
    (owned : world.db.lookup offer.name = some offer.sellerPubkey)
    (unsold : ∀ row ∈ world.db.transfers.rows, row.offerId ≠ offer.offerId) :
    Decides (Confirmed cfg env excessHex ∧
        settledInTime deadEndHeight (env.kernelHeight excessHex) = true ∧
        (∀ row ∈ world.db.transfers.rows, row.kernelExcess ≠ excessHex) ∧
        world.db.nameOf offer.buyerPubkey = none)
      (fun after => world.db.Claimed after offer excessHex
        (env.kernelHeight excessHex) now) (· = world.db)
      ((claimPaid cfg offer excessHex deadEndHeight now).run (Op.exec env)
        world) := by
  unfold claimPaid
  rw [run_bind, nodeKernel_run enabled]
  dsimp only
  cases gate : kernelGate cfg offer deadEndHeight (env.kernel excessHex) with
  | error refusal =>
      refine .refuse ?_
        (kernelGate_refuses cfg offer deadEndHeight _ refusal gate) rfl
      rintro ⟨confirmed, settles, -⟩
      have opened : kernelGate cfg offer deadEndHeight (env.kernel excessHex) =
          .ok (env.kernelHeight excessHex) :=
        (kernelGate_eq_ok bounded).mpr ⟨confirmed, settles, rfl⟩
      rw [gate] at opened
      cases opened
  | ok kernelHeight =>
      obtain ⟨confirmed, settles, rfl⟩ := (kernelGate_eq_ok bounded).mp gate
      cases used : world.db.excessUsed excessHex with
      | true =>
          have asked : Op.exec env (.db (.excessUsed excessHex)) world =
              (true, world) := congrArg (·, world) used
          rw [App.excessUsed, run_perform_bind _ asked]
          refine .refuse ?_ nofun rfl
          rintro ⟨-, -, unused, -⟩
          rw [Db.excessUsed_eq_false.mpr unused] at used
          cases used
      | false =>
          have unused := Db.excessUsed_eq_false.mp used
          have asked : Op.exec env (.db (.excessUsed excessHex)) world =
              (false, world) := congrArg (·, world) used
          rw [App.excessUsed, run_perform_bind _ asked, if_neg nofun]
          cases named : world.db.nameOf offer.buyerPubkey with
          | some existing =>
              have lookedUp : Op.exec env (.db (.nameOf offer.buyerPubkey))
                  world = (some existing, world) := congrArg (·, world) named
              rw [App.nameOf, run_perform_bind _ lookedUp]
              refine .refuse ?_ nofun rfl
              rintro ⟨-, -, -, nameless⟩
              cases nameless
          | none =>
              have lookedUp : Op.exec env (.db (.nameOf offer.buyerPubkey))
                  world = (none, world) := congrArg (·, world) named
              rw [App.nameOf, run_perform_bind _ lookedUp]
              refine ⟨fun _ => ?_, fun refused =>
                absurd ⟨confirmed, settles, unused, rfl⟩ refused⟩
              exact executeClaim_run _ now owned named
                fun row member => ⟨unsold row member, unused row member⟩

/-- The conditions under which a key may claim an offer, settled, with a
payment. -/
structure Claimable (cfg : Config) (env : Env) (db : Db) (authPubkey : String)
    (offer : OfferRow) (payment : Payment) (now : Int) : Prop where
  unsold : offer.status ≠ .consumed
  inTime : InTime cfg env offer payment.excessHex now
  buyer : authPubkey = offer.buyerPubkey
  owner : db.lookup offer.name = some offer.sellerPubkey
  verified : payment.verified = true
  recipient : payment.recipient = offer.proofAddress
  priced : 0 ≤ offer.priceNanogrin
  amount : (payment.amount.toNat : Int) = offer.priceNanogrin
  confirmed : Confirmed cfg env payment.excessHex
  unused : ∀ row ∈ db.transfers.rows, row.kernelExcess ≠ payment.excessHex
  nameless : db.nameOf offer.buyerPubkey = none

theorem claimOffer_decides (enabled : cfg.allowTransfers = true)
    (bounded : env.HeightsBounded) {authPubkey offerId : String}
    {payment : Payment} {offer : OfferRow} {now : Int}
    (recorded : offer.DeathRecorded now) (clock : now < 2 ^ 63)
    (unsold : offer.status ≠ .consumed →
      ∀ row ∈ world.db.transfers.rows, row.offerId ≠ offer.offerId) :
    Decides (Claimable cfg env world.db authPubkey offer payment now)
      (fun after => world.db.Claimed after offer payment.excessHex
        (env.kernelHeight payment.excessHex) now) (· = world.db)
      ((claimOffer cfg authPubkey offerId payment offer now).run (Op.exec env)
        world) := by
  unfold claimOffer
  by_cases consumed : offer.status = .consumed
  · rw [if_pos consumed]
    exact .refuse (fun claimable => claimable.unsold consumed)
      (claimRetry_run offerId payment.excessHex).1
      (claimRetry_run offerId payment.excessHex).2
  rw [if_neg consumed]
  cases gate : deathGate cfg offer now with
  | error refusal =>
      refine .refuse (fun claimable => ?_)
        (deathGate_refuses cfg offer now refusal gate) rfl
      obtain ⟨deadEndHeight, opened, -⟩ :=
        (inTime_iff recorded clock).mp claimable.inTime
      rw [gate] at opened
      cases opened
  | ok deadEndHeight =>
      dsimp only
      by_cases buyer : authPubkey = offer.buyerPubkey
      · rw [if_neg (not_not_intro buyer)]
        have asked : Op.exec env (.db (.lookup offer.name)) world =
          (world.db.lookup offer.name, world) := rfl
        rw [App.lookup, run_perform_bind _ asked]
        by_cases owner : world.db.lookup offer.name = some offer.sellerPubkey
        · rw [if_neg (not_not_intro owner)]
          cases paid : proofGate offer payment with
          | error refusal =>
              refine .refuse (fun claimable => ?_)
                (proofGate_refuses offer payment refusal paid) rfl
              have opened := proofGate_eq_ok.mpr
                ⟨claimable.verified, claimable.recipient, claimable.priced,
                  claimable.amount⟩
              rw [paid] at opened
              cases opened
          | ok _ =>
              obtain ⟨verified, recipient, priced, amount⟩ :=
                proofGate_eq_ok.mp paid
              refine (claimPaid_decides enabled bounded deadEndHeight now owner
                (unsold consumed)).imp ⟨fun claimable => ?_, ?_⟩
                (fun _ _ => id) fun _ => id
              · obtain ⟨_, opened, settles⟩ :=
                  (inTime_iff recorded clock).mp claimable.inTime
                rw [gate] at opened
                cases opened
                exact ⟨claimable.confirmed, settles, claimable.unused,
                  claimable.nameless⟩
              · rintro ⟨confirmed, settles, unused, nameless⟩
                exact {
                  unsold := consumed
                  inTime := (inTime_iff recorded clock).mpr
                    ⟨deadEndHeight, gate, settles⟩
                  buyer, owner, verified, recipient, priced, amount, confirmed,
                  unused, nameless }
        · rw [if_pos owner]
          exact .refuse (fun claimable => owner claimable.owner) nofun rfl
      · rw [if_pos buyer]
        exact .refuse (fun claimable => buyer claimable.buyer) nofun rfl

/-! ## The whole claim -/

theorem settled_consumed (tip : Option Int) (now : Int) (offer : OfferRow) :
    (settled tip now offer).status = .consumed ↔
      offer.status = .consumed := by
  unfold settled
  split
  · rename_i late
    simp [late.1]
  · rfl

theorem settled_recorded (tip : Option Int) {now : Int} {offer : OfferRow}
    (nonneg : 0 ≤ now) (recorded : offer.DeathRecorded now) :
    (settled tip now offer).DeathRecorded now := by
  unfold settled
  split
  · refine ⟨fun _ => rfl, ?_⟩
    rintro changed ⟨⟩
    exact ⟨nonneg, Int.le_refl now⟩
  · exact recorded

theorem Claimable.of_same {before after : Db} {authPubkey : String}
    {offer : OfferRow} {payment : Payment} {now : Int}
    (claimable : Claimable cfg env before authPubkey offer payment now)
    (names : after.names = before.names)
    (transfers : after.transfers = before.transfers) :
    Claimable cfg env after authPubkey offer payment now where
  unsold := claimable.unsold
  inTime := claimable.inTime
  buyer := claimable.buyer
  owner := by
    rw [Db.lookup_congr names]
    exact claimable.owner
  verified := claimable.verified
  recipient := claimable.recipient
  priced := claimable.priced
  amount := claimable.amount
  confirmed := claimable.confirmed
  unused := by
    rw [transfers]
    exact claimable.unused
  nameless := by
    rw [Db.nameOf, names]
    exact claimable.nameless

/-- The tables after the sale of a settled offer: its name has moved to the
buyer, its transfer is recorded and it is consumed. -/
structure Db.Sold (env : Env) (before after : Db) (offer : OfferRow)
    (excessHex : String) (now : Int) : Prop where
  names : ∃ old ∈ before.names.rows,
    old.name = offer.name ∧ old.pubkey = offer.sellerPubkey ∧
      old.active = true ∧
      ∀ row, row ∈ after.names.rows ↔
        row = { old with pubkey := offer.buyerPubkey, createdAt := now } ∨
          row ∈ before.names.rows ∧ row.name ≠ offer.name
  transfers : after.transfers.rows = before.transfers.rows ++
    [claimedTransfer offer excessHex (env.kernelHeight excessHex) now]
  offers : before.Revised after offer.offerId fun row =>
    { settled env.reportedTip now row with status := .consumed }
  paidGrants : after.paidGrants = before.paidGrants

theorem Db.Sold.of_claimed {before middle after : Db} {offer : OfferRow}
    {excessHex : String} {now : Int}
    (settledAt : before.SettledAt env.reportedTip now offer.offerId middle)
    (claimed : middle.Claimed after offer excessHex
      (env.kernelHeight excessHex) now) :
    before.Sold env after offer excessHex now where
  names := by
    rw [← settledAt.names]
    exact claimed.names
  transfers := by
    rw [claimed.transfers, settledAt.transfers]
    rfl
  offers := by
    intro row
    rw [claimed.offers row]
    have sameId : ∀ old : OfferRow,
        (if old.offerId = offer.offerId then settled env.reportedTip now old
          else old).offerId = old.offerId := by
      intro old
      split
      · exact settled_offerId _ now old
      · rfl
    constructor
    · rintro ⟨between, member, rfl⟩
      obtain ⟨old, oldMember, rfl⟩ := (settledAt.offers between).mp member
      refine ⟨old, oldMember, ?_⟩
      rw [sameId old]
      split <;> rfl
    · rintro ⟨old, oldMember, rfl⟩
      refine ⟨_, (settledAt.offers _).mpr ⟨old, oldMember, rfl⟩, ?_⟩
      rw [sameId old]
      split <;> rfl
  paidGrants := claimed.paidGrants.trans settledAt.paidGrants

/-- Nothing but the offers may differ. -/
structure Db.KeptBut (before after : Db) : Prop where
  names : after.names = before.names
  transfers : after.transfers = before.transfers
  paidGrants : after.paidGrants = before.paidGrants

theorem claimById_unknown {authPubkey offerId : String} {payment : Payment}
    (unknown : world.db.getOffer offerId = none) :
    (claimById cfg authPubkey offerId payment).run (Op.exec env) world =
      (err .notFound "not found", world) := by
  have asked : Op.exec env (.db (.getOffer offerId)) world =
    (none, world) := congrArg (·, world) unknown
  rw [claimById, App.getOffer, run_perform_bind _ asked]
  rfl

/-- The claim of a stored offer is the claim of the offer once settled. -/
theorem claimById_run (enabled : cfg.allowTransfers = true)
    (authPubkey : String) (payment : Payment) {offer : OfferRow}
    (member : offer ∈ world.db.offers.rows) :
    ∃ db, Db.SettledAt env.recordedTip world.unixTime.seconds offer.offerId
        world.db db ∧
      (claimById cfg authPubkey offer.offerId payment).run (Op.exec env)
          world =
        (claimOffer cfg authPubkey offer.offerId payment
          (settled env.recordedTip world.unixTime.seconds offer)
          world.unixTime.seconds).run (Op.exec env) { world with db } := by
  have found := Db.getOffer_eq_some.mpr ⟨member, rfl⟩
  have asked : Op.exec env (.db (.getOffer offer.offerId)) world =
    (some offer, world) := congrArg (·, world) found
  have clock : Op.exec env .unixNow world =
    (world.unixTime.seconds, world) := rfl
  obtain ⟨db, settles, settledAt⟩ :=
    settleExpiry_run env world.unixTime.seconds enabled member
  refine ⟨db, settledAt, ?_⟩
  rw [claimById, App.getOffer, run_perform_bind _ asked]
  dsimp only
  rw [App.unixNow, run_perform_bind _ clock, run_bind, settles]

theorem claimById_decides (enabled : cfg.allowTransfers = true)
    (bounded : env.HeightsBounded) (authPubkey offerId : String)
    (payment : Payment) (sold : world.db.Settled)
    (recorded : world.db.DeathsRecorded world.unixTime.seconds) :
    Decides (∃ stored ∈ world.db.offers.rows, stored.offerId = offerId ∧
        Claimable cfg env world.db authPubkey
          (settled env.reportedTip world.unixTime.seconds stored) payment
          world.unixTime.seconds)
      (fun after => ∃ stored ∈ world.db.offers.rows,
        stored.offerId = offerId ∧ world.db.Sold env after
          (settled env.reportedTip world.unixTime.seconds stored) payment.excessHex
          world.unixTime.seconds)
      world.db.KeptBut
      ((claimById cfg authPubkey offerId payment).run (Op.exec env) world) := by
  cases found : world.db.getOffer offerId with
  | none =>
      rw [claimById_unknown found]
      refine .refuse ?_ nofun ⟨rfl, rfl, rfl⟩
      rintro ⟨stored, member, sameId, -⟩
      exact Db.getOffer_eq_none.mp found stored member sameId
  | some offer =>
      obtain ⟨member, rfl⟩ := Db.getOffer_eq_some.mp found
      obtain ⟨db, settledAt, isRun⟩ :=
        claimById_run enabled authPubkey payment member
      rw [bounded.recordedTip] at isRun settledAt
      rw [isRun]
      have unsold : (settled env.reportedTip world.unixTime.seconds offer).status ≠
          .consumed → ∀ row ∈ db.transfers.rows, row.offerId ≠
            (settled env.reportedTip world.unixTime.seconds offer).offerId := by
        rw [ne_eq, settled_consumed, settled_offerId, settledAt.transfers]
        intro open_ row rowMember isOffer
        exact open_ ((sold.consumed offer member).mpr ⟨row, rowMember, isOffer⟩)
      have settledRecorded := settled_recorded env.reportedTip
        world.unixTime.nonneg (recorded offer member)
      refine Decides.imp (claimOffer_decides enabled bounded settledRecorded
        world.unixTime.bounded unsold) ⟨?_, ?_⟩ ?_ ?_
      · rintro ⟨stored, storedMember, storedId, claimable⟩
        have same := world.db.offers.eq_of_key storedMember member storedId
        subst same
        exact claimable.of_same settledAt.names settledAt.transfers
      · intro claimable
        exact ⟨offer, member, rfl, claimable.of_same settledAt.names.symm
          settledAt.transfers.symm⟩
      · intro _ after claimed
        refine ⟨offer, member, rfl, .of_claimed ?_ claimed⟩
        rw [settled_offerId]
        exact settledAt
      · rintro after rfl
        exact ⟨settledAt.names, settledAt.transfers, settledAt.paidGrants⟩

/-- The body carries the id of an offer, in any letter case, and a payment
proof that parses. -/
def ClaimBody (ext : Extern) (body : Bytes) (offerId : String)
    (proof : ParsedPaymentProof) : Prop :=
  ∃ req idText proofVal, ext.jsonFromSlice body = some req ∧
    req.get "offer_id" = some (.string idText) ∧ isOfferId idText = true ∧
    req.get "proof" = some proofVal ∧
    parsePaymentProof ext proofVal = some proof ∧
    offerId = ext.cases.toLowercase idText

theorem asStr_eq_some {json : Json} {text : String} :
    json.asStr = some text ↔ json = .string text := by
  cases json <;> simp [Json.asStr]

theorem claimRequest_eq_ok {body : Bytes} {offerId : String}
    {proof : ParsedPaymentProof} :
    claimRequest ext body = .ok (offerId, proof) ↔
      ClaimBody ext body offerId proof := by
  simp only [claimRequest, bind_eq_ok, require_eq_ok, demand_eq_ok, pure_eq_ok,
    Option.bind_eq_some_iff, asStr_eq_some, Prod.mk.injEq, ClaimBody]
  constructor
  · rintro ⟨req, parsed, idText, ⟨_, found, rfl⟩, -, isId, proofVal, hasProof,
      _, parses, rfl, rfl⟩
    exact ⟨req, idText, proofVal, parsed, found, isId, hasProof, parses, rfl⟩
  · rintro ⟨req, idText, proofVal, parsed, found, isId, hasProof, parses, rfl⟩
    exact ⟨req, parsed, idText, ⟨_, found, rfl⟩, (), isId, proofVal, hasProof,
      proof, parses, rfl, rfl⟩

/-- An authorized claim with an acceptable body is the claim of its offer by
the authenticated key: authorization has left the tables and the clock as they
were. -/
theorem claim_run {headers : Headers} {body : Bytes}
    {authPubkey offerId : String} {proof : ParsedPaymentProof}
    (authorized : ((authorize ext cfg "transfer" headers .post
      "/api/v1/transfer/claim" body).run (Op.exec env) world).1 =
        .ok authPubkey)
    (isBody : ClaimBody ext body offerId proof) :
    ∃ admitted : World, admitted.db = world.db ∧
      admitted.unixTime = world.unixTime ∧
      (claim ext cfg headers body).run (Op.exec env) world =
        (claimById cfg authPubkey offerId (proof.payment ext)).run
          (Op.exec env) admitted := by
  refine ⟨_, authorize_run ext cfg env world "transfer" headers .post
    "/api/v1/transfer/claim" body, run_clock env (authorize ext cfg "transfer"
    headers .post "/api/v1/transfer/claim" body) world, ?_⟩
  rw [claim, run_bind, authorized]
  simp only [claimRequest_eq_ok.mpr isBody]

theorem SerialRun.tables {log : List FloonetExchange}
    (run : (server ext cfg).SerialRun log world) :
    world.db.Settled ∧ world.db.DeathsRecorded world.unixTime.seconds := by
  obtain ⟨threads, reachable, -⟩ := run.embed
  exact ⟨Reachable.settled (revisionsCurrent_of_serial reachable),
    Reachable.deathsRecorded reachable⟩

theorem claim_decides (enabled : cfg.allowTransfers = true)
    (bounded : env.HeightsBounded) {headers : Headers} {body : Bytes}
    {authPubkey : String}
    (authorized : ((authorize ext cfg "transfer" headers .post
      "/api/v1/transfer/claim" body).run (Op.exec env) world).1 =
        .ok authPubkey)
    (sold : world.db.Settled)
    (recorded : world.db.DeathsRecorded world.unixTime.seconds) :
    Decides (∃ offerId proof, ClaimBody ext body offerId proof ∧
        ∃ stored ∈ world.db.offers.rows, stored.offerId = offerId ∧
          Claimable cfg env world.db authPubkey
            (settled env.reportedTip world.unixTime.seconds stored) (proof.payment ext)
            world.unixTime.seconds)
      (fun after => ∃ offerId proof, ClaimBody ext body offerId proof ∧
        ∃ stored ∈ world.db.offers.rows, stored.offerId = offerId ∧
          world.db.Sold env after (settled env.reportedTip world.unixTime.seconds stored)
            proof.excessHex world.unixTime.seconds)
      world.db.KeptBut
      ((claim ext cfg headers body).run (Op.exec env) world) := by
  cases request : claimRequest ext body with
  | error refusal =>
      rw [claim, run_bind, authorized]
      simp only [request]
      refine .refuse ?_ (claimRequest_refuses ext body refusal request) ?_
      · rintro ⟨offerId, proof, isBody, -⟩
        rw [claimRequest_eq_ok.mpr isBody] at request
        cases request
      · have sameDb := authorize_run ext cfg env world "transfer" headers .post
          "/api/v1/transfer/claim" body
        simp only [pure_eq_done, run_done, sameDb]
        exact ⟨rfl, rfl, rfl⟩
  | ok accepted =>
      obtain ⟨offerId, proof⟩ := accepted
      have isBody := claimRequest_eq_ok.mp request
      obtain ⟨admitted, sameDb, sameTime, isRun⟩ := claim_run authorized isBody
      rw [isRun]
      rw [← sameDb] at sold recorded ⊢
      rw [← sameTime] at recorded ⊢
      refine (claimById_decides enabled bounded authPubkey offerId
        (proof.payment ext) sold recorded).imp ⟨?_, ?_⟩ ?_ fun _ => id
      · rintro ⟨otherId, otherProof, otherBody, claimable⟩
        rw [claimRequest_eq_ok.mpr otherBody] at request
        cases request
        exact claimable
      · exact fun claimable => ⟨offerId, proof, isBody, claimable⟩
      · exact fun _ after sale => ⟨offerId, proof, isBody, sale⟩

/-- An authorized claim is answered by 201 if and only if it is well formed
and its offer, once settled, may be claimed with its proof; the tables then
differ by the sale, and otherwise by the settling of the offer at most. -/
theorem claim_created_iff (enabled : cfg.allowTransfers = true)
    (bounded : env.HeightsBounded) {log : List FloonetExchange}
    (run : (server ext cfg).SerialRun log world) {headers : Headers}
    {body : Bytes} {authPubkey : String}
    (authorized : ((authorize ext cfg "transfer" headers .post
      "/api/v1/transfer/claim" body).run (Op.exec env) world).1 =
        .ok authPubkey) :
    let now := world.unixTime.seconds
    let served := (server ext cfg).exchange env (.claim headers body) world
    (served.response.status = .created ↔
      ∃ offerId proof, ClaimBody ext body offerId proof ∧
        ∃ stored ∈ world.db.offers.rows, stored.offerId = offerId ∧
          Claimable cfg env world.db authPubkey (settled env.reportedTip now stored)
            (proof.payment ext) now) ∧
    (served.response.status = .created →
      ∃ offerId proof, ClaimBody ext body offerId proof ∧
        ∃ stored ∈ world.db.offers.rows, stored.offerId = offerId ∧
          world.db.Sold env served.after.db (settled env.reportedTip now stored)
            proof.excessHex now) ∧
    (served.response.status ≠ .created →
      world.db.KeptBut served.after.db) := by
  intro now served
  obtain ⟨sold, recorded⟩ := SerialRun.tables run
  have decides := claim_decides enabled bounded authorized sold recorded
  have isRoute : routes ext cfg (.claim headers body) =
      claim ext cfg headers body := if_pos enabled
  have isServed : (served.response, served.after) =
      (claim ext cfg headers body).run (Op.exec env) world := by
    rw [← isRoute]
    rfl
  rw [← isServed] at decides
  have created := decides.created_iff
  refine ⟨created, fun answered => ?_, fun refused => ?_⟩
  · exact (decides.created (created.mp answered)).2
  · exact (decides.refused fun holds => refused (created.mpr holds)).2

section Schedules

open Sample

/-- The program that answers 201 once it is authorized. -/
def admission : Except Response String → Handler Response
  | .error refusal => return refusal
  | .ok _ => return ⟨.created, .null⟩

/-- A request that its client has signed well is authorized, unless the state
is against it. -/
theorem authorize_signed {bucket : String} {id pubkey : Bytes32}
    {createdAt : UInt64} {method : Method} {urlPath : String} {body : Bytes}
    (admitted : ((opened cfg bucket (asI64 createdAt.toNat) id.toHex
      (return ⟨.created, .null⟩)).run (Op.exec env) world).1.status =
        .created) :
    ((authorize ext cfg bucket
      (signRequest ext cfg id pubkey createdAt method urlPath body) method
      urlPath body).run (Op.exec env) world).1 = .ok pubkey.toHex := by
  have equal := authorize_signRequest ext cfg bucket id pubkey createdAt method
    urlPath body admission fun _ => rfl
  dsimp only [admission] at equal
  rw [← equal, run_bind] at admitted
  cases outcome : ((authorize ext cfg bucket
      (signRequest ext cfg id pubkey createdAt method urlPath body) method
      urlPath body).run (Op.exec env) world).1 with
  | error refusal =>
      rw [outcome] at admitted
      exact absurd admitted
        ((authorize_refusal outcome).status_ne nofun nofun)
  | ok key =>
      have isSigner : some pubkey.toHex = some key := authorize_signer outcome
      rw [Option.some.inj isSigner]

theorem node_bounded {tip height : Nat} (tipBounded : tip < 2 ^ 63)
    (heightBounded : height < 2 ^ 63) : (node tip height).HeightsBounded where
  tip reported answer := by
    cases answer
    exact Nat.lt_of_le_of_lt (Nat.mod_le tip _) tipBounded
  kernel excessHex kernel reported answer known := by
    cases answer
    split at known
    · cases known
      exact Nat.lt_of_le_of_lt (Nat.mod_le height _) heightBounded
    · cases known

/-- The buyer's claim of the lodged offer is answered by 201, so everything
that the answer requires was the case. -/
theorem claim_created_iff_sale : ∃ log world, Market.SerialRun log world ∧
    (Market.exchange (node 100 100) claimNow.request world).response.status =
      .created ∧
    ∃ offerId proof, ClaimBody host claimBody offerId proof ∧
      ∃ stored ∈ world.db.offers.rows, stored.offerId = offerId ∧
        Claimable config (node 100 100) world.db buyer
          (settled (node 100 100).reportedTip world.unixTime.seconds stored)
          (proof.payment host) world.unixTime.seconds := by
  have reached : ∃ log world, Market.SerialRun log world ∧
      ((served "transfer" start (Bytes32.ofHex claimNowId).toHex
        (return ⟨.created, .null⟩)).run (Op.exec (node 100 100))
          world).1.status = .created ∧
      (claimNow.exchange (node 100 100) world).response.status = .created :=
    conduct_reaches world_initial
      [.serve (node 100 100) registerSeller, .serve (node 100 100) lodgeFirst]
      (by decide +kernel)
  obtain ⟨log, world, run, admitted, created⟩ := reached
  rw [claimNow.exchange_eq] at created
  have authorized : ((authorize host config "transfer"
      (signed claimNowId buyer start .post "/api/v1/transfer/claim" claimBody)
      .post "/api/v1/transfer/claim" claimBody).run (Op.exec (node 100 100))
        world).1 = .ok (Bytes32.ofHex buyer).toHex := authorize_signed admitted
  rw [Bytes32.toHex_ofHex buyer_valid] at authorized
  have outcome := claim_created_iff rfl (node_bounded (by decide) (by decide))
    run authorized
  exact ⟨log, world, run, created, outcome.1.mp created⟩

end Schedules

end Floonet
