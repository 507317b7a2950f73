import Floonet.AuthBinding
import Floonet.AuthReplay
import Floonet.ClaimOutcome

/-!
# Arithmetic on times

Four verdicts of the server rest on sums and differences of 64-bit times: the
age of an auth event, the length of the replay window, the expiration of an
offer and the grace window of a claim.  A release build wraps, and nothing
bounds the operator's limits, so the verdicts are those of exact arithmetic
only as long as the limits and the clock keep away from the ends of the range.
-/

namespace Floonet

open Concurrent MachineInt Program System

section Verdicts

variable {ext : Extern} {cfg : Config} {env : Env} {world : World}

/-- The signed limits are 64-bit values. -/
structure Config.Signed64 (cfg : Config) : Prop where
  maxAge : -2 ^ 63 ≤ cfg.authMaxAgeSecs ∧ cfg.authMaxAgeSecs < 2 ^ 63
  ttl : -2 ^ 63 ≤ cfg.transferMaxOfferTtl ∧ cfg.transferMaxOfferTtl < 2 ^ 63
  grace : -2 ^ 63 ≤ cfg.transferClaimGrace ∧ cfg.transferClaimGrace < 2 ^ 63

/-- The four verdicts are those of arithmetic without bounds, for an event and
an offer with these times. -/
structure VerdictsExact (ext : Extern) (cfg : Config) (world : World)
    (createdAt : UInt64) (expiration : Int64) : Prop where
  fresh : ∀ env headers event method urlPath body,
    headers.authorization = .signed event → event.kind = httpAuthKind →
    event.createdAt = createdAt →
    checkAuthTags ext event method urlPath body cfg.baseUrl = .ok () →
    ((∃ identity, ((verifyNip98 ext cfg headers method urlPath body).run
        (Op.exec env) world).1 = .ok identity) ↔
      -5 ≤ world.unixTime.seconds - createdAt.toNat ∧
        world.unixTime.seconds - createdAt.toNat ≤ cfg.authMaxAgeSecs)
  window : (cfg.authWindow : Int) = (cfg.authMaxAgeSecs + 5) * 1000000000
  lodged : ∀ env lodgement, lodgement.expiration = expiration.toInt →
    (((lodge cfg lodgement).run (Op.exec env) world).1.status ≠ .badRequest ↔
      world.unixTime.seconds < expiration.toInt ∧
        expiration.toInt ≤
          world.unixTime.seconds + cfg.transferMaxOfferTtl)
  graced : ∀ stored ∈ world.db.offers.rows, ∀ tip changed endHeight,
    ∀ offer, offer = settled tip world.unixTime.seconds stored →
    offer.status = .revoked ∨ offer.status = .expired →
    offer.stateChangedAt = some changed → offer.endHeight = some endHeight →
    (deathGate cfg offer world.unixTime.seconds = .ok (some endHeight) ↔
      world.unixTime.seconds - changed ≤ cfg.transferClaimGrace)

/-- No sum or difference leaves the range of 64 bits, unless the verdict does
not depend on it. -/
structure Config.KeepsRange (cfg : Config) (now : Int) (createdAt : UInt64)
    (expiration : Int64) : Prop where
  age : cfg.authMaxAgeSecs < now + 2 ^ 64 - createdAt.toNat
  window : -5 ≤ cfg.authMaxAgeSecs
  expiry : now + cfg.transferMaxOfferTtl < 2 ^ 63 ∨ expiration.toInt ≤ now

/-! ## The age of an auth event -/

/-- The wrapped age is within the limits exactly if the true age is, unless
the event is so far in the future that its age wraps into them. -/
theorem timely_exact_iff {event : Event} {now : Int} (nonneg : 0 ≤ now)
    (bounded : now < 2 ^ 40) (signed : cfg.Signed64) :
    (event.timely cfg now ↔ -5 ≤ now - event.createdAt.toNat ∧
      now - event.createdAt.toNat ≤ cfg.authMaxAgeSecs) ↔
    cfg.authMaxAgeSecs < now + 2 ^ 64 - event.createdAt.toNat := by
  have range := event.createdAt.toNat_lt
  have limit := signed.maxAge
  unfold Event.timely Event.age wrapI64 asI64
  generalize event.createdAt.toNat = created at *
  generalize cfg.authMaxAgeSecs = maxAge at *
  split <;> omega

theorem verifyNip98_fresh {headers : Headers} {event : Event}
    {method : Method} {urlPath : String} {body : Bytes}
    (signed : headers.authorization = .signed event)
    (kind : event.kind = httpAuthKind)
    (checked : checkAuthTags ext event method urlPath body cfg.baseUrl =
      .ok ()) :
    (∃ identity, ((verifyNip98 ext cfg headers method urlPath body).run
        (Op.exec env) world).1 = .ok identity) ↔
      event.timely cfg world.unixTime.seconds := by
  constructor
  · rintro ⟨identity, accepted⟩
    exact ((verifyNip98_eq_ok signed).mp accepted).2.1
  · intro timely
    exact ⟨_, (verifyNip98_eq_ok signed).mpr ⟨kind, timely, checked, rfl⟩⟩

/-! ## The replay window -/

theorem authWindow_exact_iff (signed : cfg.Signed64) :
    (cfg.authWindow : Int) = (cfg.authMaxAgeSecs + 5) * 1000000000 ↔
      -5 ≤ cfg.authMaxAgeSecs := by
  have limit := signed.maxAge
  unfold Config.authWindow Duration.fromSecs wrapU64 asU64
  generalize cfg.authMaxAgeSecs = maxAge at *
  split <;> omega

/-! ## The expiration of an offer -/

theorem lodge_status (lodgement : Lodgement) :
    ((lodge cfg lodgement).run (Op.exec env) world).1.status = .badRequest ↔
      lodgement.expiration ≤ world.unixTime.seconds ∨
        wrapI64 (world.unixTime.seconds + cfg.transferMaxOfferTtl) <
          lodgement.expiration := by
  have clock : Op.exec env Op.unixNow world =
      (world.unixTime.seconds, world) := rfl
  rw [lodge, App.unixNow, run_perform_bind _ clock]
  by_cases outside : lodgement.expiration ≤ world.unixTime.seconds ∨
      wrapI64 (world.unixTime.seconds + cfg.transferMaxOfferTtl) <
        lodgement.expiration
  · rw [if_pos outside]
    exact iff_of_true rfl outside
  · rw [if_neg outside]
    refine iff_of_false ?_ outside
    have behind : ∀ {program : Handler Response}, program.Every
        (fun _ _ => True) (fun _ response => response.status ≠ .badRequest)
        [] → (program.run (Op.exec env) world).1.status ≠ .badRequest := by
      intro program every
      obtain ⟨-, refused⟩ := every.run_result (Op.exec env) world
      exact refused
    refine behind (every_perform_bind.mpr ⟨trivial, fun owner => ?_⟩)
    split
    · exact nofun
    refine every_perform_bind.mpr ⟨trivial, fun nameSold => ?_⟩
    split
    · exact nofun
    refine every_perform_bind.mpr ⟨trivial, fun addressSold => ?_⟩
    split
    · exact nofun
    refine every_perform_bind.mpr ⟨trivial, fun inserted => ?_⟩
    split <;> exact nofun

theorem expiry_exact_iff {now : Int} {expiration : Int64} (nonneg : 0 ≤ now)
    (bounded : now < 2 ^ 40) (signed : cfg.Signed64) :
    (¬(expiration.toInt ≤ now ∨
        wrapI64 (now + cfg.transferMaxOfferTtl) < expiration.toInt) ↔
      now < expiration.toInt ∧
        expiration.toInt ≤ now + cfg.transferMaxOfferTtl) ↔
    (now + cfg.transferMaxOfferTtl < 2 ^ 63 ∨ expiration.toInt ≤ now) := by
  have limit := signed.ttl
  have range := expiration.toInt_lt
  unfold wrapI64
  generalize cfg.transferMaxOfferTtl = ttl at *
  generalize expiration.toInt = expires at *
  omega

/-! ## The grace window of a claim -/

/-- Recorded times lie between zero and the present, so their age is exact. -/
theorem deathGate_exact {offer : OfferRow} {now changed endHeight : Int}
    (bounded : now < 2 ^ 40) (nonneg : 0 ≤ changed) (past : changed ≤ now)
    (dead : offer.status = .revoked ∨ offer.status = .expired)
    (known : offer.stateChangedAt = some changed)
    (height : offer.endHeight = some endHeight) :
    deathGate cfg offer now = .ok (some endHeight) ↔
      now - changed ≤ cfg.transferClaimGrace := by
  have recorded : offer.DeathRecorded now := by
    refine ⟨fun _ => by rw [known]; rfl, ?_⟩
    intro other member
    cases known.symm.trans member
    exact ⟨nonneg, past⟩
  rw [deathGate_eq_ok recorded (by omega) dead]
  constructor
  · rintro ⟨other, _, isChanged, inWindow, -, -⟩
    cases known.symm.trans isChanged
    exact inWindow
  · intro inWindow
    exact ⟨changed, endHeight, known, inWindow, height, rfl⟩

theorem settled_changed {tip : Option Int} {now changed : Int}
    {stored : OfferRow} (nonneg : 0 ≤ now)
    (past : ∀ changed ∈ stored.stateChangedAt, 0 ≤ changed ∧ changed ≤ now)
    (known : (settled tip now stored).stateChangedAt = some changed) :
    0 ≤ changed ∧ changed ≤ now := by
  unfold settled at known
  split at known
  · cases known
    exact ⟨nonneg, Int.le_refl now⟩
  · exact past changed known

/-! ## The four verdicts -/

/-- Nothing outside answers. -/
def Env.silent : Env where
  tipHeight := .error "silent"
  kernel _ := .error "silent"
  createInvoice _ _ _ := .error "silent"
  invoiceStatus _ := .error "silent"

/-- An event made for this time, which passes the checks of its tags. -/
theorem exists_event (ext : Extern) (cfg : Config) (createdAt : UInt64) :
    ∃ event : Event, event.kind = httpAuthKind ∧
      event.createdAt = createdAt ∧
      checkAuthTags ext event .get "/" [] cfg.baseUrl = .ok () := by
  let zeros : Bytes32 := ⟨List.replicate 32 0, List.length_replicate⟩
  exact ⟨authEvent ext cfg zeros zeros createdAt .get "/" [], rfl, rfl,
    checkAuthTags_authEvent ext cfg zeros zeros createdAt .get "/" []⟩

/-- An offer with this expiration. -/
def lodgementAt (expiration : Int) : Lodgement where
  offerId := ""
  eventJson := ""
  name := ""
  seller := ""
  buyer := ""
  price := 0
  proofAddress := ""
  expiration := expiration

variable {permitted : Permission World Request Op Op.Ans Response}
  {pool : FloonetPool}

/-- In every reachable state, the verdicts are exact precisely as long as the
limits keep the sums and differences in range. -/
theorem verdicts_exact_iff
    (reachable : (server ext cfg).Reachable permitted pool)
    (signed : cfg.Signed64) (bounded : pool.state.unixTime.seconds < 2 ^ 40)
    (createdAt : UInt64) (expiration : Int64) :
    VerdictsExact ext cfg pool.state createdAt expiration ↔
      cfg.KeepsRange pool.state.unixTime.seconds createdAt expiration := by
  have nonneg := pool.state.unixTime.nonneg
  constructor
  · intro verdicts
    refine ⟨?_, (authWindow_exact_iff signed).mp verdicts.window, ?_⟩
    · obtain ⟨event, kind, rfl, checked⟩ := exists_event ext cfg createdAt
      have fresh := verdicts.fresh .silent ⟨.signed event, none⟩ event .get "/"
        [] rfl kind rfl checked
      rw [verifyNip98_fresh rfl kind checked] at fresh
      exact (timely_exact_iff nonneg bounded signed).mp fresh
    · have lodged := verdicts.lodged .silent (lodgementAt expiration.toInt) rfl
      rw [ne_eq, lodge_status] at lodged
      exact (expiry_exact_iff nonneg bounded signed).mp lodged
  · intro keeps
    constructor
    · intro env headers event method urlPath body isSigned kind dated checked
      subst dated
      rw [verifyNip98_fresh isSigned kind checked]
      exact (timely_exact_iff nonneg bounded signed).mpr keeps.age
    · exact (authWindow_exact_iff signed).mpr keeps.window
    · intro env lodgement expires
      rw [ne_eq, lodge_status, expires]
      exact (expiry_exact_iff nonneg bounded signed).mpr keeps.expiry
    · rintro stored member tip changed endHeight offer rfl dead known height
      obtain ⟨from_, past⟩ := settled_changed nonneg
        (Reachable.changesPast reachable stored member) known
      exact deathGate_exact bounded from_ past dead known height

end Verdicts

namespace Sample

open Validation

/-- The limits of the sample, with the largest age that the setting admits. -/
def patient : Config := { config with authMaxAgeSecs := 2 ^ 63 - 1 }

/-- The limits of the sample keep the range. -/
theorem verdicts_exact_config : VerdictsExact host config world 1700000000
    1700003600 := by
  have reachable : (server host config).Reachable (fun _ _ _ => True)
      ⟨world, []⟩ := .start world_initial
  exact (verdicts_exact_iff reachable ⟨by decide, by decide, by decide⟩
    (by decide) 1700000000 1700003600).mpr
      ⟨by decide, by decide, by decide⟩

/-- With that limit, an event of the last second of 64 bits is fresh. -/
theorem patient_accepts_future : patient.validate = .ok () ∧
    world.unixTime.seconds = 1700000000 ∧
    ¬VerdictsExact host patient world 18446744073709551615 1700003600 := by
  refine ⟨toOption_eq_some.mp (by decide +kernel), rfl, fun verdicts => ?_⟩
  obtain ⟨event, kind, dated, checked⟩ :=
    exists_event host patient 18446744073709551615
  have fresh := verdicts.fresh .silent ⟨.signed event, none⟩ event .get "/"
    [] rfl kind dated checked
  rw [verifyNip98_fresh rfl kind checked, Event.timely, Event.age, dated]
    at fresh
  exact absurd (fresh.mp (by decide +kernel)) (by decide +kernel)

end Sample

end Floonet
