import Floonet.Plugin.PaidRelay
import Floonet.Plugin.Verdicts
import Floonet.Prepaid

/-!
# Paid writers are admitted

The policy forgets a refusal within the lifetime of its cache.  A key that has
paid at the authority is therefore admitted from then on: what its events
meet are the other checks only.
-/

namespace Floonet.Plugin

open Concurrent System Python

variable {Secs : Type} [LinearOrder Secs] [Add Secs] [OfNat Secs 10]
  {ext : Extern} {cfg : Config} {tables : Unicode} {settings : Cfg Secs}
  {calls : List (Call Secs)} {state : PluginState Secs} {pubkey : String}
  {world : World}

/-- The URL at which the policy asks about the key. -/
def statusUrl (settings : Cfg Secs) (pubkey : String) : Str :=
  settings.authorityUrl ++ str "/api/v1/paid/" ++ str pubkey

/-- The authority answers the call about the key, in this state. -/
def Call.AnsweredIn (ext : Extern) (cfg : Config) (settings : Cfg Secs)
    (call : Call Secs) (pubkey : String) (world : World) : Prop :=
  ∃ env visitor, Allowed cfg env world visitor ∧
    call.outside.urlopen (statusUrl settings pubkey) =
      .ok ((server ext cfg).exchange env (.paidStatus pubkey visitor)
        world).response.body.loads

omit [LinearOrder Secs] [Add Secs] [OfNat Secs 10] in
theorem Call.AnsweredIn.verdict {call : Call Secs}
    (answered : call.AnsweredIn ext cfg settings pubkey world)
    (mode : cfg.payMode = .write) (valid : validPubkeyHex pubkey = true)
    (paid : world.db.Paid pubkey "write") :
    paidLookup settings call.outside (str pubkey) = .ok true := by
  obtain ⟨env, visitor, allowed, fetched⟩ := answered
  have confirmed := paidStatus_prepaid mode paid allowed
    (toLowercase_pubkey ext.cases valid) valid
  rw [confirmed] at fetched
  rw [paidLookup, ← statusUrl, fetched]
  simp only [bind, Except.bind, paidBody_loads]
  rfl

/-- No verdict about the key but a paid one lasts until the call: each earlier
call for the key had a paid verdict or is a cache lifetime ago. -/
def Call.Waited (settings : Cfg Secs) (calls : List (Call Secs))
    (call : Call Secs) (authed : Str) : Prop :=
  ∀ earlier ∈ calls, Authed earlier.req authed →
    paidLookup settings earlier.outside authed = .ok true ∨
      earlier.outside.now + settings.paidCacheSecs ≤ call.outside.now

section Mono

variable [AddLeftMono Secs] [AddRightMono Secs]

omit [AddRightMono Secs] in
theorem Lookup.expires_le (lookup : Lookup Secs) :
    lookup.expires settings ≤ lookup.start + settings.paidCacheSecs := by
  unfold Lookup.expires
  cases lookup.verdict with
  | ok paid => exact le_refl _
  | error exn => exact add_le_add_right (min_le_left _ _) _

/-- A key that would get a paid verdict now, and whose refusals are forgotten,
has to pass the earlier checks only. -/
theorem Serves.admits (served : Serves tables settings calls state)
    (write : settings.payMode = .write) {call : Call Secs} {authed : Str}
    (isAuthed : Authed call.req authed)
    (verdict : paidLookup settings call.outside authed = .ok true)
    (waited : call.Waited settings calls authed) :
    Accepts tables call.req settings call.outside state ↔
      Passed tables settings call.req := by
  obtain ⟨decides, -⟩ := (served.remembers write).1.call tables write call
  refine ⟨fun accepts => (accepts_iff_passed.mp accepts).1, fun passed => ?_⟩
  refine decides.mpr ⟨authed, ⟨passed, isAuthed⟩, ?_⟩
  by_cases lasting : ∃ lookup, lastLookup authed state.lookups = some lookup ∧
      call.outside.now < lookup.expires settings
  · obtain ⟨lookup, last, lasts⟩ := lasting
    rw [consult_lasts last lasts]
    obtain ⟨member, rfl⟩ := lastLookup_mem last
    obtain ⟨earlier, isEarlier, asked⟩ := served.sound.asked lookup member
    have known := asked.verdict
    rcases waited earlier isEarlier asked.authed with paid | forgotten
    · exact known.trans paid
    · -- The verdict of that call does not last any more.
      rw [← asked.start] at forgotten
      exact absurd (lasts.trans_le (lookup.expires_le.trans forgotten))
        (lt_irrefl _)
  · have ended : ∀ lookup, lastLookup authed state.lookups = some lookup →
        lookup.expires settings ≤ call.outside.now := by
      intro lookup last
      by_contra lasts
      exact lasting ⟨lookup, last, not_le.mp lasts⟩
    rw [consult_asks ended]
    exact verdict

/-- A key whose payment the authority has confirmed is admitted: as soon as
its refusals are a cache lifetime ago, each of its events is accepted exactly
if it passes the checks before the paid gate. -/
theorem paid_writer_admitted {before after : List FloonetExchange}
    {first : FloonetExchange}
    (run : (server ext cfg).SerialRun (before ++ first :: after) world)
    (mode : cfg.payMode = .write) (paid : first.after.db.Paid pubkey "write")
    (valid : validPubkeyHex pubkey = true)
    (served : Serves tables settings calls state)
    (write : settings.payMode = .write) (call : Call Secs)
    (isAuthed : Authed call.req (str pubkey))
    (answered : call.AnsweredIn ext cfg settings pubkey world)
    (waited : call.Waited settings calls (str pubkey)) :
    Accepts tables call.req settings call.outside state ↔
      Passed tables settings call.req := by
  -- Only registrations use up a grant, and that of a name.
  have unspent : ∀ exchange ∈ after,
      ¬ Spends pubkey "write" exchange.request exchange.response := by
    rintro exchange - ⟨isName, -⟩
    exact absurd isName (by decide)
  have stays := SerialRun.paid run rfl paid unspent
  exact served.admits write isAuthed (answered.verdict mode valid stays) waited

end Mono

section Samples

open Sample

/-- The seller has asked for a quote. -/
def writeQuoted : FloonetExchange :=
  askQuote.exchange (backend "first" "pending") Sample.world

/-- Somebody has asked for the status when the invoice is paid. -/
def writeSettled : FloonetExchange :=
  askStatus.exchange (backend "none" "paid") writeQuoted.after

theorem writeSettled_paid : writeSettled.after.db.Paid seller "write" :=
  paid_of_grant (by decide +kernel)

/-- The status is asked for again, and the backend would say otherwise. -/
def writeAsked : FloonetExchange :=
  askStatus.exchange (backend "second" "expired") writeSettled.after

/-- The request for the quote is replayed. -/
def writeReplayed : FloonetExchange :=
  askQuote.exchange (backend "second" "expired") writeAsked.after

/-- The seller tries while the authority is down. -/
def sellerTries : Call Nat :=
  { sellerWrites with outside := unreachable 30 }

/-- Seventy seconds after a refusal the seller writes. -/
theorem paid_writer_admitted_seller :
    WriteMarket.SerialRun
        ([writeQuoted] ++ writeSettled :: [writeAsked, writeReplayed])
        writeReplayed.after ∧
      Serves Unicode.basic paidCfg [sellerTries]
        (sellerTries.after Unicode.basic paidCfg .initial) ∧
      (Accepts Unicode.basic sellerWrites.req paidCfg sellerWrites.outside
          (sellerTries.after Unicode.basic paidCfg .initial) ↔
        Passed Unicode.basic paidCfg sellerWrites.req) := by
  have run : WriteMarket.SerialRun
      ([writeQuoted] ++ writeSettled :: [writeAsked, writeReplayed])
      writeReplayed.after :=
    ((((SerialRun.start world_initial).serveBy (backend "first" "pending")
      askQuote).serveBy (backend "none" "paid") askStatus).serveBy
        (backend "second" "expired") askStatus).serveBy
          (backend "second" "expired") askQuote
  have served : Serves Unicode.basic paidCfg [sellerTries]
      (sellerTries.after Unicode.basic paidCfg .initial) :=
    Serves.start.call sellerTries (by simp)
  have allowed : Allowed writeConfig (backend "none" "paid")
      writeReplayed.after ⟨.missing, none⟩ := by
    unfold Allowed
    decide +kernel
  have stillPaid : writeReplayed.after.db.Paid seller "write" :=
    paid_of_grant (by decide +kernel)
  have answered : sellerWrites.AnsweredIn payHost writeConfig paidCfg seller
      writeReplayed.after := by
    refine ⟨backend "none" "paid", ⟨.missing, none⟩, allowed, ?_⟩
    rw [paidStatus_prepaid rfl stillPaid allowed
      (toLowercase_pubkey payHost.cases seller_valid) seller_valid]
    rfl
  refine ⟨run, served, ?_⟩
  exact paid_writer_admitted run rfl writeSettled_paid seller_valid served rfl
    sellerWrites ⟨rfl, by decide +kernel⟩ answered (by
      intro earlier member _
      rw [List.mem_singleton.mp member]
      exact .inr (by decide))

end Samples

end Floonet.Plugin
