import Floonet.Client
import Floonet.Runs

/-!
# What a revocation answers

`revoke_offer` answers from the row it read first.  Its guarded `UPDATE` runs
after the lookup of the chain tip and may find the row consumed or expired by
then.
-/

namespace Floonet

open Concurrent Program System

/-! ## The last database step of a request -/

def Op.isDb : Op → Bool
  | .db _ => true
  | _ => false

def lastDbStep (thread : FloonetThread) : Option (Taken World Op Op.Ans) :=
  thread.past.reverse.find? fun taken => taken.op.isDb

theorem lastDbStep_eq {thread : FloonetThread}
    {earlier : List (Taken World Op Op.Ans)} {last : Taken World Op Op.Ans}
    (past : thread.past = earlier ++ [last]) (isDb : last.op.isDb = true) :
    lastDbStep thread = some last := by
  simp [lastDbStep, past, isDb]

def Db.offerStatus (db : Db) (offerId : String) : Option OfferStatus :=
  (db.getOffer offerId).map OfferRow.status

theorem Db.offerStatus_eq_some {db : Db} {offerId : String}
    {status : OfferStatus} : db.offerStatus offerId = some status ↔
      ∃ row ∈ db.offers.rows, row.offerId = offerId ∧ row.status = status := by
  simp only [offerStatus, Option.map_eq_some_iff, getOffer_eq_some]
  exact ⟨fun ⟨row, ⟨member, isOffer⟩, same⟩ => ⟨row, member, isOffer, same⟩,
    fun ⟨row, member, isOffer, same⟩ => ⟨row, ⟨member, isOffer⟩, same⟩⟩

theorem Db.Revised.offerStatus {before after : Db} {offerId : String}
    {change : OfferRow → OfferRow}
    (revised : before.Revised after offerId change)
    (keepsId : ∀ row, (change row).offerId = row.offerId)
    {status : OfferStatus} : after.offerStatus offerId = some status ↔
      ∃ row ∈ before.offers.rows, row.offerId = offerId ∧
        (change row).status = status := by
  rw [offerStatus_eq_some]
  constructor
  · rintro ⟨row, member, isOffer, rfl⟩
    obtain ⟨old, oldMember, rfl⟩ := (revised row).mp member
    by_cases same : old.offerId = offerId
    · rw [if_pos same] at isOffer ⊢
      exact ⟨old, oldMember, same, rfl⟩
    · rw [if_neg same] at isOffer
      exact absurd isOffer same
  · rintro ⟨old, oldMember, isOffer, same⟩
    refine ⟨change old, (revised _).mpr ⟨old, oldMember, ?_⟩,
      (keepsId old).trans isOffer, same⟩
    rw [if_pos isOffer]

/-- The guarded `UPDATE` leaves a revoked row if it finds a live one or one
that is revoked already. -/
theorem Db.markOfferDead_revoked (db : Db) (offerId : String)
    (endHeight : Option Int) (now : Int) :
    (db.markOfferDead offerId .revoked endHeight now).2.offerStatus offerId =
        some .revoked ↔
      db.offerStatus offerId = some .live ∨
        db.offerStatus offerId = some .revoked := by
  rcases db.markOfferDead_cases offerId .revoked endHeight now with
    ⟨unchanged, dead⟩ | ⟨offers, old, changed, member, isOffer, live, revised⟩
  · rw [unchanged]
    refine ⟨.inr, fun either => ?_⟩
    rcases either with live | revoked
    · obtain ⟨row, member, isOffer, live⟩ := offerStatus_eq_some.mp live
      exact absurd live (dead row member isOffer)
    · exact revoked
  · rw [changed]
    refine ⟨fun _ => .inl (offerStatus_eq_some.mpr
      ⟨old, member, isOffer, live⟩), fun _ => ?_⟩
    exact (revised.offerStatus (fun _ => rfl)).mpr ⟨old, member, isOffer, rfl⟩

theorem Db.setOfferStatus_offerStatus {db : Db} {offerId : String}
    {row : OfferRow} (member : row ∈ db.offers.rows)
    (isOffer : row.offerId = offerId) (status : OfferStatus) :
    (db.setOfferStatus offerId status).2.offerStatus offerId =
      some status := by
  obtain ⟨offers, count, changed, revised⟩ :=
    db.setOfferStatus_cases offerId status
  rw [changed]
  exact (revised.offerStatus (fun _ => rfl)).mpr ⟨row, member, isOffer, rfl⟩

/-! ## How a revocation ends -/

/-- The steps that end a revocation of the offer that was read. -/
inductive RevocationEnds (offer : OfferRow) : History → Prop where
  | already {past : History} {offerId : String}
      (revoked : offer.status = .revoked)
      (last : past.EndsWith (.db (.getOffer offerId)) (some offer)) :
      RevocationEnds offer past
  | guarded {past : History} {endHeight : Option Int} {now : Int}
      {answer : Except SqlError Nat}
      (last : past.EndsWith
        (.db (.markOfferDead offer.offerId .revoked endHeight now)) answer) :
      RevocationEnds offer past
  | revised {past : History} {answer : Except SqlError Nat}
      (last : past.EndsWith (.db (.reviseRevoked offer.offerId)) answer) :
      RevocationEnds offer past

variable {ext : Extern} {cfg : Config}

theorem revoke_ends (offer : OfferRow) (past : History) :
    (revoke cfg offer).Every (fun _ _ => True)
      (fun past' _ => past <+: past' ∧ RevocationEnds offer past') past := by
  unfold revoke
  refine every_perform_bind.mpr ⟨trivial, fun now => ?_⟩
  split
  · refine (deathHeight_silent cfg _).quiet_bind (fun _ _ _ => trivial)
      fun new endHeight _ _ => ?_
    refine every_perform_bind.mpr ⟨trivial, fun answer => ?_⟩
    refine every_done.mpr ⟨?_, .guarded ⟨_, rfl⟩⟩
    simp only [List.append_assoc]
    exact List.prefix_append _ _
  · refine every_perform_bind.mpr ⟨trivial, fun answer => ?_⟩
    refine every_done.mpr ⟨?_, .revised ⟨_, rfl⟩⟩
    simp only [List.append_assoc]
    exact List.prefix_append _ _

theorem revokeById_ends (authPubkey offerId : String) (past : History) :
    (revokeById cfg authPubkey offerId).Every (fun _ _ => True)
      (fun (past' : History) response => response.status = .ok →
        response = revoked offerId ∧ ∃ offer,
          past'.Saw (.db (.getOffer offerId)) (some offer) ∧
            RevocationEnds offer past') past := by
  unfold revokeById
  refine every_perform_bind.mpr ⟨trivial, fun stored => ?_⟩
  have saw := past.saw_last (.db (.getOffer offerId)) stored
  cases stored with
  | none =>
      intro ok
      cases ok
  | some offer =>
      dsimp only
      split
      · intro ok
        cases ok
      split
      · intro ok
        cases ok
      split
      · rename_i isRevoked
        exact fun _ => ⟨rfl, offer, saw, .already isRevoked ⟨_, rfl⟩⟩
      · refine every_bind.mpr ((revoke_ends offer _).mono
          (fun _ _ _ _ => trivial) ?_)
        rintro past' - - ⟨extended, ends⟩ -
        exact ⟨rfl, offer, extended.subset saw, ends⟩

theorem revokeOffer_ends (offerId : String) (headers : Headers) :
    (revokeOffer ext cfg offerId headers).Every (fun _ _ => True)
      (fun (past : History) response => response.status = .ok →
        response = revoked offerId ∧ ∃ offer,
          past.Saw (.db (.getOffer offerId)) (some offer) ∧
            RevocationEnds offer past) [] := by
  unfold revokeOffer
  refine (authorize_silent ext cfg "transfer" headers .delete _ []
    []).quiet_bind (fun _ _ _ => trivial) fun past result _ authorized => ?_
  rcases result with refusal | authPubkey
  · exact fun ok => absurd ok (authorized.status_ne nofun nofun)
  · exact revokeById_ends authPubkey offerId _

theorem revokeRoute_ends (offerId : String) (headers : Headers) :
    (routes ext cfg (.revokeOffer offerId headers)).Every (fun _ _ => True)
      (fun (past : History) response => response.status = .ok →
        response = revoked offerId ∧ ∃ offer,
          past.Saw (.db (.getOffer offerId)) (some offer) ∧
            RevocationEnds offer past) [] := by
  simp only [routes, transferRoute]
  split
  · exact revokeOffer_ends offerId headers
  · intro ok
    cases ok

/-! ## The answer and the row -/

variable {permitted : Permission World Request Op Op.Ans Response}
  {pool : FloonetPool} {thread : FloonetThread}

/-- The `UPDATE` of a revocation that only touches a live row. -/
def Op.revokesLive (offerId : String) : Op → Bool
  | .db (.markOfferDead id .revoked _ _) => id == offerId
  | _ => false

/-- An offer that a thread has read is still stored at each of its steps. -/
theorem Reachable.storedAt
    (reachable : (server ext cfg).Reachable permitted pool)
    (member : thread ∈ pool.threads) {offerId : String} {offer : OfferRow}
    (saw : History.Saw thread.events (.db (.getOffer offerId)) (some offer))
    {earlier : List (Taken World Op Op.Ans)} {last : Taken World Op Op.Ans}
    (past : thread.past = earlier ++ [last]) :
    ∃ row ∈ last.before.db.offers.rows, row.offerId = offerId := by
  obtain ⟨taken, takenMember, isEvent⟩ := Thread.mem_events.mp saw
  obtain ⟨env, executed⟩ := reachable.executed thread member taken takenMember
  rw [executed] at isEvent
  obtain ⟨isRead, answer⟩ := taken_eq isEvent
  obtain ⟨stored, sameId⟩ := Db.getOffer_eq_some.mp answer.symm
  rw [past] at takenMember
  rcases List.mem_append.mp takenMember with before | isLast
  · have ordered := reachable.pastOrdered server_evolution thread member
    rw [past] at ordered
    have evolved := (List.pairwise_append.mp ordered).2.2 taken before last
      List.mem_cons_self
    rw [executed, isRead] at evolved
    obtain ⟨row, rowMember, evolves⟩ := evolved.db.offers offer stored
    exact ⟨row, rowMember, evolves.offerId.trans sameId⟩
  · rw [← List.mem_singleton.mp isLast]
    exact ⟨offer, stored, sameId⟩

theorem Reachable.endsWith
    (reachable : (server ext cfg).Reachable permitted pool)
    (member : thread ∈ pool.threads) {op : Op} {answer : op.Ans}
    (isDb : op.isDb = true)
    (ends : History.EndsWith thread.events op answer) :
    ∃ earlier env before,
      lastDbStep thread = some ((server ext cfg).taken env op before) ∧
        thread.past = earlier ++ [(server ext cfg).taken env op before] ∧
          answer = (op.exec env before).1 := by
  obtain ⟨events, split⟩ := ends
  obtain ⟨earlier, lasts, past, -, last⟩ := List.map_eq_append_iff.mp split
  obtain ⟨taken, rfl, isEvent⟩ := List.map_eq_singleton_iff.mp last
  have takenMember : taken ∈ thread.past :=
    past ▸ List.mem_append_right _ List.mem_cons_self
  obtain ⟨env, executed⟩ := reachable.executed thread member taken takenMember
  rw [executed] at isEvent past
  obtain ⟨sameOp, answered⟩ := taken_eq isEvent
  rw [sameOp] at past
  exact ⟨earlier, env, taken.before, lastDbStep_eq past isDb, past, answered⟩

theorem Reachable.revocationEnds
    (reachable : (server ext cfg).Reachable permitted pool)
    (member : thread ∈ pool.threads) {offerId : String} {headers : Headers}
    (request : thread.request = .revokeOffer offerId headers)
    {response : Response} (finished : thread.program = .done response)
    (ok : response.status = .ok) :
    response = revoked offerId ∧ ∃ offer,
      History.Saw thread.events (.db (.getOffer offerId)) (some offer) ∧
        RevocationEnds offer thread.events := by
  have ends := (reachable.follows thread member).every
    (request ▸ revokeRoute_ends offerId headers)
  rw [finished] at ends
  exact ends ok

/-- A revocation that answers 200 tells the truth about the row exactly if its
guarded `UPDATE`, should it come to that, finds the row live or revoked. -/
theorem revoked_truthfully_iff
    (reachable : (server ext cfg).Reachable permitted pool)
    (member : thread ∈ pool.threads) {offerId : String} {headers : Headers}
    (request : thread.request = .revokeOffer offerId headers)
    {response : Response} (finished : thread.program = .done response)
    (ok : response.status = .ok) :
    response = revoked offerId ∧ ∃ last, lastDbStep thread = some last ∧
      (last.after.db.offerStatus offerId = some .revoked ↔
        (last.op.revokesLive offerId = true →
          last.before.db.offerStatus offerId = some .live ∨
            last.before.db.offerStatus offerId = some .revoked)) := by
  obtain ⟨isRevoked, offer, saw, ends⟩ :=
    Reachable.revocationEnds reachable member request finished ok
  obtain ⟨isOffer, -⟩ := Reachable.sawOffer reachable member saw
  refine ⟨isRevoked, ?_⟩
  cases ends with
  | already revoked last =>
      obtain ⟨earlier, env, before, isLast, -, answer⟩ :=
        Reachable.endsWith reachable member rfl last
      obtain ⟨stored, -⟩ := Db.getOffer_eq_some.mp answer.symm
      refine ⟨_, isLast, iff_of_true ?_ fun guarded =>
        absurd guarded Bool.false_ne_true⟩
      exact Db.offerStatus_eq_some.mpr ⟨offer, stored, isOffer, revoked⟩
  | @guarded endHeight now answer last =>
      rw [isOffer] at last
      obtain ⟨earlier, env, before, isLast, -, -⟩ :=
        Reachable.endsWith reachable member rfl last
      refine ⟨_, isLast, ?_⟩
      have written := before.db.markOfferDead_revoked offerId endHeight now
      refine written.trans ⟨fun found _ => found, fun found => found ?_⟩
      exact BEq.rfl
  | revised last =>
      obtain ⟨earlier, env, before, isLast, past, -⟩ :=
        Reachable.endsWith reachable member rfl last
      obtain ⟨row, rowMember, sameId⟩ :=
        Reachable.storedAt reachable member saw past
      refine ⟨_, isLast, iff_of_true ?_ fun guarded =>
        absurd guarded Bool.false_ne_true⟩
      rw [isOffer]
      exact Db.setOfferStatus_offerStatus rowMember sameId .revoked

section Schedules

open Sample

def Request.revokes (offerId : String) : Request → Bool
  | .revokeOffer id _ => id == offerId
  | _ => false

theorem Request.revokes_iff {offerId : String} {request : Request} :
    request.revokes offerId = true ↔
      ∃ headers, request = .revokeOffer offerId headers := by
  cases request with
  | revokeOffer id headers =>
      simp only [revokes, beq_iff_eq, revokeOffer.injEq]
      exact ⟨fun same => ⟨headers, same, rfl⟩, fun ⟨_, same, _⟩ => same⟩
  | _ => simp [revokes]

/-- The thread has answered 200 to a revocation of the offer, and `check`
holds of the last database step that it took. -/
def revokedWith (offerId : String)
    (check : Taken World Op Op.Ans → Bool) (thread : FloonetThread) : Bool :=
  thread.request.revokes offerId &&
    (thread.program.result?.any fun response =>
      decide (response.status = .ok)) &&
    (lastDbStep thread).any check

theorem revokedWith_iff {offerId : String}
    {check : Taken World Op Op.Ans → Bool} {thread : FloonetThread} :
    revokedWith offerId check thread = true ↔
      (∃ headers, thread.request = .revokeOffer offerId headers) ∧
        (∃ response, thread.program = .done response ∧
          response.status = .ok) ∧
          ∃ last, lastDbStep thread = some last ∧ check last = true := by
  simp only [revokedWith, Bool.and_eq_true, Request.revokes_iff,
    Option.any_eq_true, result?_eq_some, decide_eq_true_iff, and_assoc]

/-- The seller revokes an offer that nobody claims. -/
theorem revoked_truthfully_iff_lodging : ∃ pool : FloonetPool,
    Market.Reachable anyMove pool ∧ ∃ thread ∈ pool.threads,
      ∃ last, lastDbStep thread = some last ∧
        last.after.db.offerStatus firstOffer.id = some .revoked := by
  have reached : ∃ pool, Market.Reachable anyMove pool ∧
      (pool.threads.any fun thread =>
        revokedWith firstOffer.id (fun last =>
          decide (last.before.db.offerStatus firstOffer.id = some .live))
          thread) = true :=
    play_reaches (fun _ _ _ => true) (fun _ _ _ _ => trivial) world_initial
      (lodging ++ Market.alone revokeNow 2 (node 100 100) 9)
      (by decide +kernel)
  obtain ⟨pool, reachable, answered⟩ := reached
  obtain ⟨thread, member, answered⟩ := List.any_eq_true.mp answered
  obtain ⟨⟨headers, request⟩, ⟨response, finished, ok⟩, last, isLast, live⟩ :=
    revokedWith_iff.mp answered
  obtain ⟨-, last', isLast', truthful⟩ :=
    revoked_truthfully_iff reachable member request finished ok
  have same : last' = last := Option.some.inj (isLast'.symm.trans isLast)
  rw [same] at truthful
  exact ⟨pool, reachable, thread, member, last, isLast,
    truthful.mpr fun _ => .inl (of_decide_eq_true live)⟩

/-- The buyer claims the offer while its revocation waits for the node. -/
def overtakenRevocation : List Market.Move :=
  lodging ++ Market.alone revokeNow 2 (node 100 100) 8 ++
    Market.alone claimNow 3 (node 100 100) 13 ++ [.act 2 (node 100 100)]

/-- The seller is told that the offer is revoked, and it is sold. -/
theorem revoked_but_sold : ∃ pool : FloonetPool,
    Market.Reachable anyMove pool ∧ ∃ thread ∈ pool.threads,
      (∃ headers, thread.request = .revokeOffer firstOffer.id headers) ∧
        thread.program = .done (revoked firstOffer.id) ∧
          ∃ last, lastDbStep thread = some last ∧
            last.after.db.offerStatus firstOffer.id = some .consumed := by
  have reached : ∃ pool, Market.Reachable anyMove pool ∧
      (pool.threads.any fun thread =>
        revokedWith firstOffer.id (fun last =>
          decide (last.after.db.offerStatus firstOffer.id = some .consumed))
          thread) = true :=
    play_reaches (fun _ _ _ => true) (fun _ _ _ _ => trivial) world_initial
      overtakenRevocation (by decide +kernel)
  obtain ⟨pool, reachable, answered⟩ := reached
  obtain ⟨thread, member, answered⟩ := List.any_eq_true.mp answered
  obtain ⟨⟨headers, request⟩, ⟨response, finished, ok⟩, last, isLast,
    consumed⟩ := revokedWith_iff.mp answered
  obtain ⟨rfl, -⟩ :=
    Reachable.revocationEnds reachable member request finished ok
  exact ⟨pool, reachable, thread, member, ⟨headers, request⟩, finished, last,
    isLast, of_decide_eq_true consumed⟩

end Schedules

end Floonet
