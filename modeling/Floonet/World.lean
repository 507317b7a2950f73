import Floonet.Concurrent.Pool
import Floonet.Database
import Floonet.RateLimit

/-!
# Shared state and atomic steps

`World` is the state behind `App` together with the clocks and the chain tip.
An `Op` is what a handler does without being interrupted: one acquisition of a
lock, one reading of a clock, or one call to the Grin node or the payment
backend, whose answers `Env` supplies.
-/

namespace Floonet

open Concurrent

/-! ## State -/

/-- A value of `unix_now`. -/
structure UnixTime where
  seconds : Int
  nonneg : 0 ≤ seconds
  bounded : seconds < 2 ^ 63

/-- Time passing, up to the last representable second. -/
def UnixTime.advance (time : UnixTime) (elapsed : Nat) : UnixTime where
  seconds := min (time.seconds + elapsed) (2 ^ 63 - 1)
  nonneg := by
    have nonneg := time.nonneg
    omega
  bounded := by omega

/-- The state of the process, with the clocks and the chain around it. -/
structure World where
  db : Db
  rate : RateMap
  seenAuth : SeenAuth
  unixTime : UnixTime
  instant : Instant
  chainTip : Nat

/-- What the node reports about a kernel. -/
structure KernelResult where
  found : Bool
  confirmations : UInt64
  height : Option UInt64
deriving DecidableEq

/-- What the payment backend reports about an order. -/
structure Invoice where
  id : String
  payUrl : String
  status : String
deriving DecidableEq

/-- What the outside answers to one request. -/
structure Env where
  tipHeight : Except String UInt64
  kernel : String → Except String KernelResult
  createInvoice : String → Nat → String → Except String Invoice
  invoiceStatus : String → Except String String

/-- What changes between two steps of the server. -/
structure Tick where
  seconds : Nat
  nanoseconds : Nat
  blocks : Nat

/-- The clocks and the chain move on; the state of the process does not. -/
def World.tick (tick : Tick) (world : World) : World :=
  { world with
    unixTime := world.unixTime.advance tick.seconds
    instant := world.instant + tick.nanoseconds
    chainTip := world.chainTip + tick.blocks }

/-! ## Database steps -/

/-- The statements, each executed under the lock of the connection. -/
inductive DbOp where
  | lookup (name : String)
  | nameOf (pubkey : String)
  | insertName (name pubkey : String)
  | releaseName (name : String)
  | getOffer (offerId : String)
  | liveOfferForName (name : String) (now : Int)
  | liveOfferBinding (proofAddress : String) (now : Int)
  | insertOffer (row : OfferRow)
  | markOfferDead (offerId : String) (status : OfferStatus)
      (endHeight : Option Int) (stateChangedAt : Int)
  | reviseRevoked (offerId : String)
  | transferForOffer (offerId : String)
  | excessUsed (excessHex : String)
  | runClaimTxn (offer : OfferRow) (excessHex : String)
      (kernelHeight : Option Int) (now : Int)
  | grant (pubkey resource : String)
  | putPendingGrant (pubkey resource : String) (invoice : Invoice)
      (amount : Nat)
  | markGrantPaid (invoiceId : String)
  | grantByInvoice (invoiceId : String)
  | consumeGrant (pubkey resource : String)
deriving DecidableEq

/-- What a statement returns to the handler. -/
abbrev DbOp.Ans : DbOp → Type
  | lookup _ => Option String
  | nameOf _ => Option String
  | insertName _ _ => Except SqlError Nat
  | releaseName _ => Except SqlError Nat
  | getOffer _ => Option OfferRow
  | liveOfferForName _ _ => Bool
  | liveOfferBinding _ _ => Bool
  | insertOffer _ => Except SqlError Nat
  | markOfferDead _ _ _ _ => Except SqlError Nat
  | reviseRevoked _ => Except SqlError Nat
  | transferForOffer _ => Option (String × String × String)
  | excessUsed _ => Bool
  | runClaimTxn _ _ _ _ => Except TxErr Unit
  | grant _ _ => Option Grant
  | putPendingGrant _ _ _ _ => Unit
  | markGrantPaid _ => Bool
  | grantByInvoice _ => Option Grant
  | consumeGrant _ _ => Unit

/-- Execute a statement; `now` is the clock where the statement reads it. -/
def DbOp.exec (now : Int) : (op : DbOp) → Db → op.Ans × Db
  | lookup name, db => (db.lookup name, db)
  | nameOf pubkey, db => (db.nameOf pubkey, db)
  | insertName name pubkey, db => db.insertName name pubkey now
  | releaseName name, db => db.releaseName name now
  | getOffer offerId, db => (db.getOffer offerId, db)
  | liveOfferForName name at_, db => (db.liveOfferForName name at_, db)
  | liveOfferBinding proofAddress at_, db =>
      (db.liveOfferBinding proofAddress at_, db)
  | insertOffer row, db => db.insertOffer row
  | markOfferDead offerId status endHeight stateChangedAt, db =>
      db.markOfferDead offerId status endHeight stateChangedAt
  | reviseRevoked offerId, db => db.setOfferStatus offerId .revoked
  | transferForOffer offerId, db => (db.transferForOffer offerId, db)
  | excessUsed excessHex, db => (db.excessUsed excessHex, db)
  | runClaimTxn offer excessHex kernelHeight at_, db =>
      db.runClaimTxn offer excessHex kernelHeight at_
  | grant pubkey resource, db => (db.grant pubkey resource, db)
  | putPendingGrant pubkey resource invoice amount, db =>
      ((), db.putPendingGrant pubkey resource invoice.id invoice.payUrl
        (MachineInt.asI64 amount) now)
  | markGrantPaid invoiceId, db => db.markGrantPaid invoiceId now
  | grantByInvoice invoiceId, db => (db.grantByInvoice invoiceId, db)
  | consumeGrant pubkey resource, db => ((), db.consumeGrant pubkey resource)

/-! ## All steps -/

/-- What happens without interruption. -/
inductive Op where
  | db (op : DbOp)
  | unixNow
  | instantNow
  | allow (bucket ip : String) (max : Nat) (window : Duration) (now : Instant)
  | cooldownActive (bucket key : String) (window : Duration) (now : Instant)
  | recordOp (bucket key : String)
  | authEventFresh (eventId : String) (window : Duration) (now : Instant)
  | tipHeight
  | kernel (excessHex : String)
  | createInvoice (orderRef : String) (amount : Nat) (memo : String)
  | invoiceStatus (invoiceId : String)
deriving DecidableEq

/-- What a step returns to the handler. -/
abbrev Op.Ans : Op → Type
  | db op => op.Ans
  | unixNow => Int
  | instantNow => Instant
  | allow _ _ _ _ _ => Bool
  | cooldownActive _ _ _ _ => Bool
  | recordOp _ _ => Unit
  | authEventFresh _ _ _ => Bool
  | tipHeight => Except String UInt64
  | kernel _ => Except String KernelResult
  | createInvoice _ _ _ => Except String Invoice
  | invoiceStatus _ => Except String String

/-- The effect of a step, and its answer. -/
def Op.exec (env : Env) : (op : Op) → World → op.Ans × World
  | db op, world =>
      let outcome := op.exec world.unixTime.seconds world.db
      (outcome.1, { world with db := outcome.2 })
  | unixNow, world => (world.unixTime.seconds, world)
  | instantNow, world => (world.instant, world)
  | allow bucket ip max window now, world =>
      let outcome := world.rate.allow bucket ip max window now
      (outcome.1, { world with rate := outcome.2 })
  | cooldownActive bucket key window now, world =>
      let outcome := world.rate.cooldownActive bucket key window now
      (outcome.1, { world with rate := outcome.2 })
  | recordOp bucket key, world =>
      ((), { world with rate := world.rate.recordOp bucket key world.instant })
  | authEventFresh eventId window now, world =>
      let outcome := world.seenAuth.authEventFresh eventId window now
      (outcome.1, { world with seenAuth := outcome.2 })
  | tipHeight, world => (env.tipHeight, world)
  | kernel excessHex, world => (env.kernel excessHex, world)
  | createInvoice orderRef amount memo, world =>
      (env.createInvoice orderRef amount memo, world)
  | invoiceStatus invoiceId, world => (env.invoiceStatus invoiceId, world)

/-! ## Handler programs -/

/-- The body of a request handler. -/
abbrev Handler := Program Op Op.Ans

namespace App

open Program

@[simp] def lookup (name : String) : Handler (Option String) :=
  perform (Op.db (.lookup name))

@[simp] def nameOf (pubkey : String) : Handler (Option String) :=
  perform (Op.db (.nameOf pubkey))

@[simp] def insertName (name pubkey : String) :
    Handler (Except SqlError Nat) :=
  perform (Op.db (.insertName name pubkey))

@[simp] def releaseName (name : String) : Handler (Except SqlError Nat) :=
  perform (Op.db (.releaseName name))

@[simp] def getOffer (offerId : String) : Handler (Option OfferRow) :=
  perform (Op.db (.getOffer offerId))

@[simp] def liveOfferForName (name : String) (now : Int) : Handler Bool :=
  perform (Op.db (.liveOfferForName name now))

@[simp] def liveOfferBinding (proofAddress : String) (now : Int) :
    Handler Bool :=
  perform (Op.db (.liveOfferBinding proofAddress now))

@[simp] def insertOffer (row : OfferRow) : Handler (Except SqlError Nat) :=
  perform (Op.db (.insertOffer row))

@[simp] def markOfferDead (offerId : String) (status : OfferStatus)
    (endHeight : Option Int) (stateChangedAt : Int) :
    Handler (Except SqlError Nat) :=
  perform (Op.db (.markOfferDead offerId status endHeight stateChangedAt))

@[simp] def reviseRevoked (offerId : String) : Handler (Except SqlError Nat) :=
  perform (Op.db (.reviseRevoked offerId))

@[simp] def transferForOffer (offerId : String) :
    Handler (Option (String × String × String)) :=
  perform (Op.db (.transferForOffer offerId))

@[simp] def excessUsed (excessHex : String) : Handler Bool :=
  perform (Op.db (.excessUsed excessHex))

@[simp] def runClaimTxn (offer : OfferRow) (excessHex : String)
    (kernelHeight : Option Int) (now : Int) : Handler (Except TxErr Unit) :=
  perform (Op.db (.runClaimTxn offer excessHex kernelHeight now))

@[simp] def grant (pubkey resource : String) : Handler (Option Grant) :=
  perform (Op.db (.grant pubkey resource))

@[simp] def putPendingGrant (pubkey resource : String) (invoice : Invoice)
    (amount : Nat) : Handler Unit :=
  perform (Op.db (.putPendingGrant pubkey resource invoice amount))

@[simp] def markGrantPaid (invoiceId : String) : Handler Bool :=
  perform (Op.db (.markGrantPaid invoiceId))

@[simp] def grantByInvoice (invoiceId : String) : Handler (Option Grant) :=
  perform (Op.db (.grantByInvoice invoiceId))

@[simp] def consumeGrant (pubkey resource : String) : Handler Unit :=
  perform (Op.db (.consumeGrant pubkey resource))

@[simp] def unixNow : Handler Int :=
  perform Op.unixNow

@[simp] def instantNow : Handler Instant :=
  perform Op.instantNow

@[simp] def recordOp (bucket key : String) : Handler Unit :=
  perform (Op.recordOp bucket key)

@[simp] def tipHeight : Handler (Except String UInt64) :=
  perform Op.tipHeight

@[simp] def kernel (excessHex : String) :
    Handler (Except String KernelResult) :=
  perform (Op.kernel excessHex)

@[simp] def createInvoice (orderRef : String) (amount : Nat) (memo : String) :
    Handler (Except String Invoice) :=
  perform (Op.createInvoice orderRef amount memo)

@[simp] def invoiceStatus (invoiceId : String) :
    Handler (Except String String) :=
  perform (Op.invoiceStatus invoiceId)

/-- Whether an operation in this bucket happened within the window. -/
def cooldownActive (bucket key : String) (window : Duration) :
    Handler Bool := do
  let now ← instantNow
  perform (Op.cooldownActive bucket key window now)

/-- Count a request against a limit. -/
def allow (bucket ip : String) (max : Nat) (window : Duration) :
    Handler Bool := do
  let now ← instantNow
  perform (Op.allow bucket ip max window now)

variable (cfg : Config)

/-- The limit of the public endpoints. -/
def allowRead (ip : String) : Handler Bool :=
  allow "read" ip cfg.readRateMax cfg.readRateWindow

/-- The limit of the authenticated endpoints, for each of them. -/
def allowWrite (bucket ip : String) : Handler Bool :=
  allow bucket ip cfg.writeRateMax cfg.writeRateWindow

/-- Record the id of an auth event, unless it has been used. -/
def authEventFresh (eventId : String) : Handler Bool := do
  let now ← instantNow
  perform (Op.authEventFresh eventId cfg.authWindow now)

end App

end Floonet
