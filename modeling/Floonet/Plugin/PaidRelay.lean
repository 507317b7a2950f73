import Floonet.PublicStatus
import Floonet.Plugin.PaidWrites

/-!
# Pay to write

The write policy beside the name authority.  The policy asks over HTTP, and
what it reads is the answer to a request that the authority served while the
policy waited, interleaved with the requests of everyone else.  An event that
the relay accepts is then from a key whose invoice the payment backend
reported paid.
-/

namespace Floonet

open Concurrent Program System Python

/-! ## Bodies -/

mutual

/-- What `json.loads` reads of a body of the server, which has no floats. -/
def Json.loads : Json → Value
  | .null => .null
  | .bool value => .bool value
  | .number (.posInt value) => .int value.toNat
  | .number (.negInt value) => .int value.toInt
  | .number .float => .float none
  | .string value => .str (str value)
  | .array items => .list (loadsItems items)
  | .object fields => .dict (loadsFields fields)

def Json.loadsItems : List Json → List Value
  | [] => []
  | item :: items => item.loads :: loadsItems items

def Json.loadsFields : List (String × Json) → List (Str × Value)
  | [] => []
  | (key, value) :: fields => (str key, value.loads) :: loadsFields fields

end

theorem paidBody_loads (pubkey : String) (paid : Bool) :
    (paidBody pubkey paid).body.loads.get (str "paid") = .ok (.bool paid) := by
  have apart : (str "paid" == str "pubkey") = false := by decide
  simp [paidBody, Json.loads, Json.loadsFields, Value.get, Value.getD,
    List.lookup_cons, apart]

theorem toLowercase_pubkey (tables : Text.CaseTables) {pubkey : String}
    (valid : validPubkeyHex pubkey = true) :
    tables.toLowercase pubkey = pubkey := by
  simp only [validPubkeyHex, Bool.and_eq_true, List.all_eq_true] at valid
  refine toLowercase_plain tables String.ofList_toList.symm
    (List.all_eq_true.mpr fun c member => ?_)
  have digit := valid.2 c member
  simp only [Text.isHexDigit, Text.isAsciiUppercase, Text.isDigit,
    Bool.and_eq_true, Bool.or_eq_true, Bool.not_eq_true',
    Bool.and_eq_false_iff, decide_eq_true_iff, decide_eq_false_iff_not]
    at digit
  simp only [isPlain, Text.isDigit, Text.isAsciiLowercase, Bool.or_eq_true,
    Bool.and_eq_true, decide_eq_true_iff]
  omega

/-! ## Statuses -/

section Status

variable {ext : Extern} {cfg : Config}

theorem paidStatus_answers (raw : String) (headers : Headers)
    (past : History) :
    (paidStatus ext cfg raw headers).Every (fun _ _ => True)
      (fun _ response => response.status = .ok →
        ∃ paid, response = paidBody (ext.cases.toLowercase raw) paid) past := by
  unfold paidStatus App.allowRead App.allow
  refine every_perform_bind.mpr ⟨trivial, fun now => ?_⟩
  refine every_perform_bind.mpr ⟨trivial, fun allowed => ?_⟩
  split
  · exact nofun
  dsimp only
  split
  · exact nofun
  split
  · exact fun _ => ⟨true, rfl⟩
  refine every_perform_bind.mpr ⟨trivial, fun found => ?_⟩
  split
  · exact fun _ => ⟨false, rfl⟩
  split
  · exact fun _ => ⟨true, rfl⟩
  refine every_bind.mpr ((every_extends _ _).mono (fun _ _ _ _ => trivial)
    fun past' outcome _ _ => ?_)
  cases outcome with
  | paid => exact fun _ => ⟨true, rfl⟩
  | due invoiceId payUrl price => exact fun _ => ⟨false, rfl⟩
  | unavailable reason => exact fun _ => ⟨false, rfl⟩

variable {permitted : Permission World Request Op Op.Ans Response}
  {pool later : FloonetPool} {thread : FloonetThread}

/-- The authority answered that the key has paid. -/
def Vouched (thread : FloonetThread) (pubkey : String) : Prop :=
  (∃ headers, thread.request = .paidStatus pubkey headers) ∧
    thread.program = .done (paidBody pubkey true)

theorem vouched_of_read
    (reachable : (server ext cfg).Reachable permitted pool)
    (member : thread ∈ pool.threads) {pubkey : String} {headers : Headers}
    {response : Response} (valid : validPubkeyHex pubkey = true)
    (request : thread.request = .paidStatus pubkey headers)
    (finished : thread.program = .done response)
    (status : response.status = .ok) {verdict : Value}
    (read : response.body.loads.get (str "paid") = .ok verdict)
    (truthy : verdict.truthy = true) : Vouched thread pubkey := by
  have every := reachable.follows thread member
  rw [request, finished] at every
  obtain ⟨paid, rfl⟩ :=
    every.every (paidStatus_answers pubkey headers []) status
  rw [toLowercase_pubkey ext.cases valid] at finished read
  rw [paidBody_loads] at read
  cases read
  cases paid with
  | false => cases truthy
  | true => exact ⟨⟨headers, request⟩, finished⟩

/-- The authority vouches only for keys that have paid. -/
theorem paidFor_of_vouched
    (reachable : (server ext cfg).Reachable permitted pool)
    (mode : cfg.payMode = .write) (member : thread ∈ pool.threads)
    {pubkey : String} (vouched : Vouched thread pubkey) :
    PaidFor pool pubkey "write" := by
  obtain ⟨⟨headers, request⟩, finished⟩ := vouched
  have charged := Reachable.charged reachable member finished
  rw [request] at charged
  exact paidFor_of_admitted
    ((Reachable.grantsBacked reachable).read pubkey "write") member
    (charged pubkey mode rfl)

end Status

/-! ## The relay -/

namespace Plugin

variable {Secs : Type} [LinearOrder Secs] [Add Secs] [OfNat Secs 10]

/-- What the policy reads about a key at the URL of the authority is the body
of a status request that came in and was answered in the meantime.  On any
other status `urlopen` raises. -/
def Call.AsksAuthority (settings : Cfg Secs) (call : Call Secs)
    (asked answered : FloonetPool) : Prop :=
  ∀ pubkey body, validPubkeyHex pubkey = true →
    call.outside.urlopen (settings.authorityUrl ++ str "/api/v1/paid/" ++
      str pubkey) = .ok body →
    ∃ thread ∈ answered.threads.drop asked.threads.length, ∃ headers response,
      thread.request = .paidStatus pubkey headers ∧
        thread.program = .done response ∧ response.status = .ok ∧
          body = response.body.loads

/-- The authority serves while the policy decides about one event after the
other. -/
inductive RelayRun (ext : Extern) (cfg : Config) (tables : Unicode)
    (settings : Cfg Secs) :
    FloonetPool → List (Call Secs) → PluginState Secs → Prop where
  | start {world : World} (initial : world.Initial) :
      RelayRun ext cfg tables settings ⟨world, []⟩ [] .initial
  | serve {pool later : FloonetPool} {calls : List (Call Secs)}
      {state : PluginState Secs} {label : Label World Request Op Op.Ans}
      (run : RelayRun ext cfg tables settings pool calls state)
      (step : (server ext cfg).Step pool label later) :
      RelayRun ext cfg tables settings later calls state
  | decide {pool later : FloonetPool} {calls : List (Call Secs)}
      {state : PluginState Secs}
      (run : RelayRun ext cfg tables settings pool calls state)
      (call : Call Secs)
      (onward : ∀ earlier ∈ calls, earlier.outside.now ≤ call.outside.now)
      (steps : (server ext cfg).Steps anyMove pool later)
      (asks : call.AsksAuthority settings pool later) :
      RelayRun ext cfg tables settings later (calls ++ [call])
        (call.after tables settings state)

variable {ext : Extern} {cfg : Config} {tables : Unicode}
  {settings : Cfg Secs} {pool later : FloonetPool} {calls : List (Call Secs)}
  {state : PluginState Secs}

namespace RelayRun

theorem serving (reachable : (server ext cfg).Reachable anyMove pool) :
    RelayRun ext cfg tables settings pool [] .initial := by
  refine Reachable.induct (motive := fun pool =>
    RelayRun ext cfg tables settings pool [] .initial) ?start ?step reachable
  case start => exact fun _ initial => .start initial
  case step => exact fun _ _ _ _ run step _ => .serve run step

theorem reachable (run : RelayRun ext cfg tables settings pool calls state) :
    (server ext cfg).Reachable anyMove pool := by
  induction run with
  | start initial => exact .start initial
  | serve run step induction => exact induction.step step trivial
  | decide run call onward steps asks induction =>
      exact Reachable.steps induction steps

theorem serves (run : RelayRun ext cfg tables settings pool calls state) :
    Serves tables settings calls state := by
  induction run with
  | start initial => exact .start
  | serve run step induction => exact induction
  | decide run call onward steps asks induction =>
      exact induction.call call onward

end RelayRun

omit [LinearOrder Secs] [Add Secs] [OfNat Secs 10] in
theorem Call.AsksAuthority.vouched {call : Call Secs}
    (asks : call.AsksAuthority settings pool later)
    (reachable : (server ext cfg).Reachable anyMove later) {pubkey : String}
    (valid : validPubkeyHex pubkey = true)
    (verdict : paidLookup settings call.outside (str pubkey) = .ok true) :
    ∃ thread ∈ later.threads, Vouched thread pubkey := by
  simp only [paidLookup, Validation.bind_eq_ok, Validation.pure_eq_ok]
    at verdict
  obtain ⟨body, fetched, paid, read, truthy⟩ := verdict
  obtain ⟨thread, member, headers, response, request, finished, status, rfl⟩ :=
    asks pubkey body valid fetched
  have member := List.mem_of_mem_drop member
  exact ⟨thread, member, vouched_of_read reachable member valid request
    finished status read truthy⟩

/-- Every paid verdict of a lookup is one that the authority gave. -/
theorem RelayRun.vouched
    (run : RelayRun ext cfg tables settings pool calls state) {pubkey : String}
    (valid : validPubkeyHex pubkey = true) :
    ∀ call ∈ calls, paidLookup settings call.outside (str pubkey) = .ok true →
      ∃ thread ∈ pool.threads, Vouched thread pubkey := by
  induction run with
  | start initial => simp
  | serve run step induction =>
      intro call member verdict
      obtain ⟨thread, threadMember, vouched⟩ := induction call member verdict
      exact ⟨thread, step.finished threadMember ⟨_, vouched.2⟩, vouched⟩
  | decide run call onward steps asks induction =>
      intro asker member verdict
      rcases List.mem_append.mp member with old | new
      · obtain ⟨thread, threadMember, vouched⟩ := induction asker old verdict
        exact ⟨thread, steps.finished threadMember ⟨_, vouched.2⟩, vouched⟩
      · cases List.mem_singleton.mp new
        exact asks.vouched (Reachable.steps run.reachable steps) valid verdict

theorem Accepts.verdict [AddLeftMono Secs] [AddRightMono Secs]
    (served : Serves tables settings calls state)
    (write : settings.payMode = .write) {call : Call Secs}
    (accepts : Accepts tables call.req settings call.outside state) :
    ∃ authed, Authed call.req authed ∧ ∃ asker ∈ calls ++ [call],
      paidLookup settings asker.outside authed = .ok true ∧
        (asker = call ∨ call.outside.now <
          asker.outside.now + settings.paidCacheSecs) := by
  obtain ⟨fields, event, -, -, -, -, -, -, passes⟩ := accepts_iff.mp accepts
  obtain ⟨authed, isAuthed, paid⟩ := checkPaid_passes write passes
  refine ⟨authed, isAuthed, ?_⟩
  rcases paid with ⟨expires, cached, lasts⟩ | ⟨verdict, -⟩
  · obtain ⟨lookup, member, rfl, isPaid, rfl⟩ := served.sound.backed _ _ cached
    obtain ⟨asker, askerMember, asked⟩ := served.sound.asked lookup member
    rw [asked.start] at lasts
    exact ⟨asker, List.mem_append_left _ askerMember,
      asked.verdict.symm.trans isPaid, .inr lasts⟩
  · obtain ⟨lookup, paid, expires, rfl, start, asked, -, -, -, isPaid⟩ :=
      lookUp_spec settings state authed call.outside call.outside.now
    exact ⟨call, List.mem_append_right _ List.mem_cons_self,
      asked.symm.trans (isPaid verdict), .inl rfl⟩

/-- In pay-to-write mode, whatever the authority serves at the same time: an
accepted event comes over a connection that has authenticated a key, the
authority has vouched for the key within the lifetime of the cache, and the
key has paid for write access. -/
theorem paid_writes [AddLeftMono Secs] [AddRightMono Secs]
    (run : RelayRun ext cfg tables settings pool calls state)
    (mode : cfg.payMode = .write) (write : settings.payMode = .write)
    (call : Call Secs) (steps : (server ext cfg).Steps anyMove pool later)
    (asks : call.AsksAuthority settings pool later)
    (accepts : Accepts tables call.req settings call.outside state) :
    ∃ authed, Authed call.req authed ∧ ∀ pubkey,
      validPubkeyHex pubkey = true → authed = str pubkey →
        (∃ asker ∈ calls ++ [call],
          paidLookup settings asker.outside authed = .ok true ∧
            (asker = call ∨ call.outside.now <
              asker.outside.now + settings.paidCacheSecs)) ∧
        (∃ thread ∈ later.threads, Vouched thread pubkey) ∧
        PaidFor later pubkey "write" := by
  obtain ⟨authed, isAuthed, asker, member, verdict, recent⟩ :=
    accepts.verdict run.serves write
  refine ⟨authed, isAuthed, fun pubkey valid isKey =>
    ⟨⟨asker, member, verdict, recent⟩, ?_⟩⟩
  subst isKey
  have reachable := Reachable.steps run.reachable steps
  have vouched : ∃ thread ∈ later.threads, Vouched thread pubkey := by
    rcases List.mem_append.mp member with old | new
    · obtain ⟨thread, threadMember, vouched⟩ :=
        run.vouched valid asker old verdict
      exact ⟨thread, steps.finished threadMember ⟨_, vouched.2⟩, vouched⟩
    · cases List.mem_singleton.mp new
      exact asks.vouched reachable valid verdict
  obtain ⟨thread, threadMember, byAuthority⟩ := vouched
  exact ⟨⟨thread, threadMember, byAuthority⟩,
    paidFor_of_vouched reachable mode threadMember byAuthority⟩

section Samples

open Sample

/-- A finished request for the status of the key that read as paid. -/
def vouches (pubkey : String) (thread : FloonetThread) : Bool :=
  match thread.request, thread.program with
  | .paidStatus raw _, .done response =>
      Decidable.decide (raw = pubkey) && Decidable.decide (response.status = .ok)
        && (response.body.loads.get (str "paid")).toOption.any Value.truthy
  | _, _ => false

theorem vouches_spec {pubkey : String} {thread : FloonetThread}
    (reads : vouches pubkey thread = true) : ∃ headers response verdict,
      thread.request = .paidStatus pubkey headers ∧
        thread.program = .done response ∧ response.status = .ok ∧
          response.body.loads.get (str "paid") = .ok verdict ∧
            verdict.truthy = true := by
  unfold vouches at reads
  split at reads
  · rename_i raw headers response request finished
    simp only [Bool.and_eq_true, decide_eq_true_iff,
      Option.any_eq_true, Validation.toOption_eq_some] at reads
    obtain ⟨⟨rfl, status⟩, verdict, read, truthy⟩ := reads
    exact ⟨headers, response, verdict, request, finished, status, read, truthy⟩
  · cases reads

/-- The seller publishes, and the authority answers that the seller has
paid. -/
def sellerWrites : Call Nat where
  req := .dict [(str "authed", .str (str seller)),
    (str "event", .dict [(str "kind", .int 7)])]
  outside :=
    { now := 100
      urlopen := fun url =>
        if url = str "http://authority:8191/api/v1/paid/" ++ str seller then
          .ok (paidBody seller true).body.loads
        else .error .other }

theorem str_injective : Function.Injective str := by
  have points : Function.Injective ascii := by
    intro c d same
    have bound : ∀ e : Char, e.toNat < 0x110000 := by
      intro e
      rcases e.valid with low | high
      · exact low.trans (by decide)
      · exact high.2
    have values := congrArg Fin.val same
    rw [ascii, ascii, Fin.val_ofNat, Fin.val_ofNat, Nat.mod_eq_of_lt (bound c),
      Nat.mod_eq_of_lt (bound d)] at values
    exact Char.toNat_inj.mp values
  intro left right same
  exact String.toList_inj.mp (List.map_injective_iff.mpr points same)

/-- The seller asks for a quote and pays before the policy asks. -/
theorem paid_writes_seller : ∃ (pool later : FloonetPool) (authed : Str),
    RelayRun payHost writeConfig Unicode.basic paidCfg pool [] .initial ∧
      WriteMarket.Steps anyMove pool later ∧ Authed sellerWrites.req authed ∧
        ∀ pubkey, validPubkeyHex pubkey = true → authed = str pubkey →
          (∃ asker ∈ [] ++ [sellerWrites],
            paidLookup paidCfg asker.outside authed = .ok true ∧
              (asker = sellerWrites ∨ 100 < asker.outside.now + 60)) ∧
          (∃ thread ∈ later.threads, Vouched thread pubkey) ∧
          PaidFor later pubkey "write" := by
  have played : ∃ first later, WriteMarket.Reachable anyMove first ∧
      WriteMarket.Steps anyMove first later ∧
        (later.threads.drop first.threads.length).any (vouches seller) = true :=
    play_continues (fun _ _ _ => true) (fun _ _ _ _ => trivial) world_initial
      (WriteMarket.alone askQuote 0 (backend "first" "pending") 8)
      (WriteMarket.alone askStatus 1 (backend "second" "paid") 9)
      (by decide +kernel)
  obtain ⟨pool, later, reachable, steps, found⟩ := played
  obtain ⟨thread, member, found⟩ := List.any_eq_true.mp found
  obtain ⟨headers, response, verdict, request, finished, status, read,
    truthy⟩ := vouches_spec found
  have vouched := vouched_of_read (Reachable.steps reachable steps)
    (List.mem_of_mem_drop member) seller_valid request finished status read
    truthy
  have asks : sellerWrites.AsksAuthority paidCfg pool later := by
    intro pubkey body _ fetched
    simp only [sellerWrites] at fetched
    split at fetched
    · rename_i same
      have isSeller : pubkey = seller :=
        str_injective (List.append_cancel_left same)
      cases fetched
      exact ⟨thread, member, headers, _, isSeller ▸ request, vouched.2, rfl,
        rfl⟩
    · cases fetched
  have run : RelayRun payHost writeConfig Unicode.basic paidCfg pool []
      .initial := .serving reachable
  obtain ⟨authed, isAuthed, paid⟩ := paid_writes run rfl rfl sellerWrites steps
    asks (accepts_iff_accepted.mpr (by decide +kernel))
  exact ⟨pool, later, authed, run, steps, isAuthed, paid⟩

end Samples

end Plugin

end Floonet
