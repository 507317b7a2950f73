import Floonet.ClaimOutcome
import Floonet.Concurrent.Failover

/-!
# The node client

The foreign-API calls of a transfer claim.  A call is one step whose answer is
anything at all that an endpoint, or the way to it, can make of a request; a
lookup takes two calls at one endpoint and fails over to the next endpoint.
-/

namespace Floonet

open Concurrent Concurrent.Program

/-! ## Calls -/

/-- One JSON-RPC request. -/
inductive NodeOp where
  | post (endpoint : String) (body : Json)

/-- What comes of a request: no response, or a status, with the text it is
shown as, and a body that may not be JSON. -/
inductive NodeReply where
  | transport (error : String)
  | responded (status : Nat) (shown : String) (body : Except String Json)

/-- A request is answered by a reply, or by a failure of the transport. -/
abbrev NodeOp.Ans : NodeOp → Type
  | post _ _ => NodeReply

abbrev NodeProgram := Program NodeOp NodeOp.Ans

abbrev NodeEvent := Concurrent.Event NodeOp NodeOp.Ans

/-- `StatusCode::is_success`. -/
def isSuccess (status : Nat) : Bool :=
  decide (200 ≤ status ∧ status < 300)

/-- The client of the node, with its endpoints in order of preference. -/
structure NodeClient where
  endpoints : List String

namespace NodeClient

-- How a JSON value is shown in an error text.
variable (display : Json → String)

/-- The envelope of a JSON-RPC request. -/
def rpcBody (method : String) (params : Json) : Json :=
  .object [("jsonrpc", .string "2.0"), ("id", .number (.posInt 1)),
    ("method", .string method), ("params", params)]

/-- The result of a decoded response, without its two envelopes. -/
def unwrapResult (method : String) (value : Json) : Except String Json := do
  if let some err := value.get "error" then
    if !err.isNull then throw s!"{method} error: {display err}"
  let result := (value.get "result").getD .null
  if let some innerErr := result.get "Err" then
    throw s!"{method} Err: {display innerErr}"
  return (result.get "Ok").getD result

/-- The result in a reply, or how the request failed. -/
def readReply (method : String) : NodeReply → Except String Json
  | .transport error => .error s!"{method} transport: {error}"
  | .responded status shown body =>
      if !isSuccess status then .error s!"{method} HTTP {shown}"
      else match body with
        | .error error => .error s!"{method} decode: {error}"
        | .ok value => unwrapResult display method value

/-- One foreign-API call. -/
def rpc (endpoint method : String) (params : Json) :
    NodeProgram (Except String Json) := do
  let reply ← perform (.post endpoint (rpcBody method params))
  return readReply display method reply

/-- A kernel is looked for at every height. -/
def getKernelParams (excessHex : String) : Json :=
  .array [.string excessHex, .null, .null]

/-- `get_kernel` returns `[TxKernelPrintable, height, mmr_index]`. -/
def kernelHeight (kernel : Json) : Option UInt64 :=
  ((kernel.getIndex 1).bind Json.asU64).or
    ((kernel.get "height").bind Json.asU64)

/-- The height in the answer to `get_tip`. -/
def reportedHeight (tip : Json) : Option UInt64 :=
  (tip.get "height").bind Json.asU64

/-- The answer `null` to `get_kernel`. -/
def notFound : KernelResult where
  found := false
  confirmations := 0
  height := none

/-- `tip_h.saturating_sub(h)`. -/
def saturatingSub (tip height : UInt64) : UInt64 :=
  if height ≤ tip then tip - height else 0

/-- The depth of a kernel; the addition wraps. -/
def kernelResult (height tip : Option UInt64) : KernelResult :=
  match height, tip with
  | some h, some tipH =>
      { found := true
        confirmations := max (saturatingSub tipH h + 1) 1
        height := some h }
  | h, _ => { found := true, confirmations := 1, height := h }

/-- `get_kernel` at one endpoint, which then has to say how high its tip is. -/
def kernelOne (excessHex endpoint : String) :
    NodeProgram (Except String KernelResult) := do
  match ← rpc display endpoint "get_kernel" (getKernelParams excessHex) with
  | .error error => return .error error
  | .ok kernel =>
      if kernel.isNull then return .ok notFound
      match ← rpc display endpoint "get_tip" (.array []) with
      | .error error => return .error error
      | .ok tip =>
          return .ok (kernelResult (kernelHeight kernel) (reportedHeight tip))

/-- `get_tip` at one endpoint. -/
def tipOne (endpoint : String) : NodeProgram (Except String UInt64) := do
  match ← rpc display endpoint "get_tip" (.array []) with
  | .error error => return .error error
  | .ok tip =>
      match reportedHeight tip with
      | some height => return .ok height
      | none => return .error "get_tip: height missing"

variable (client : NodeClient)

/-- The first endpoint that answers counts. -/
def kernel (excessHex : String) : NodeProgram (Except String KernelResult) :=
  failover (kernelOne display excessHex) "no node endpoints configured"
    client.endpoints

/-- The first endpoint that answers counts. -/
def tipHeight : NodeProgram (Except String UInt64) :=
  failover (tipOne display) "no node endpoints configured" client.endpoints

/-! ## What one endpoint reports -/

/-- The call of `method` at `endpoint`, answered by `reply`. -/
def call (endpoint method : String) (params : Json) (reply : NodeReply) :
    NodeEvent :=
  ⟨.post endpoint (rpcBody method params), reply⟩

/-- Two answers of one endpoint: a kernel and the tip of its chain. -/
structure Reports (excessHex endpoint : String) (events : List NodeEvent)
    (kernel tip : Json) : Prop where
  found : kernel.isNull = false
  calls : ∃ kernelReply tipReply,
    readReply display "get_kernel" kernelReply = .ok kernel ∧
    readReply display "get_tip" tipReply = .ok tip ∧
    events = [call endpoint "get_kernel" (getKernelParams excessHex)
      kernelReply, call endpoint "get_tip" (.array []) tipReply]

/-- An endpoint that did not answer about the kernel, or not about the tip. -/
inductive Failed (excessHex endpoint : String) : List NodeEvent → Prop where
  | kernel {reply : NodeReply} {error : String} :
      readReply display "get_kernel" reply = .error error →
      Failed excessHex endpoint
        [call endpoint "get_kernel" (getKernelParams excessHex) reply]
  | tip {kernelReply reply : NodeReply} {kernel : Json} {error : String} :
      readReply display "get_kernel" kernelReply = .ok kernel →
      kernel.isNull = false →
      readReply display "get_tip" reply = .error error →
      Failed excessHex endpoint
        [call endpoint "get_kernel" (getKernelParams excessHex) kernelReply,
          call endpoint "get_tip" (.array []) reply]

variable {display} {excessHex endpoint : String} {events : List NodeEvent}

theorem rpc_bind_yields {Res : Type} {method : String} {params : Json}
    {rest : Except String Json → NodeProgram Res} {out : Res} :
    (rpc display endpoint method params >>= rest).Yields events out ↔
      ∃ reply later, events = call endpoint method params reply :: later ∧
        (rest (readReply display method reply)).Yields later out :=
  yields_perform_bind

theorem kernelOne_yields {outcome : Except String KernelResult}
    (yields : (kernelOne display excessHex endpoint).Yields events outcome) :
    (∃ error, outcome = .error error ∧
        Failed display excessHex endpoint events) ∨
      outcome = .ok notFound ∨
      ∃ kernel tip, Reports display excessHex endpoint events kernel tip ∧
        outcome =
          .ok (kernelResult (kernelHeight kernel) (reportedHeight tip)) := by
  obtain ⟨kernelReply, afterKernel, rfl, rest⟩ := rpc_bind_yields.mp yields
  cases answered : readReply display "get_kernel" kernelReply with
  | error error =>
      rw [answered] at rest
      obtain ⟨rfl, rfl⟩ := yields_done.mp rest
      exact .inl ⟨error, rfl, .kernel answered⟩
  | ok kernel =>
      rw [answered] at rest
      dsimp only at rest
      split at rest
      · exact .inr (.inl (yields_done.mp rest).2)
      · rename_i isKernel
        have found := Bool.eq_false_iff.mpr isKernel
        obtain ⟨tipReply, afterTip, rfl, last⟩ := rpc_bind_yields.mp rest
        cases tipAnswered : readReply display "get_tip" tipReply with
        | error error =>
            rw [tipAnswered] at last
            obtain ⟨rfl, rfl⟩ := yields_done.mp last
            exact .inl ⟨error, rfl, .tip answered found tipAnswered⟩
        | ok tip =>
            rw [tipAnswered] at last
            obtain ⟨rfl, rfl⟩ := yields_done.mp last
            exact .inr (.inr ⟨kernel, tip, ⟨found, kernelReply, tipReply,
              answered, tipAnswered, rfl⟩, rfl⟩)

theorem kernelOne_found {result : KernelResult}
    (yields : (kernelOne display excessHex endpoint).Yields events
      (.ok result)) (found : result.found = true) :
    ∃ kernel tip, Reports display excessHex endpoint events kernel tip ∧
      result = kernelResult (kernelHeight kernel) (reportedHeight tip) := by
  rcases kernelOne_yields yields with ⟨_, different, -⟩ | same |
    ⟨kernel, tip, reports, same⟩
  · cases different
  · cases same
    cases found
  · exact ⟨kernel, tip, reports, Except.ok.inj same⟩

theorem failed_of_fails
    (fails : Fails (kernelOne display excessHex) endpoint events) :
    Failed display excessHex endpoint events := by
  obtain ⟨error, yields⟩ := fails
  rcases kernelOne_yields yields with ⟨_, -, failed⟩ | different |
    ⟨_, _, -, different⟩
  · exact failed
  · cases different
  · cases different

/-! ## Depth -/

/-- A depth of two or more is an honest one: the addition has not wrapped. -/
theorem depth_of_confirmations {n : Nat} {height tip : UInt64} (deep : 2 ≤ n)
    (enough : n ≤ (max (saturatingSub tip height + 1) 1).toNat) :
    height.toNat + n - 1 ≤ tip.toNat := by
  have tipBound := tip.toNat_lt
  unfold saturatingSub at enough
  split at enough
  · rename_i below
    have ordered := UInt64.le_iff_toNat_le.mp below
    have depth : (tip - height + 1).toNat =
        (tip.toNat - height.toNat + 1) % 2 ^ 64 := by
      rw [UInt64.toNat_add, UInt64.toNat_sub_of_le _ _ below]
      rfl
    rw [UInt64.toNat_max, depth] at enough
    have one : (1 : UInt64).toNat = 1 := rfl
    omega
  · have shallow : (max (0 + 1) 1 : UInt64).toNat = 1 := rfl
    omega

theorem kernelResult_confirmations {n : Nat} {height tip : Option UInt64}
    (deep : 2 ≤ n) (enough : n ≤ (kernelResult height tip).confirmations.toNat) :
    ∃ h tipH, height = some h ∧ tip = some tipH ∧
      h.toNat + n - 1 ≤ tipH.toNat := by
  unfold kernelResult at enough
  split at enough
  · rename_i h tipH
    exact ⟨h, tipH, rfl, rfl, depth_of_confirmations deep enough⟩
  · have shallow : n ≤ (1 : UInt64).toNat := enough
    have one : (1 : UInt64).toNat = 1 := rfl
    omega

/-! ## Lookups -/

/-- A lookup that finds a kernel `n ≥ 2` deep rests on what one endpoint has
reported in the same lookup, after every endpoint before it has failed; a
lookup fails only if all endpoints do. -/
theorem kernel_reported {outcome : Except String KernelResult}
    (ran : (client.kernel display excessHex).Yields events outcome) :
    (∀ n result, 2 ≤ n → outcome = .ok result → result.found = true →
      n ≤ result.confirmations.toNat →
      ∃ before endpoint after failed own kernel tip h t,
        client.endpoints = before ++ endpoint :: after ∧
        List.Forall₂ (Failed display excessHex) before failed ∧
        events = failed.flatten ++ own ∧
        Reports display excessHex endpoint own kernel tip ∧
        kernelHeight kernel = some h ∧ reportedHeight tip = some t ∧
        h.toNat + n - 1 ≤ t.toNat) ∧
    ∀ error, outcome = .error error →
      ∃ failed,
        List.Forall₂ (Failed display excessHex) client.endpoints failed ∧
        events = failed.flatten := by
  constructor
  · rintro n result deep rfl found enough
    obtain ⟨before, endpoint, after, failed, own, split, allFailed, rfl,
      yields⟩ := failover_yields_ok ran
    obtain ⟨kernel, tip, reports, rfl⟩ := kernelOne_found yields found
    obtain ⟨h, t, isHeight, isTip, depth⟩ :=
      kernelResult_confirmations deep enough
    exact ⟨before, endpoint, after, failed, own, kernel, tip, h, t, split,
      allFailed.imp fun _ _ => failed_of_fails, rfl, reports, isHeight, isTip,
      depth⟩
  · rintro error rfl
    obtain ⟨failed, allFailed, rfl⟩ := failover_yields_error ran
    exact ⟨failed, allFailed.imp fun _ _ => failed_of_fails, rfl⟩

namespace Sample

/-- Two endpoints, the first of which is out of reach. -/
def twoNodes : NodeClient where
  endpoints := ["http://first.example", "http://second.example"]

def showJson (_ : Json) : String := "json"

def reply (result : Json) : NodeReply :=
  .responded 200 "200 OK" (.ok (.object [("result", .object [("Ok", result)])]))

/-- A kernel at height 900. -/
def kernelReply : NodeReply :=
  reply (.array [.object [], .number (.posInt 900), .number (.posInt 5)])

def tipReply : NodeReply :=
  reply (.object [("height", .number (.posInt 1000))])

def lookupEvents : List NodeEvent :=
  [call "http://first.example" "get_kernel" (getKernelParams "08ab")
      (.transport "timed out"),
    call "http://second.example" "get_kernel" (getKernelParams "08ab")
      kernelReply,
    call "http://second.example" "get_tip" (.array []) tipReply]

theorem lookup_yields :
    (twoNodes.kernel showJson "08ab").Yields lookupEvents
      (.ok { found := true, confirmations := 101, height := some 900 }) :=
  .step _ (.step _ (.step _ (.done _)))

theorem kernel_reported_second : ∃ endpoint ∈ twoNodes.endpoints,
    ∃ own kernel tip h t,
      Reports showJson "08ab" endpoint own kernel tip ∧
      kernelHeight kernel = some h ∧ reportedHeight tip = some t ∧
      h.toNat + 101 - 1 ≤ t.toNat := by
  obtain ⟨found, -⟩ := kernel_reported twoNodes lookup_yields
  obtain ⟨_, endpoint, _, _, own, kernel, tip, h, t, split, -, -, reports⟩ :=
    found 101 _ (by decide) rfl rfl (by decide)
  exact ⟨endpoint, split ▸ List.mem_append_right _ List.mem_cons_self, own,
    kernel, tip, h, t, reports⟩

end Sample

end NodeClient

end Floonet
