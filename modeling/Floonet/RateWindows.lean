import Floonet.RateFlood

/-!
# What the rate limiter guarantees

Runs of the three operations on the shared map.  The bound of a bucket holds
in every window as long as no cleanup, which uses the window of the call that
triggers it, drops an entry that the window of this bucket still needs.
-/

namespace Floonet

open SlidingWindow

/-- The calls of the rate limiter. -/
inductive RateCall where
  | allow (bucket ip : String) (max : Nat) (window : Duration)
  | cooldownActive (bucket key : String) (window : Duration)
  | recordOp (bucket key : String)

namespace RateCall

def bucket : RateCall → String
  | allow bucket _ _ _ => bucket
  | cooldownActive bucket _ _ => bucket
  | recordOp bucket _ => bucket

/-- The key that the call works on. -/
def key : RateCall → String
  | allow bucket ip _ _ => RateMap.key bucket ip
  | cooldownActive bucket key _ => RateMap.key bucket key
  | recordOp bucket key => RateMap.key bucket key

/-- What the call answers, and the map after it; `record_op` has no answer. -/
def exec (now : Instant) (map : RateMap) : RateCall → Bool × RateMap
  | allow bucket ip max window => map.allow bucket ip max window now
  | cooldownActive bucket key window =>
      map.cooldownActive bucket key window now
  | recordOp bucket key => (true, map.recordOp bucket key now)

/-- The call cleans up and drops `other` while it has hits within `wide`. -/
def forgets (now : Instant) (map : RateMap) (other : String)
    (wide : Duration) : RateCall → Prop
  | allow bucket ip max window =>
      map.forgets bucket ip max window now other wide
  | _ => False

variable {map : RateMap} {now later : Instant} {other : String}

theorem exec_keyed (keyed : map.Keyed) (call : RateCall) :
    (call.exec now map).2.Keyed := by
  cases call with
  | allow => exact keyed.allow
  | cooldownActive => exact keyed.cooldownActive
  | recordOp => exact keyed.recordOp

theorem exec_other_sublist (keyed : map.Keyed) {call : RateCall}
    (different : other ≠ call.key) :
    ((call.exec now map).2.hits other).Sublist (map.hits other) := by
  cases call with
  | allow => exact RateMap.allow_hits_other_sublist keyed different
  | cooldownActive =>
      simp only [exec, RateMap.cooldownActive_hits_other different,
        List.Sublist.refl]
  | recordOp =>
      simp only [exec, RateMap.recordOp_hits_other different,
        List.Sublist.refl]

theorem exec_other_recent (keyed : map.Keyed) {call : RateCall}
    (different : other ≠ call.key) {wide : Duration}
    (spared : ¬ call.forgets now map other wide) (onward : now ≤ later) :
    recent wide later ((call.exec now map).2.hits other) =
      recent wide later (map.hits other) := by
  cases call with
  | allow => exact RateMap.allow_recent_other keyed different spared onward
  | cooldownActive =>
      exact congrArg _ (RateMap.cooldownActive_hits_other different)
  | recordOp => exact congrArg _ (RateMap.recordOp_hits_other different)

end RateCall

/-! ## Runs -/

/-- A call with its instant and its answer. -/
structure RateEvent where
  call : RateCall
  instant : Instant
  answer : Bool

/-- `RateRun permitted log map`: the permitted calls of `log`, made at
nondecreasing times, lead from an empty map to `map`. -/
inductive RateRun (permitted : RateMap → RateCall → Instant → Prop) :
    List RateEvent → RateMap → Prop where
  | start : RateRun permitted [] []
  | call {log : List RateEvent} {map : RateMap} (call : RateCall)
      (now : Instant) (run : RateRun permitted log map)
      (onward : ∀ event ∈ log, event.instant ≤ now)
      (allowed : permitted map call now) :
      RateRun permitted (log ++ [⟨call, now, (call.exec now map).1⟩])
        (call.exec now map).2

/-- Every call is permitted. -/
def anyCall : RateMap → RateCall → Instant → Prop := fun _ _ _ => True

/-- No cleanup drops the entry of the bucket and the address while it has hits
within `window`. -/
def sparing (bucket ip : String) (window : Duration) :
    RateMap → RateCall → Instant → Prop :=
  fun map call now => ¬ call.forgets now map (RateMap.key bucket ip) window

/-- The instant of a granted `allow` call for the bucket and the address. -/
def RateEvent.granted (bucket ip : String) (event : RateEvent) :
    Option Instant :=
  match event.call with
  | .allow bucket' ip' _ _ =>
      if bucket' = bucket ∧ ip' = ip ∧ event.answer = true then
        some event.instant
      else none
  | _ => none

/-- The instants of the granted calls for the bucket and the address. -/
def granted (bucket ip : String) (log : List RateEvent) : List Instant :=
  log.filterMap (RateEvent.granted bucket ip)

/-- Bucket names are free of colons, and the bucket is used by `allow` only,
always with the same bound and window. -/
structure Uniform (log : List RateEvent) (bucket : String) (max : Nat)
    (window : Duration) : Prop where
  plainBucket : ':' ∉ bucket.toList
  plain : ∀ event ∈ log, ':' ∉ event.call.bucket.toList
  uniform : ∀ event ∈ log, event.call.bucket = bucket →
    ∃ ip, event.call = .allow bucket ip max window

section Windows

variable {permitted : RateMap → RateCall → Instant → Prop}
  {log : List RateEvent} {map : RateMap} {bucket ip : String} {max : Nat}
  {window : Duration}

theorem RateRun.mono {stricter : RateMap → RateCall → Instant → Prop}
    (weaker : ∀ map call now, stricter map call now → permitted map call now)
    (run : RateRun stricter log map) : RateRun permitted log map := by
  induction run with
  | start => exact .start
  | call call now run onward allowed induction =>
      exact .call call now induction onward (weaker _ _ _ allowed)

theorem RateRun.keyed (run : RateRun permitted log map) : map.Keyed := by
  induction run with
  | start => exact List.nodup_nil
  | call call now run onward allowed induction =>
      exact call.exec_keyed induction

theorem granted_instant {instant : Instant}
    (member : instant ∈ granted bucket ip log) :
    ∃ event ∈ log, event.instant = instant := by
  obtain ⟨event, eventMember, isGranted⟩ := List.mem_filterMap.mp member
  unfold RateEvent.granted at isGranted
  split at isGranted
  · split at isGranted
    · exact ⟨event, eventMember, Option.some.inj isGranted⟩
    · cases isGranted
  · cases isGranted

theorem granted_append (log new : List RateEvent) :
    granted bucket ip (log ++ new) =
      granted bucket ip log ++ granted bucket ip new :=
  List.filterMap_append

theorem granted_snoc (log : List RateEvent) (event : RateEvent) :
    granted bucket ip (log ++ [event]) =
      granted bucket ip log ++ (event.granted bucket ip).toList := by
  rw [granted_append]
  cases isGranted : event.granted bucket ip with
  | none => simp [granted, isGranted]
  | some instant => simp [granted, isGranted]

namespace Uniform

variable {event : RateEvent}

theorem init (uniform : Uniform (log ++ [event]) bucket max window) :
    Uniform log bucket max window where
  plainBucket := uniform.plainBucket
  plain event member := uniform.plain event (List.mem_append_left _ member)
  uniform event member := uniform.uniform event (List.mem_append_left _ member)

theorem last_cases (uniform : Uniform (log ++ [event]) bucket max window)
    (ip : String) :
    (RateMap.key bucket ip ≠ event.call.key ∧
      event.granted bucket ip = none) ∨
    event.call = .allow bucket ip max window := by
  have member : event ∈ log ++ [event] :=
    List.mem_append_right _ List.mem_cons_self
  have plain := uniform.plain event member
  have isUniform := uniform.uniform event member
  have fromKey : ∀ {bucket' ip' : String}, event.call.bucket = bucket' →
      RateMap.key bucket ip = RateMap.key bucket' ip' →
        bucket' = bucket ∧ ip' = ip := by
    intro bucket' ip' isBucket sameKey
    rw [isBucket] at plain
    obtain ⟨rfl, rfl⟩ := RateMap.key_inj uniform.plainBucket plain sameKey
    exact ⟨rfl, rfl⟩
  obtain ⟨call, instant, answer⟩ := event
  cases call with
  | allow bucket' ip' max' window' =>
      by_cases same : bucket' = bucket ∧ ip' = ip
      · obtain ⟨rfl, rfl⟩ := same
        obtain ⟨_, isCall⟩ := isUniform rfl
        cases isCall
        exact .inr rfl
      · refine .inl ⟨fun sameKey => same (fromKey rfl sameKey), ?_⟩
        exact if_neg fun own => same ⟨own.1, own.2.1⟩
  | cooldownActive bucket' key' window' =>
      refine .inl ⟨fun sameKey => ?_, rfl⟩
      obtain ⟨_, isCall⟩ := isUniform (fromKey rfl sameKey).1
      cases isCall
  | recordOp bucket' key' =>
      refine .inl ⟨fun sameKey => ?_, rfl⟩
      obtain ⟨_, isCall⟩ := isUniform (fromKey rfl sameKey).1
      cases isCall

end Uniform

theorem granted_own (instant : Instant) (map : RateMap) :
    RateEvent.granted bucket ip ⟨.allow bucket ip max window, instant,
        ((RateCall.allow bucket ip max window).exec instant map).1⟩ =
      if map.grants bucket ip max window instant then some instant
      else none := by
  simp only [RateEvent.granted, RateCall.exec, RateMap.allow_fst, true_and,
    decide_eq_true_iff]

/-- The stored hits of the bucket and the address were granted. -/
theorem RateRun.stored (run : RateRun permitted log map)
    (uniform : Uniform log bucket max window) (ip : String) :
    (map.hits (RateMap.key bucket ip)).Sublist (granted bucket ip log) := by
  induction run with
  | start => exact List.nil_sublist _
  | @call log map call now run onward allowed induction =>
      have before := induction uniform.init
      rw [granted_snoc]
      rcases uniform.last_cases ip with ⟨different, ungranted⟩ | own
      · rw [ungranted, Option.toList_none, List.append_nil]
        exact (RateCall.exec_other_sublist run.keyed different).trans before
      · dsimp only at own
        subst own
        rw [granted_own]
        refine (RateMap.allow_hits_own_sublist run.keyed).trans ?_
        split
        · exact before.append (List.Sublist.refl _)
        · exact before.append (List.Sublist.refl _)

/-- As long as the entry is spared, every granted call is remembered while its
window lasts. -/
theorem RateRun.remembered {later : Instant}
    (run : RateRun (sparing bucket ip window) log map)
    (uniform : Uniform log bucket max window)
    (onward : ∀ event ∈ log, event.instant ≤ later) :
    recent window later (map.hits (RateMap.key bucket ip)) =
      recent window later (granted bucket ip log) := by
  induction run generalizing later with
  | start => rfl
  | @call log map call now run past spared induction =>
      have now_le := onward _ (List.mem_append_right _ List.mem_cons_self)
      have before := induction uniform.init
        fun event member => onward event (List.mem_append_left _ member)
      rw [granted_snoc, recent_append, ← before]
      rcases uniform.last_cases ip with ⟨different, ungranted⟩ | own
      · rw [ungranted, Option.toList_none, recent_nil, List.append_nil]
        exact RateCall.exec_other_recent run.keyed different spared now_le
      · dsimp only at own
        subst own
        rw [granted_own]
        refine (RateMap.allow_recent_self run.keyed now_le).trans ?_
        split <;> rfl

theorem RateRun.refused (run : RateRun permitted log map)
    (uniform : Uniform log bucket max window) {before after : List RateEvent}
    {instant : Instant} (parts : log = before ++
      ⟨.allow bucket ip max window, instant, false⟩ :: after) :
    max ≤ (recent window instant (granted bucket ip before)).length := by
  induction run generalizing after with
  | start => simp at parts
  | @call log map call now run past allowed induction =>
      rcases List.eq_nil_or_concat after with rfl | ⟨middle, last, rfl⟩
      · obtain ⟨rfl, same⟩ := List.append_inj' parts rfl
        rw [List.cons.injEq, RateEvent.mk.injEq] at same
        obtain ⟨⟨rfl, rfl, refused⟩, -⟩ := same
        have full : ¬ map.grants bucket ip max window now := by
          rw [RateCall.exec, RateMap.allow_fst] at refused
          exact of_decide_eq_false refused
        have counted := ((run.stored uniform.init ip).filter fun time =>
          decide (now - time < window)).length_le
        exact Nat.le_trans (Nat.le_of_not_lt full) counted
      · rw [List.concat_eq_append, ← List.cons_append, ← List.append_assoc]
          at parts
        exact induction uniform.init (List.append_inj' parts rfl).1

theorem RateRun.bounded (run : RateRun (sparing bucket ip window) log map)
    (uniform : Uniform log bucket max window) (start : Instant) :
    (during window start (granted bucket ip log)).length ≤ max := by
  induction run generalizing start with
  | start => exact Nat.zero_le _
  | @call log map call now run past spared induction =>
      have before := induction uniform.init
      rw [granted_snoc]
      rcases uniform.last_cases ip with ⟨different, ungranted⟩ | own
      · rw [ungranted, Option.toList_none, List.append_nil]
        exact before start
      · dsimp only at own
        subst own
        rw [granted_own]
        split
        · rename_i room
          refine length_during_snoc before ?_ ?_ start
          · intro time member
            obtain ⟨event, eventMember, rfl⟩ := granted_instant member
            exact past event eventMember
          · rw [← run.remembered uniform.init past]
            exact room
        · rw [Option.toList_none, List.append_nil]
          exact before start

end Windows

/-- Every half-open interval of one window has at most `max` granted calls as
long as no cleanup drops an entry that is still needed.  A refused call always
comes after `max` granted ones within the window. -/
theorem allow_windows {log : List RateEvent} {map : RateMap} {bucket : String}
    {max : Nat} {window : Duration} (run : RateRun anyCall log map)
    (uniform : Uniform log bucket max window) (ip : String) :
    (RateRun (sparing bucket ip window) log map → ∀ start,
      (during window start (granted bucket ip log)).length ≤ max) ∧
    ∀ before after instant,
      log = before ++ ⟨.allow bucket ip max window, instant, false⟩ :: after →
        max ≤ (recent window instant (granted bucket ip before)).length :=
  ⟨fun spared start => spared.bounded uniform start,
    fun _ _ _ parts => run.refused uniform parts⟩

/-! ## Flooding the map -/

/-- One call each from the addresses below `count`, all granted. -/
def floodEvents (bucket : String) (max : Nat) (window : Duration)
    (now : Instant) (count : Nat) : List RateEvent :=
  (List.range count).map fun n =>
    ⟨.allow bucket (toString n) max window, now, true⟩

section Flood

variable {log : List RateEvent} {base : RateMap} {bucket : String}
  {now : Instant} {max : Nat} {window : Duration}

theorem floodEvents_succ (count : Nat) :
    floodEvents bucket max window now (count + 1) =
      floodEvents bucket max window now count ++
        [⟨.allow bucket (toString count) max window, now, true⟩] := by
  simp [floodEvents, List.range_succ]

theorem floodEvents_instant {count : Nat} {event : RateEvent}
    (member : event ∈ floodEvents bucket max window now count) :
    event.instant = now := by
  obtain ⟨n, -, rfl⟩ := List.mem_map.mp member
  rfl

theorem granted_floodEvents {bucket' ip : String} {count : Nat}
    (different : bucket ≠ bucket') :
    granted bucket' ip (floodEvents bucket max window now count) = [] := by
  refine List.filterMap_eq_nil_iff.mpr fun event member => ?_
  obtain ⟨n, -, rfl⟩ := List.mem_map.mp member
  exact if_neg fun own => different own.1

theorem RateRun.flood (run : RateRun anyCall log base)
    (past : ∀ event ∈ log, event.instant ≤ now) (plain : ':' ∉ bucket.toList)
    (unflooded : base.Unflooded bucket) (room : 0 < max) {count : Nat}
    (small : base.length + count ≤ 50000) :
    RateRun anyCall (log ++ floodEvents bucket max window now count)
      (base.flooded bucket now count) := by
  induction count with
  | zero => simpa [floodEvents, RateMap.flooded] using run
  | succ count induction =>
      have before := induction (Nat.le_of_succ_le small)
      have onward : ∀ event ∈ log ++ floodEvents bucket max window now count,
          event.instant ≤ now := by
        intro event member
        rcases List.mem_append.mp member with old | flood
        · exact past event old
        · exact Nat.le_of_eq (floodEvents_instant flood)
      have next := before.call (.allow bucket (toString count) max window) now
        onward trivial
      rw [RateCall.exec, RateMap.allow_flooded plain unflooded room small]
        at next
      rw [floodEvents_succ, ← List.append_assoc]
      exact next

end Flood

section Schedules

/-- One registration from an address in ten minutes. -/
def registrationCall : RateCall :=
  .allow "reg" "10.0.0.1" 1 (.fromSecs 600)

/-- The map after the first registration. -/
def registeredOnce : RateMap :=
  [(RateMap.key "reg" "10.0.0.1", [0])]

theorem registrationCall_first :
    registrationCall.exec 0 [] = (true, registeredOnce) := by
  decide +kernel

theorem registeredOnce_run :
    RateRun (sparing "reg" "10.0.0.1" (.fromSecs 600))
      [⟨registrationCall, 0, true⟩] registeredOnce := by
  have cleaned : ¬ RateMap.cleans [] "reg" "10.0.0.1" 1 (.fromSecs 600) 0 := by
    decide +kernel
  have spared : sparing "reg" "10.0.0.1" (.fromSecs 600) [] registrationCall
      0 := fun forgets => cleaned forgets.1
  have first := RateRun.start.call registrationCall 0 nofun spared
  rw [registrationCall_first] at first
  exact first

/-- Another registration from the same address is refused. -/
def twoRegistrations : List RateEvent :=
  [⟨registrationCall, 0, true⟩] ++
    [⟨registrationCall, Duration.fromSecs 30, false⟩]

theorem twoRegistrations_run : ∃ map,
    RateRun (sparing "reg" "10.0.0.1" (.fromSecs 600)) twoRegistrations map := by
  have cleaned : ¬ RateMap.cleans registeredOnce "reg" "10.0.0.1" 1
      (.fromSecs 600) (Duration.fromSecs 30) := by
    decide +kernel
  have spared : sparing "reg" "10.0.0.1" (.fromSecs 600) registeredOnce
      registrationCall (Duration.fromSecs 30) := fun forgets => cleaned forgets.1
  have second := registeredOnce_run.call registrationCall
    (Duration.fromSecs 30) (by simp) spared
  have refused : (registrationCall.exec (Duration.fromSecs 30)
      registeredOnce).1 = false := by
    decide +kernel
  rw [refused] at second
  exact ⟨_, second⟩

theorem registrationCall_uniform {log : List RateEvent}
    (calls : ∀ event ∈ log, event.call = registrationCall ∨
      event.call.bucket = "read") : Uniform log "reg" 1 (.fromSecs 600) where
  plainBucket := by decide
  plain event member := by
    rcases calls event member with own | read
    · rw [own]
      decide
    · rw [read]
      decide
  uniform event member isReg := by
    rcases calls event member with own | read
    · exact ⟨_, own⟩
    · rw [read] at isReg
      exact absurd isReg (by decide)

theorem allow_windows_twice : ∃ map, RateRun anyCall twoRegistrations map ∧
    (during (Duration.fromSecs 600) 0
      (granted "reg" "10.0.0.1" twoRegistrations)).length ≤ 1 ∧
    1 ≤ (recent (Duration.fromSecs 600) (Duration.fromSecs 30)
      (granted "reg" "10.0.0.1" [⟨registrationCall, 0, true⟩])).length := by
  obtain ⟨map, spared⟩ := twoRegistrations_run
  have run : RateRun anyCall twoRegistrations map :=
    spared.mono fun _ _ _ _ => trivial
  have uniform : Uniform twoRegistrations "reg" 1 (.fromSecs 600) :=
    registrationCall_uniform (by simp [twoRegistrations])
  have windows := allow_windows run uniform "10.0.0.1"
  exact ⟨map, run, windows.1 spared 0, windows.2 _ [] _ rfl⟩

/-- A registration, and reads from as many addresses as the map can hold. -/
def floodedLog : List RateEvent :=
  [⟨registrationCall, 0, true⟩] ++
    floodEvents "read" 30 (.fromSecs 60) 0 49999

theorem floodedLog_instant : ∀ event ∈ floodedLog, event.instant = 0 := by
  intro event member
  rcases List.mem_append.mp member with old | flood
  · rw [List.mem_singleton.mp old]
  · exact floodEvents_instant flood

theorem registeredOnce_unflooded : registeredOnce.Unflooded "read" := by
  intro n
  rw [registeredOnce, List.lookup_eq_none_iff]
  intro entry member
  rw [List.mem_singleton.mp member, bne_iff_ne]
  intro same
  exact absurd (RateMap.key_inj (by decide) (by decide) same).1 (by decide)

theorem floodedLog_run : RateRun anyCall floodedLog
    (registeredOnce.flooded "read" 0 49999) :=
  RateRun.flood (registeredOnce_run.mono fun _ _ _ _ => trivial) (by simp)
    (by decide) registeredOnce_unflooded (by decide) (by decide)

/-- A minute later one more address reads. -/
def lastRead : RateCall := .allow "read" (toString 49999) 30 (.fromSecs 60)

/-- That read makes the server forget the registration. -/
theorem lastRead_forgets :
    lastRead.exec (Duration.fromSecs 61)
        (registeredOnce.flooded "read" 0 49999) =
      (true, [(RateMap.key "read" (toString 49999), [Duration.fromSecs 61])]) := by
  have full : 50000 ≤ (registeredOnce.flooded "read" 0 49999).length := by
    rw [RateMap.flooded_length]
    decide
  have stale : ∀ entry ∈ registeredOnce.flooded "read" 0 49999,
      recent (Duration.fromSecs 60) (Duration.fromSecs 61) entry.2 = [] :=
    RateMap.flooded_stale (by decide +kernel) (by decide)
  have absent : (registeredOnce.flooded "read" 0 49999).lookup
      (RateMap.key "read" (toString 49999)) = none :=
    RateMap.flooded_lookup (by decide) registeredOnce_unflooded
  rw [lastRead, RateCall.exec]
  exact RateMap.allow_stale absent (by decide) full stale (by decide)

/-- After that, a second registration from the same address is granted within
the ten minutes. -/
theorem allow_exceeds_max : ∃ log map, RateRun anyCall log map ∧
    Uniform log "reg" 1 (.fromSecs 600) ∧
    (during (Duration.fromSecs 600) 0
      (granted "reg" "10.0.0.1" log)).length = 2 := by
  have read := floodedLog_run.call lastRead (Duration.fromSecs 61)
    (fun event member => by
      rw [floodedLog_instant event member]
      exact Nat.zero_le _) trivial
  rw [lastRead_forgets] at read
  have next := read.call registrationCall (Duration.fromSecs 61)
    (fun event member => by
      rcases List.mem_append.mp member with early | last
      · rw [floodedLog_instant event early]
        exact Nat.zero_le _
      · exact Nat.le_of_eq (by rw [List.mem_singleton.mp last])) trivial
  have forgotten : (registrationCall.exec (Duration.fromSecs 61)
      [(RateMap.key "read" (toString 49999), [Duration.fromSecs 61])]).1 =
        true := by
    decide +kernel
  rw [forgotten] at next
  refine ⟨_, _, next, registrationCall_uniform ?_, ?_⟩
  · intro event member
    rcases List.mem_append.mp member with earlier | last
    · rcases List.mem_append.mp earlier with early | read
      · rcases List.mem_append.mp early with first | flood
        · rw [List.mem_singleton.mp first]
          exact .inl rfl
        · obtain ⟨n, -, rfl⟩ := List.mem_map.mp flood
          exact .inr rfl
      · rw [List.mem_singleton.mp read]
        exact .inr rfl
    · rw [List.mem_singleton.mp last]
      exact .inl rfl
  · rw [granted_append, granted_append, floodedLog, granted_append,
      granted_floodEvents (by decide)]
    decide +kernel

end Schedules

end Floonet
