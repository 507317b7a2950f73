import Floonet.RateLimit
import Floonet.Temporal.SlidingWindow

/-!
# What the shared rate map remembers

The instants stored under one key, after each operation on the map.  The
global cleanup inside `allow` can drop a key that another window still needs;
apart from that, the recent instants under a key change by its own calls only.
-/

namespace Floonet

open SlidingWindow

namespace RateMap

/-- The entry of a bucket and an address. -/
def key (bucket ip : String) : String := s!"{bucket}:{ip}"

theorem key_toList (bucket ip : String) :
    (key bucket ip).toList = bucket.toList ++ ':' :: ip.toList := by
  simp [key, toString]

theorem key_inj {bucket bucket' ip ip' : String}
    (plain : ':' ∉ bucket.toList) (plain' : ':' ∉ bucket'.toList)
    (same : key bucket ip = key bucket' ip') : bucket = bucket' ∧ ip = ip' := by
  have letters := congrArg String.toList same
  rw [key_toList, key_toList] at letters
  rcases List.append_eq_append_iff.mp letters with
    ⟨middle, isBucket, rest⟩ | ⟨middle, isBucket, rest⟩
  · cases middle with
    | nil =>
        rw [List.append_nil] at isBucket
        exact ⟨(String.toList_inj.mp isBucket).symm,
          String.toList_inj.mp (List.cons.inj rest).2⟩
    | cons head middle =>
        rw [isBucket] at plain'
        have isColon := (List.cons.inj rest).1
        exact absurd (List.mem_append_right _ (isColon ▸ List.mem_cons_self))
          plain'
  · cases middle with
    | nil =>
        rw [List.append_nil] at isBucket
        exact ⟨String.toList_inj.mp isBucket,
          (String.toList_inj.mp (List.cons.inj rest).2).symm⟩
    | cons head middle =>
        rw [isBucket] at plain
        have isColon := (List.cons.inj rest).1
        exact absurd (List.mem_append_right _ (isColon ▸ List.mem_cons_self))
          plain

/-! ## Entries -/

/-- Every key has one entry. -/
def Keyed (map : RateMap) : Prop := (map.map Prod.fst).Nodup

/-- The instants stored under a key. -/
def hits (map : RateMap) (key : String) : List Instant :=
  (map.lookup key).getD []

theorem lookup_replaced (map : RateMap) (key other : String)
    (new : List Instant) :
    (map.map fun entry => if entry.1 = key then (key, new) else entry).lookup
      other = if other = key then (map.lookup key).map fun _ => new
        else map.lookup other := by
  induction map with
  | nil => simp
  | cons entry map induction =>
      obtain ⟨stored, times⟩ := entry
      rw [List.map_cons]
      by_cases isKey : stored = key
      · subst isKey
        by_cases same : other = stored
        · subst same
          simp
        · rw [if_neg same] at induction ⊢
          rw [if_pos rfl, List.lookup_cons, List.lookup_cons,
            beq_false_of_ne same]
          exact induction
      · rw [if_neg isKey, List.lookup_cons, List.lookup_cons,
          List.lookup_cons]
        by_cases same : other = stored
        · subst same
          simp [isKey]
        · rw [beq_false_of_ne same, beq_false_of_ne (Ne.symm isKey)]
          exact induction

theorem lookup_set (map : RateMap) (key other : String) (new : List Instant) :
    (map.set key new).lookup other =
      if other = key then some new else map.lookup other := by
  unfold set
  split
  · rename_i stored
    obtain ⟨old, found⟩ := Option.isSome_iff_exists.mp stored
    rw [lookup_replaced, found]
    rfl
  · rename_i absent
    rw [Option.not_isSome_iff_eq_none] at absent
    rw [List.lookup_append]
    by_cases same : other = key
    · rw [if_pos same, same, absent]
      simp
    · simp [List.lookup_cons, beq_false_of_ne same, same]

theorem hits_set (map : RateMap) (key other : String) (new : List Instant) :
    (map.set key new).hits other =
      if other = key then new else map.hits other := by
  unfold hits
  rw [lookup_set]
  split <;> rfl

theorem set_keys (map : RateMap) (key : String) (new : List Instant) :
    (map.set key new).map Prod.fst = map.map Prod.fst ++
      if (map.lookup key).isSome then [] else [key] := by
  unfold set
  split
  · rw [List.map_map, List.append_nil]
    refine List.map_congr_left fun entry _ => ?_
    by_cases same : entry.1 = key
    · simp [same]
    · simp [same]
  · simp

theorem Keyed.set {map : RateMap} (keyed : map.Keyed) (key : String)
    (new : List Instant) : (map.set key new).Keyed := by
  unfold Keyed
  rw [set_keys]
  split
  · rw [List.append_nil]
    exact keyed
  · rename_i absent
    rw [Option.not_isSome_iff_eq_none, List.lookup_eq_none_iff] at absent
    refine List.nodup_append.mpr ⟨keyed, by simp, ?_⟩
    intro stored member other isKey
    obtain ⟨entry, entryMember, rfl⟩ := List.mem_map.mp member
    rw [List.mem_singleton.mp isKey]
    exact fun same => by simpa [same] using absent entry entryMember

theorem Keyed.filter {map : RateMap} (keyed : map.Keyed)
    (keep : String × List Instant → Bool) :
    RateMap.Keyed (List.filter keep map) :=
  List.Nodup.sublist (List.filter_sublist.map Prod.fst) keyed

theorem Keyed.lookup_filter {map : RateMap} (keyed : map.Keyed)
    (keep : List Instant → Bool) (key : String) :
    (map.filter fun entry => keep entry.2).lookup key =
      (map.lookup key).filter keep := by
  induction map with
  | nil => rfl
  | cons entry map induction =>
      obtain ⟨stored, times⟩ := entry
      obtain ⟨absent, keyedRest⟩ := List.nodup_cons.mp keyed
      have rest := induction keyedRest
      rw [List.lookup_cons]
      by_cases same : key = stored
      · subst same
        have gone : List.lookup key map = none := by
          rw [List.lookup_eq_none_iff]
          intro entry member
          rw [bne_iff_ne]
          intro same
          exact absent (List.mem_map.mpr ⟨entry, member, same.symm⟩)
        rw [gone] at rest
        by_cases kept : keep times = true
        · simp [kept, Option.filter_some]
        · simp [kept, rest, Option.filter_some]
      · rw [beq_false_of_ne same]
        by_cases kept : keep times = true
        · simp [kept, List.lookup_cons, beq_false_of_ne same, rest]
        · simp [kept, rest]

theorem hits_filter {map : RateMap} (keyed : map.Keyed)
    (keep : List Instant → Bool) (key : String) :
    RateMap.hits (map.filter fun entry => keep entry.2) key =
      if keep (map.hits key) then map.hits key else [] := by
  unfold hits
  rw [keyed.lookup_filter]
  cases map.lookup key with
  | none => simp
  | some times =>
      rw [Option.filter_some]
      cases kept : keep times <;> simp [kept]

/-! ## Operations -/

variable {map : RateMap} {now : Instant}

theorem any_recent (window : Duration) (now : Instant)
    (times : List Instant) :
    (times.any fun time => decide (now - time < window)) =
      decide (recent window now times ≠ []) := by
  rw [Bool.eq_iff_iff, List.any_eq_true, decide_eq_true_iff, Ne,
    recent_eq_nil]
  simp

section Allow

variable (map) (bucket ip : String) (max : Nat) (window : Duration)
  (now : Instant)

/-- The call is granted. -/
def grants : Prop :=
  (recent window now (map.hits (key bucket ip))).length < max

/-- The call is granted and cleans the map up. -/
def cleans : Prop :=
  map.grants bucket ip max window now ∧
    50000 < (map.set (key bucket ip) []).length

instance : Decidable (map.grants bucket ip max window now) :=
  inferInstanceAs (Decidable (_ < _))

instance : Decidable (map.cleans bucket ip max window now) :=
  inferInstanceAs (Decidable (_ ∧ _))

/-- What the call keeps under its own key. -/
def granted : List Instant :=
  recent window now (map.hits (key bucket ip)) ++ [now]

theorem set_length (key : String) (new new' : List Instant) :
    (map.set key new).length = (map.set key new').length := by
  unfold set
  split <;> simp

theorem allow_eq : map.allow bucket ip max window now =
    if map.grants bucket ip max window now then
      (true, if map.cleans bucket ip max window now then
          List.filter (fun entry => decide (recent window now entry.2 ≠ []))
            (map.set (key bucket ip) (map.granted bucket ip window now))
        else map.set (key bucket ip) (map.granted bucket ip window now))
    else (false, map.set (key bucket ip)
      (recent window now (map.hits (key bucket ip)))) := by
  have sameLength := map.set_length (key bucket ip)
    (map.granted bucket ip window now) []
  by_cases room : map.grants bucket ip max window now
  · have notFull := Nat.not_le.mpr room
    rw [if_pos room]
    refine (if_neg notFull).trans (congrArg (Prod.mk true) ?_)
    simp only [cleans, room, true_and, ← sameLength, ← any_recent]
    rfl
  · rw [if_neg room]
    exact if_pos (Nat.le_of_not_lt room)

theorem allow_fst : (map.allow bucket ip max window now).1 =
    decide (map.grants bucket ip max window now) := by
  rw [allow_eq]
  split
  · rename_i room
    exact (decide_eq_true room).symm
  · rename_i full
    exact (decide_eq_false full).symm

end Allow

section Hits

variable {bucket ip : String} {max : Nat} {window : Duration}
  {now : Instant}

theorem Keyed.allow (keyed : map.Keyed) :
    (map.allow bucket ip max window now).2.Keyed := by
  rw [allow_eq]
  split
  · dsimp only
    split
    · exact (keyed.set _ _).filter _
    · exact keyed.set _ _
  · exact keyed.set _ _

theorem Keyed.cooldownActive {key : String} (keyed : map.Keyed) :
    (map.cooldownActive bucket key window now).2.Keyed := by
  unfold RateMap.cooldownActive
  dsimp only
  split
  · exact keyed
  · exact keyed.set _ _

theorem Keyed.recordOp {key : String} (keyed : map.Keyed) :
    (map.recordOp bucket key now).Keyed :=
  keyed.set _ _

/-- The cleanup of this call drops `other` while it has hits within `wide`. -/
def forgets (map : RateMap) (bucket ip : String) (max : Nat)
    (window : Duration) (now : Instant) (other : String) (wide : Duration) :
    Prop :=
  map.cleans bucket ip max window now ∧ recent wide now (map.hits other) ≠ [] ∧
    recent window now (map.hits other) = []

/-- A cleanup that forgets nothing recent leaves the other keys alone. -/
theorem allow_recent_other (keyed : map.Keyed) {other : String}
    (different : other ≠ key bucket ip) {wide : Duration}
    (spared : ¬ map.forgets bucket ip max window now other wide)
    {later : Instant} (onward : now ≤ later) :
    recent wide later ((map.allow bucket ip max window now).2.hits other) =
      recent wide later (map.hits other) := by
  rw [allow_eq]
  split
  · dsimp only
    split
    · rename_i cleaned
      rw [hits_filter (keyed.set _ _) (fun times =>
        decide (recent window now times ≠ [])), hits_set, if_neg different]
      split
      · rfl
      · rename_i dropped
        rw [decide_eq_true_iff, Classical.not_not] at dropped
        have none : recent wide now (map.hits other) = [] :=
          Classical.byContradiction fun some => spared ⟨cleaned, some, dropped⟩
        rw [recent_eq_nil_mono (Nat.le_refl _) onward none, recent_nil]
    · rw [hits_set, if_neg different]
  · rw [hits_set, if_neg different]

/-- A call keeps the recent hits under its own key, and adds itself when it
is granted. -/
theorem allow_recent_self (keyed : map.Keyed) {later : Instant}
    (onward : now ≤ later) :
    recent window later
        ((map.allow bucket ip max window now).2.hits (key bucket ip)) =
      recent window later (map.hits (key bucket ip)) ++
        recent window later
          (if map.grants bucket ip max window now then [now] else []) := by
  rw [allow_eq]
  split
  · have kept : recent window later (map.granted bucket ip window now) =
        recent window later (map.hits (key bucket ip)) ++
          recent window later [now] := by
      rw [granted, recent_append, recent_recent (Nat.le_refl _) onward]
    dsimp only
    split
    · rw [hits_filter (keyed.set _ _) (fun times =>
        decide (recent window now times ≠ [])), hits_set, if_pos rfl]
      split
      · exact kept
      · rename_i dropped
        rw [decide_eq_true_iff, Classical.not_not] at dropped
        rw [← kept, recent_eq_nil_mono (Nat.le_refl _) onward dropped,
          recent_nil]
    · rw [hits_set, if_pos rfl]
      exact kept
  · rw [hits_set, if_pos rfl, recent_recent (Nat.le_refl _) onward, recent_nil,
      List.append_nil]

/-- A call adds no other hit than its own. -/
theorem Keyed.allow_hits_sublist (keyed : map.Keyed) (other : String) :
    ((map.allow bucket ip max window now).2.hits other).Sublist
      (map.hits other ++ if other = key bucket ip ∧
        map.grants bucket ip max window now then [now] else []) := by
  have pushed : map.grants bucket ip max window now →
      ((map.set (key bucket ip) (map.granted bucket ip window now)).hits
        other).Sublist (map.hits other ++ if other = key bucket ip ∧
          map.grants bucket ip max window now then [now] else []) := by
    intro room
    rw [hits_set]
    split
    · rename_i same
      rw [if_pos ⟨same, room⟩, same]
      exact recent_sublist.append (List.Sublist.refl _)
    · exact List.sublist_append_left _ _
  rw [allow_eq]
  split
  · rename_i room
    dsimp only
    split
    · rw [hits_filter (keyed.set _ _) (fun times =>
        decide (recent window now times ≠ []))]
      split
      · exact pushed room
      · exact List.nil_sublist _
    · exact pushed room
  · rw [hits_set]
    split
    · rename_i same
      rw [same]
      exact recent_sublist.trans (List.sublist_append_left _ _)
    · exact List.sublist_append_left _ _

theorem allow_hits_own_sublist (keyed : map.Keyed) :
    ((map.allow bucket ip max window now).2.hits (key bucket ip)).Sublist
      (map.hits (key bucket ip) ++
        if map.grants bucket ip max window now then [now] else []) := by
  have kept : List.Sublist ((map.allow bucket ip max window now).2.hits
      (key bucket ip)) _ := keyed.allow_hits_sublist (key bucket ip)
  split
  · rename_i room
    rw [if_pos ⟨rfl, room⟩] at kept
    exact kept
  · rename_i full
    rw [if_neg fun room => full room.2] at kept
    exact kept

theorem allow_hits_other_sublist (keyed : map.Keyed) {other : String}
    (different : other ≠ key bucket ip) :
    ((map.allow bucket ip max window now).2.hits other).Sublist
      (map.hits other) := by
  have kept : List.Sublist
      ((map.allow bucket ip max window now).2.hits other) _ :=
    keyed.allow_hits_sublist other
  rw [if_neg fun same => different same.1, List.append_nil] at kept
  exact kept

theorem cooldownActive_fst (map : RateMap) (bucket key : String)
    (window : Duration) (now : Instant) :
    (map.cooldownActive bucket key window now).1 =
      decide (recent window now (map.hits (RateMap.key bucket key)) ≠ []) := by
  unfold cooldownActive hits RateMap.key
  dsimp only
  split
  · rename_i absent
    simp [absent]
  · rename_i times found
    rw [found, Option.getD_some, Bool.eq_iff_iff, Bool.not_eq_true',
      List.isEmpty_eq_false_iff, decide_eq_true_iff]
    rfl

theorem cooldownActive_recent {key' other : String} {wide : Duration}
    (narrower : other = key bucket key' → wide ≤ window) {later : Instant}
    (onward : now ≤ later) :
    recent wide later ((map.cooldownActive bucket key' window now).2.hits
      other) = recent wide later (map.hits other) := by
  unfold cooldownActive
  dsimp only
  split
  · rfl
  · rename_i times found
    rw [hits_set]
    split
    · rename_i same
      have sameHits : map.hits other = times := by
        rw [same, hits, found, Option.getD_some]
      rw [sameHits]
      exact recent_recent (narrower same) onward
    · rfl

theorem cooldownActive_hits_other {key' other : String}
    (different : other ≠ key bucket key') :
    (map.cooldownActive bucket key' window now).2.hits other =
      map.hits other := by
  unfold cooldownActive
  dsimp only
  split
  · rfl
  · rw [hits_set]
    exact if_neg different

theorem recordOp_hits (map : RateMap) (bucket key' other : String)
    (now : Instant) :
    (map.recordOp bucket key' now).hits other =
      map.hits other ++ if other = key bucket key' then [now] else [] := by
  by_cases same : other = key bucket key'
  · rw [if_pos same, same]
    exact (hits_set ..).trans (if_pos rfl)
  · rw [if_neg same, List.append_nil]
    exact (hits_set ..).trans (if_neg same)

theorem recordOp_hits_other {key' other : String}
    (different : other ≠ key bucket key') :
    (map.recordOp bucket key' now).hits other = map.hits other := by
  rw [recordOp_hits, if_neg different, List.append_nil]

end Hits

end RateMap

end Floonet
