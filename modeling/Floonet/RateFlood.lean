import Floonet.RateHits

/-!
# Filling the rate map

Calls from new addresses fill the map.  The first call beyond fifty thousand
keys drops everything that its own window does not need.
-/

namespace Floonet

open SlidingWindow

theorem toString_nat_inj {left right : Nat}
    (same : toString left = toString right) : left = right := by
  have digits := congrArg
    (fun text : String => Nat.ofDigitChars 10 text.toList 0) same
  simpa [toString, Nat.toList_repr, Nat.ofDigitChars_ten_toDigits] using digits

namespace RateMap

/-- The map after one granted call each from the addresses below `count`. -/
def flooded (base : RateMap) (bucket : String) (now : Instant) (count : Nat) :
    RateMap :=
  base ++ (List.range count).map fun n => (key bucket (toString n), [now])

/-- No entry of the map belongs to a numbered address. -/
def Unflooded (base : RateMap) (bucket : String) : Prop :=
  ∀ n : Nat, base.lookup (key bucket (toString n)) = none

variable {base : RateMap} {bucket : String} {now : Instant} {count max : Nat}
  {window : Duration}

theorem flooded_succ : flooded base bucket now (count + 1) =
    flooded base bucket now count ++ [(key bucket (toString count), [now])] := by
  simp [flooded, List.range_succ]

theorem flooded_length :
    (flooded base bucket now count).length = base.length + count := by
  simp [flooded]

theorem flooded_lookup (plain : ':' ∉ bucket.toList)
    (unflooded : base.Unflooded bucket) :
    (flooded base bucket now count).lookup (key bucket (toString count)) =
      none := by
  rw [flooded, List.lookup_append, unflooded count, Option.none_or,
    List.lookup_eq_none_iff]
  intro entry member
  obtain ⟨n, below, rfl⟩ := List.mem_map.mp member
  rw [bne_iff_ne]
  intro same
  have isCount := toString_nat_inj (key_inj plain plain same).2
  rw [isCount, List.mem_range] at below
  exact Nat.lt_irrefl n below

theorem flooded_stale {later : Instant}
    (stale : ∀ entry ∈ base, recent window later entry.2 = [])
    (old : window ≤ later - now) :
    ∀ entry ∈ flooded base bucket now count,
      recent window later entry.2 = [] := by
  intro entry member
  rcases List.mem_append.mp member with inBase | inFlood
  · exact stale entry inBase
  · obtain ⟨n, -, rfl⟩ := List.mem_map.mp inFlood
    refine recent_eq_nil.mpr fun time isNow => ?_
    rw [List.mem_singleton.mp isNow]
    exact Nat.not_lt.mpr old

section NewKey

variable {map : RateMap} {ip : String}

theorem set_absent (absent : map.lookup (key bucket ip) = none)
    (times : List Instant) :
    map.set (key bucket ip) times = map ++ [(key bucket ip, times)] := by
  rw [set, absent]
  rfl

theorem hits_absent (absent : map.lookup (key bucket ip) = none) :
    map.hits (key bucket ip) = [] := by
  rw [hits, absent, Option.getD_none]

theorem grants_absent (absent : map.lookup (key bucket ip) = none)
    (room : 0 < max) : map.grants bucket ip max window now := by
  rw [grants, hits_absent absent]
  exact room

theorem cleans_absent (absent : map.lookup (key bucket ip) = none)
    (room : 0 < max) :
    map.cleans bucket ip max window now ↔ 50000 ≤ map.length := by
  rw [cleans, set_absent absent, List.length_append]
  exact (and_iff_right (grants_absent absent room)).trans Nat.lt_succ_iff

theorem allow_absent (absent : map.lookup (key bucket ip) = none)
    (room : 0 < max) (small : map.length < 50000) :
    map.allow bucket ip max window now =
      (true, map ++ [(key bucket ip, [now])]) := by
  rw [allow_eq, if_pos (grants_absent absent room), if_neg, granted,
    hits_absent absent, set_absent absent]
  · rfl
  · rw [cleans_absent absent room]
    exact Nat.not_le.mpr small

/-- Beyond, it drops the entries without a hit in its window. -/
theorem allow_stale (absent : map.lookup (key bucket ip) = none)
    (room : 0 < max) (large : 50000 ≤ map.length)
    (stale : ∀ entry ∈ map, recent window now entry.2 = [])
    (wide : 0 < window) :
    map.allow bucket ip max window now = (true, [(key bucket ip, [now])]) := by
  have cleaned : map.cleans bucket ip max window now :=
    (cleans_absent absent room).mpr large
  rw [allow_eq, if_pos cleaned.1, if_pos cleaned, granted, hits_absent absent,
    set_absent absent, List.filter_append]
  have dropped : map.filter (fun entry =>
      decide (recent window now entry.2 ≠ [])) = [] := by
    rw [List.filter_eq_nil_iff]
    intro entry member
    simp [stale entry member]
  rw [dropped]
  simp [recent, wide]

end NewKey

/-- One more address of a flood. -/
theorem allow_flooded (plain : ':' ∉ bucket.toList)
    (unflooded : base.Unflooded bucket) (room : 0 < max)
    (small : base.length + count < 50000) :
    (flooded base bucket now count).allow bucket (toString count) max window
      now = (true, flooded base bucket now (count + 1)) := by
  rw [allow_absent (flooded_lookup plain unflooded) room, flooded_succ]
  rw [flooded_length]
  exact small

end RateMap

end Floonet
