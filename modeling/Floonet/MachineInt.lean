import Mathlib.Algebra.Group.Int.Defs
import Mathlib.Algebra.Group.Nat.Defs

/-!
# Sixty-four bit casts

Signed and unsigned 64-bit values are modelled by `Int` and `Nat`.  The casts
and the wrapping arithmetic of a release build are written out where the
source performs them.
-/

namespace MachineInt

/-- `value as i64` for an unsigned `value` below `2^64`. -/
def asI64 (value : Nat) : Int :=
  if value < 2 ^ 63 then value else (value : Int) - 2 ^ 64

/-- `value as u64` for a signed `value`. -/
def asU64 (value : Int) : Nat :=
  (if value < 0 then value + 2 ^ 64 else value).toNat

/-- The result of an `i64` operation whose exact value is `value`. -/
def wrapI64 (value : Int) : Int :=
  (value + 2 ^ 63) % 2 ^ 64 - 2 ^ 63

/-- The result of a `u64` operation whose exact value is `value`. -/
def wrapU64 (value : Nat) : Nat :=
  value % 2 ^ 64

/-- How an unchecked operation treats a result out of range: a debug build
panics, a release build wraps. -/
inductive Build where
  | debug
  | release

/-- An unchecked unsigned operation whose exact result is `exact`. -/
def Build.unchecked (build : Build) (bits : Nat) (exact : Int) : Option Nat :=
  match build with
  | .debug =>
      if 0 ≤ exact ∧ exact < 2 ^ bits then some exact.toNat else none
  | .release => some (exact % 2 ^ bits).toNat

theorem Build.unchecked_of_lt (build : Build) {bits value : Nat}
    (small : value < 2 ^ bits) :
    build.unchecked bits value = some value := by
  have cast : (value : Int) < 2 ^ bits := by exact_mod_cast small
  cases build with
  | debug => exact if_pos ⟨Int.natCast_nonneg value, cast⟩
  | release =>
      rw [unchecked, Int.emod_eq_of_lt (Int.natCast_nonneg value) cast]
      rfl

/-- A checked `u64` operation whose exact result is `exact`. -/
def checkedU64 (exact : Nat) : Option Nat :=
  if exact < 2 ^ 64 then some exact else none

theorem asI64_of_lt {value : Nat} (small : value < 2 ^ 63) :
    asI64 value = value := by
  unfold asI64
  rw [if_pos small]

theorem asI64_bounds {value : Nat} (small : value < 2 ^ 64) :
    -2 ^ 63 ≤ asI64 value ∧ asI64 value < 2 ^ 63 := by
  unfold asI64
  split <;> omega

theorem asI64_eq_iff {value : Nat} : asI64 value = value ↔ value < 2 ^ 63 := by
  unfold asI64
  split <;> omega

theorem asU64_asI64 {value : Nat} (small : value < 2 ^ 64) :
    asU64 (asI64 value) = value := by
  unfold asU64 asI64
  split <;> omega

theorem asU64_of_nonneg {value : Int} (nonneg : 0 ≤ value) :
    (asU64 value : Int) = value := by
  simp only [asU64]
  omega

theorem wrapI64_of_bounds {value : Int} (lower : -2 ^ 63 ≤ value)
    (upper : value < 2 ^ 63) : wrapI64 value = value := by
  simp only [wrapI64]
  omega

theorem wrapU64_of_lt {value : Nat} (small : value < 2 ^ 64) :
    wrapU64 value = value :=
  Nat.mod_eq_of_lt small

end MachineInt
