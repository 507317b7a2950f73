import Floonet.Bech32

/-!
# Checksums of Bech32

The checksum step is linear in exclusive or, and below the thirtieth bit it
only shifts.  So exactly one sequence of six symbols completes a prefix and
its data to a given residue.
-/

namespace Bech32

/-! ## The step -/

/-- What the bits above the twenty-fifth feed back. -/
def feedback (entries : List (Nat × Nat)) (top : Nat) : Nat :=
  match entries with
  | [] => 0
  | entry :: entries =>
      (if top.testBit entry.2 then entry.1 else 0) ^^^ feedback entries top

theorem feedback_xor (entries : List (Nat × Nat)) (left right : Nat) :
    feedback entries (left ^^^ right) =
      feedback entries left ^^^ feedback entries right := by
  induction entries with
  | nil => simp [feedback]
  | cons entry entries induction =>
      have bit : (if (left ^^^ right).testBit entry.2 then entry.1 else 0) =
          (if left.testBit entry.2 then entry.1 else 0) ^^^
            (if right.testBit entry.2 then entry.1 else 0) := by
        rw [Nat.testBit_xor]
        cases left.testBit entry.2 <;> cases right.testBit entry.2 <;> simp
      simp only [feedback, induction, bit]
      ac_rfl

theorem feedback_zero (entries : List (Nat × Nat)) :
    feedback entries 0 = 0 := by
  induction entries with
  | nil => rfl
  | cons entry entries induction => simp [feedback, induction]

theorem foldl_filter_feedback (entries : List (Nat × Nat)) (top sum : Nat) :
    (entries.filter fun entry => top.testBit entry.2).foldl
        (fun sum entry => sum ^^^ entry.1) sum =
      sum ^^^ feedback entries top := by
  induction entries generalizing sum with
  | nil => simp [feedback]
  | cons entry entries induction =>
      by_cases isSet : top.testBit entry.2 = true
      · simp [feedback, isSet, induction, Nat.xor_assoc]
      · simp [feedback, isSet, induction]

theorem polymodStep_eq (checksum value : Nat) :
    polymodStep checksum value =
      ((checksum % 2 ^ 25) <<< 5 ^^^ value) ^^^
        feedback generators.zipIdx (checksum >>> 25) :=
  foldl_filter_feedback _ _ _

theorem polymodStep_xor (left right value value' : Nat) :
    polymodStep (left ^^^ right) (value ^^^ value') =
      polymodStep left value ^^^ polymodStep right value' := by
  simp only [polymodStep_eq, Nat.xor_mod_two_pow, Nat.shiftLeft_xor_distrib,
    Nat.shiftRight_xor_distrib, feedback_xor]
  ac_rfl

/-- A symbol is put behind a number. -/
theorem shiftLeft_xor_symbol {symbol : Nat} (small : symbol < 2 ^ 5)
    (number : Nat) : number <<< 5 ^^^ symbol = 32 * number + symbol := by
  apply Nat.eq_of_testBit_eq
  intro place
  rw [show 32 * number = 2 ^ 5 * number from rfl,
    Nat.testBit_two_pow_mul_add number small, Nat.testBit_xor,
    Nat.testBit_shiftLeft]
  by_cases low : place < 5
  · simp [low, Nat.not_le_of_lt low]
  · have high : symbol.testBit place = false :=
      Nat.testBit_lt_two_pow (Nat.lt_of_lt_of_le small
        (Nat.pow_le_pow_right (by omega) (by omega)))
    simp [low, high, Nat.le_of_not_lt low]

/-- Below the twenty-fifth bit, nothing is fed back. -/
theorem polymodStep_small {checksum value : Nat} (small : checksum < 2 ^ 25)
    (symbol : value < 2 ^ 5) :
    polymodStep checksum value = 32 * checksum + value := by
  have top : checksum >>> 25 = 0 := by
    rw [Nat.shiftRight_eq_div_pow, Nat.div_eq_of_lt small]
  rw [polymodStep_eq, top, feedback_zero, Nat.xor_zero,
    Nat.mod_eq_of_lt small, shiftLeft_xor_symbol symbol]

theorem feedback_lt {entries : List (Nat × Nat)}
    (small : ∀ entry ∈ entries, entry.1 < 2 ^ 30) (top : Nat) :
    feedback entries top < 2 ^ 30 := by
  induction entries with
  | nil => exact Nat.two_pow_pos 30
  | cons entry entries induction =>
      have rest := induction fun other member =>
        small other (List.mem_cons_of_mem _ member)
      apply Nat.xor_lt_two_pow _ rest
      split
      · exact small entry List.mem_cons_self
      · exact Nat.two_pow_pos 30

theorem polymodStep_lt (checksum : Nat) {value : Nat} (symbol : value < 2 ^ 5) :
    polymodStep checksum value < 2 ^ 30 := by
  rw [polymodStep_eq, shiftLeft_xor_symbol symbol]
  apply Nat.xor_lt_two_pow
  · have := Nat.mod_lt checksum (Nat.two_pow_pos 25)
    omega
  · exact feedback_lt (by decide) _

/-! ## Sequences of symbols -/

/-- The number that the symbols write in base 32. -/
def packed (symbols : List (Fin 32)) : Nat :=
  symbols.foldl (fun number symbol => 32 * number + symbol.val) 0

theorem polymod_append (first rest : List Nat) :
    polymod (first ++ rest) = rest.foldl polymodStep (polymod first) :=
  List.foldl_append

theorem foldl_polymodStep_xor (symbols : List (Fin 32)) (left right : Nat) :
    (symbols.map Fin.val).foldl polymodStep (left ^^^ right) =
      (List.replicate symbols.length 0).foldl polymodStep left ^^^
        (symbols.map Fin.val).foldl polymodStep right := by
  induction symbols generalizing left right with
  | nil => rfl
  | cons symbol symbols induction =>
      simp only [List.map_cons, List.foldl_cons, List.length_cons,
        List.replicate_succ]
      rw [← induction, ← polymodStep_xor, Nat.zero_xor]

/-- Six symbols fit below the thirtieth bit. -/
theorem foldl_polymodStep_small (symbols : List (Fin 32)) {checksum : Nat}
    (small : (checksum + 1) * 32 ^ symbols.length ≤ 2 ^ 30) :
    (symbols.map Fin.val).foldl polymodStep checksum =
      symbols.foldl (fun number symbol => 32 * number + symbol.val)
        checksum := by
  induction symbols generalizing checksum with
  | nil => rfl
  | cons symbol symbols induction =>
      rw [List.length_cons, Nat.pow_succ', ← Nat.mul_assoc] at small
      have first : (checksum + 1) * 32 ≤ 2 ^ 30 :=
        Nat.le_trans (Nat.le_mul_of_pos_right _ (Nat.pow_pos (by omega))) small
      rw [List.map_cons, List.foldl_cons, List.foldl_cons,
        polymodStep_small (by omega) symbol.isLt]
      apply induction
      exact Nat.le_trans (Nat.mul_le_mul_right _ (by omega)) small

/-- The symbols of a number of thirty bits. -/
theorem packed_eq_iff {symbols : List (Fin 32)} (six : symbols.length = 6)
    {number : Nat} (small : number < 2 ^ 30) :
    packed symbols = number ↔ symbols =
      [25, 20, 15, 10, 5, 0].map fun shift => Fin.ofNat 32 (number >>> shift) := by
  obtain ⟨a, b, c, d, e, f, rfl⟩ : ∃ a b c d e f, symbols = [a, b, c, d, e, f] := by
    match symbols, six with
    | [a, b, c, d, e, f], _ => exact ⟨a, b, c, d, e, f, rfl⟩
  simp only [packed, List.foldl_cons, List.foldl_nil, List.map_cons,
    List.map_nil, List.cons.injEq, Fin.ext_iff, Fin.val_ofNat,
    Nat.shiftRight_eq_div_pow, and_true]
  omega

theorem xor_eq_iff {left right total : Nat} :
    left ^^^ right = total ↔ right = left ^^^ total := by
  constructor
  · rintro rfl
    rw [← Nat.xor_assoc, Nat.xor_self, Nat.zero_xor]
  · rintro rfl
    rw [← Nat.xor_assoc, Nat.xor_self, Nat.zero_xor]

theorem constant_lt (variant : Variant) : variant.constant < 2 ^ 30 := by
  cases variant <;> decide

/-- Six symbols complete a prefix and its data exactly when they are their
checksum. -/
theorem polymod_eq_iff (variant : Variant) (hrp : List Char)
    (data : List (Fin 32)) {symbols : List (Fin 32)}
    (six : symbols.length = 6) :
    polymod (expandPrefix hrp ++ (data ++ symbols).map Fin.val) =
        variant.constant ↔
      symbols = checksum variant hrp data := by
  have residue : polymod (expandPrefix hrp ++ (data ++ symbols).map Fin.val) =
      polymod (expandPrefix hrp ++ data.map Fin.val ++ List.replicate 6 0) ^^^
        packed symbols := by
    have body := foldl_polymodStep_xor symbols
      (polymod (expandPrefix hrp ++ data.map Fin.val)) 0
    have shifted : (symbols.map Fin.val).foldl polymodStep 0 = packed symbols :=
      foldl_polymodStep_small symbols (by simp [six])
    rw [Nat.xor_zero, six, shifted] at body
    rw [List.map_append, ← List.append_assoc, polymod_append,
      polymod_append _ (List.replicate 6 0)]
    exact body
  have small : polymod (expandPrefix hrp ++ data.map Fin.val ++
      List.replicate 6 0) ^^^ variant.constant < 2 ^ 30 := by
    apply Nat.xor_lt_two_pow _ (constant_lt variant)
    rw [List.replicate_succ', ← List.append_assoc, polymod_append]
    exact polymodStep_lt _ (by decide)
  rw [residue, xor_eq_iff, packed_eq_iff six small]
  rfl

/-! ## Substitutions -/

theorem xor_eq_zero {left right : Nat} : left ^^^ right = 0 ↔ left = right := by
  rw [xor_eq_iff, Nat.xor_zero, eq_comm]

/-- What is fed back shows in the lowest five bits. -/
theorem feedback_low : ∀ top < 32,
    feedback generators.zipIdx top % 32 = 0 → top = 0 := by
  decide +kernel

theorem polymodStep_eq_zero {checksum : Nat} (small : checksum < 2 ^ 30)
    (zero : polymodStep checksum 0 = 0) : checksum = 0 := by
  rw [polymodStep_eq, Nat.xor_zero, xor_eq_zero] at zero
  have top : checksum >>> 25 = 0 := by
    apply feedback_low
    · rw [Nat.shiftRight_eq_div_pow]
      omega
    · rw [← zero, Nat.shiftLeft_eq]
      omega
  rw [top, feedback_zero, Nat.shiftLeft_eq] at zero
  rw [Nat.shiftRight_eq_div_pow] at top
  omega

/-- A step does not confuse checksums. -/
theorem polymodStep_injective {left right value : Nat}
    (leftSmall : left < 2 ^ 30) (rightSmall : right < 2 ^ 30)
    (same : polymodStep left value = polymodStep right value) :
    left = right := by
  have difference := polymodStep_xor left right value value
  rw [Nat.xor_self, same, Nat.xor_self] at difference
  exact xor_eq_zero.mp
    (polymodStep_eq_zero (Nat.xor_lt_two_pow leftSmall rightSmall) difference)

/-- A step does not confuse symbols. -/
theorem polymodStep_value {checksum value value' : Nat}
    (same : polymodStep checksum value = polymodStep checksum value') :
    value = value' := by
  have difference := polymodStep_xor checksum checksum value value'
  rw [Nat.xor_self, same, Nat.xor_self, polymodStep_eq] at difference
  simpa [feedback_zero, xor_eq_zero] using difference

theorem foldl_polymodStep_injective {symbols : List (Fin 32)}
    {left right : Nat} (leftSmall : left < 2 ^ 30) (rightSmall : right < 2 ^ 30)
    (same : (symbols.map Fin.val).foldl polymodStep left =
      (symbols.map Fin.val).foldl polymodStep right) : left = right := by
  induction symbols generalizing left right with
  | nil => exact same
  | cons symbol symbols induction =>
      have stepped := induction (polymodStep_lt left symbol.isLt)
        (polymodStep_lt right symbol.isLt) same
      exact polymodStep_injective leftSmall rightSmall stepped

/-- Two texts with one residue do not differ in a single symbol. -/
theorem polymod_substitute {front : List Nat} {left right : Fin 32}
    {back : List (Fin 32)}
    (same : polymod (front ++ left.val :: back.map Fin.val) =
      polymod (front ++ right.val :: back.map Fin.val)) : left = right := by
  rw [polymod_append, polymod_append, List.foldl_cons, List.foldl_cons] at same
  have stepped := foldl_polymodStep_injective (polymodStep_lt _ left.isLt)
    (polymodStep_lt _ right.isLt) same
  exact Fin.ext (polymodStep_value stepped)

end Bech32
