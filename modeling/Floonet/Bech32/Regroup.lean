import Floonet.Bech32
import Mathlib.Tactic.NthRewrite

/-!
# Regrouping by an accumulator

Bit strings as numbers, most significant bit first.  The bytes that are cut
from a bit string write it back, so a regrouping is canonical exactly when the
bits that are left over have the value zero.
-/

namespace Bech32

/-! ## Bits and numbers -/

theorem foldl_ofBits (front : Nat) (text : List Bool) :
    text.foldl (fun value bit => 2 * value + bit.toNat) front =
      front * 2 ^ text.length + ofBits text := by
  induction text generalizing front with
  | nil => simp [ofBits]
  | cons bit text induction =>
      rw [ofBits, List.foldl_cons, List.foldl_cons, induction, induction,
        List.length_cons, Nat.pow_succ']
      grind

theorem ofBits_append (front back : List Bool) :
    ofBits (front ++ back) = ofBits front * 2 ^ back.length + ofBits back := by
  rw [ofBits, List.foldl_append, foldl_ofBits]
  rfl

theorem ofBits_cons (bit : Bool) (text : List Bool) :
    ofBits (bit :: text) = 2 ^ text.length * bit.toNat + ofBits text := by
  rw [← List.singleton_append, ofBits_append, Nat.mul_comm]
  simp [ofBits]

theorem ofBits_lt (text : List Bool) : ofBits text < 2 ^ text.length := by
  induction text with
  | nil => decide
  | cons bit text induction =>
      rw [ofBits_cons, List.length_cons, Nat.pow_succ]
      cases bit
      · simp only [Bool.toNat_false]
        omega
      · simp only [Bool.toNat_true]
        omega

theorem testBit_ofBits (text : List Bool) {place : Nat}
    (within : place < text.length) :
    (ofBits text).testBit (text.length - 1 - place) = text[place] := by
  induction text generalizing place with
  | nil => simp at within
  | cons bit text induction =>
      rw [ofBits_cons, Nat.testBit_two_pow_mul_add _ (ofBits_lt text)]
      cases place with
      | zero => cases bit <;> simp
      | succ place =>
          rw [List.length_cons] at within
          have position : (bit :: text).length - 1 - (place + 1) =
              text.length - 1 - place := by
            rw [List.length_cons]
            omega
          rw [position, if_pos (by omega), induction (by omega)]
          rfl

theorem bits_ofBits (text : List Bool) :
    bits text.length (ofBits text) = text := by
  apply List.ext_getElem
  · rw [bits_length]
  · intro place _ within
    simp [bits, testBit_ofBits text within]

theorem ofBits_bits (width : Nat) {value : Nat} (small : value < 2 ^ width) :
    ofBits (bits width value) = value := by
  have inverse := bits_ofBits (bits width value)
  have lt := ofBits_lt (bits width value)
  rw [bits_length] at inverse lt
  exact bits_injective lt small inverse

theorem ofBits_eq_zero {text : List Bool} :
    ofBits text = 0 ↔ text = List.replicate text.length false := by
  induction text with
  | nil => simp [ofBits]
  | cons bit text induction =>
      rw [ofBits_cons, List.length_cons, List.replicate_succ]
      cases bit <;> simp [induction]

/-! ## Whole bytes -/

theorem flatMap_wholeBytes {count : Nat} {text : List Bool}
    (enough : 8 * count ≤ text.length) :
    (wholeBytes count text).flatMap (fun byte => bits 8 byte.toNat) =
      text.take (8 * count) := by
  induction count generalizing text with
  | zero => rfl
  | succ count induction =>
      have eight : (text.take 8).length = 8 := by
        rw [List.length_take]
        omega
      have byte : bits 8 (UInt8.ofNat (ofBits (text.take 8))).toNat =
          text.take 8 := by
        have small := ofBits_lt (text.take 8)
        rw [eight] at small
        have inverse := bits_ofBits (text.take 8)
        rw [eight] at inverse
        rw [UInt8.toNat_ofNat', Nat.mod_eq_of_lt small, inverse]
      rw [wholeBytes, List.flatMap_cons, byte, induction (by simp; omega),
        Nat.mul_succ, Nat.add_comm, List.take_add]

theorem wholeBytes_length (count : Nat) (text : List Bool) :
    (wholeBytes count text).length = count := by
  induction count generalizing text with
  | zero => rfl
  | succ count induction => rw [wholeBytes, List.length_cons, induction]

/-- One more byte. -/
theorem wholeBytes_succ (count : Nat) (text : List Bool) :
    wholeBytes (count + 1) text = wholeBytes count text ++
      [UInt8.ofNat (ofBits ((text.drop (8 * count)).take 8))] := by
  induction count generalizing text with
  | zero => rfl
  | succ count induction =>
      rw [wholeBytes, induction, List.drop_drop, wholeBytes, List.cons_append,
        Nat.mul_succ, Nat.add_comm 8]

theorem wholeBytes_append {count : Nat} {text : List Bool}
    (enough : 8 * count ≤ text.length) (more : List Bool) :
    wholeBytes count (text ++ more) = wholeBytes count text := by
  induction count generalizing text with
  | zero => rfl
  | succ count induction =>
      rw [wholeBytes, wholeBytes, List.take_append_of_le_length (by omega),
        List.drop_append_of_le_length (by omega), induction (by simp; omega)]

/-- The value of the last bits. -/
theorem ofBits_mod (text : List Bool) {count : Nat}
    (enough : count ≤ text.length) :
    ofBits text % 2 ^ count = ofBits (text.drop (text.length - count)) := by
  have split := ofBits_append (text.take (text.length - count))
    (text.drop (text.length - count))
  have small := ofBits_lt (text.drop (text.length - count))
  rw [List.length_drop, Nat.sub_sub_self enough] at split small
  rw [List.take_append_drop] at split
  rw [split, Nat.mul_add_mod', Nat.mod_eq_of_lt small]

/-- The value of bits in the middle. -/
theorem ofBits_middle (front middle back : List Bool) :
    ofBits (front ++ middle ++ back) >>> back.length % 2 ^ middle.length =
      ofBits middle := by
  rw [ofBits_append, ofBits_append, Nat.shiftRight_eq_div_pow,
    Nat.mul_comm _ (2 ^ back.length),
    Nat.mul_add_div (Nat.two_pow_pos back.length),
    Nat.div_eq_of_lt (ofBits_lt back), Nat.add_zero, Nat.mul_add_mod',
    Nat.mod_eq_of_lt (ofBits_lt middle)]

/-- The next byte, as a loop reads it that has all bits in one number. -/
theorem ofBits_byte (count : Nat) (text : List Bool)
    (enough : 8 * count + 8 ≤ text.length) :
    (ofBits text >>> (text.length - (8 * count + 8))) &&& 0xFF =
      ofBits ((text.drop (8 * count)).take 8) := by
  have whole : text.take (8 * count) ++ (text.drop (8 * count)).take 8 ++
      (text.drop (8 * count)).drop 8 = text := by
    rw [List.append_assoc, List.take_append_drop, List.take_append_drop]
  have middle := ofBits_middle (text.take (8 * count))
    ((text.drop (8 * count)).take 8) ((text.drop (8 * count)).drop 8)
  have eight : ((text.drop (8 * count)).take 8).length = 8 := by
    simp
    omega
  rw [whole, eight, List.length_drop, List.length_drop, Nat.sub_sub] at middle
  rw [← middle]
  exact Nat.and_two_pow_sub_one_eq_mod _ 8

theorem symbolBits_snoc (data : List (Fin 32)) (symbol : Fin 32) :
    symbolBits (data ++ [symbol]) = symbolBits data ++ bits 5 symbol.val := by
  simp [symbolBits]

/-- Symbols regroup into their whole bytes, if the bits that are left over are
few and zero. -/
theorem fromBase32_eq_some {data : List (Fin 32)} {bytes : List UInt8} :
    fromBase32 data = some bytes ↔
      5 * data.length % 8 < 5 ∧
        ofBits (symbolBits data) % 2 ^ (5 * data.length % 8) = 0 ∧
        wholeBytes (5 * data.length / 8) (symbolBits data) = bytes := by
  unfold fromBase32
  rw [← symbolBits_length data]
  generalize symbolBits data = text
  have canonical : text = (wholeBytes (text.length / 8) text).flatMap
        (fun byte => bits 8 byte.toNat) ++
          List.replicate (text.length % 8) false ↔
      ofBits text % 2 ^ (text.length % 8) = 0 := by
    have whole := List.take_append_drop (8 * (text.length / 8)) text
    rw [flatMap_wholeBytes (by omega), ofBits_mod text (by omega),
      show text.length - text.length % 8 = 8 * (text.length / 8) by omega,
      ofBits_eq_zero, List.length_drop,
      show text.length - 8 * (text.length / 8) = text.length % 8 by omega]
    nth_rewrite 1 [← whole]
    exact List.append_right_inj _
  simp only [canonical]
  split
  · rename_i short
    simp [short]
  · rename_i long
    simp only [reduceCtorEq, false_iff]
    rintro ⟨short, zero, -⟩
    exact long ⟨short, zero⟩

end Bech32
