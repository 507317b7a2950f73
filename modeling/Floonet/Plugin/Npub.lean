import Floonet.Bech32
import Floonet.Python.Text
import Floonet.Text

/-!
# Author keys

How the policy reads the key of an authorized author: 64 hexadecimal digits,
or an npub.
-/

namespace Floonet.Plugin

open Python

def bech32Charset : Str := str "qpzry9x8gf2tvdw0s3jn54khce6mua7l"

/-- The generator of the checksum. -/
def generator : List Nat :=
  [0x3B6A57B2, 0x26508E6D, 0x1EA119FA, 0x3D4233DD, 0x2A1462B3]

/-- The checksum after one more symbol. -/
def bech32PolymodStep (chk value : Nat) : Nat :=
  let top := chk >>> 25
  generator.zipIdx.foldl
    (fun chk entry =>
      chk ^^^ (if (top >>> entry.2) &&& 1 ≠ 0 then entry.1 else 0))
    (((chk &&& 0x1FFFFFF) <<< 5) ^^^ value)

def bech32Polymod (values : List Nat) : Nat :=
  values.foldl bech32PolymodStep 1

/-- The bits read so far, how many of them are left over, and the bytes. -/
structure Regrouping where
  acc : Nat
  bits : Nat
  out : List UInt8

/-- Read five bits; write a byte as soon as there are eight. -/
def Regrouping.step (state : Regrouping) (value : Nat) : Regrouping :=
  let acc := (state.acc <<< 5) ||| value
  let bits := state.bits + 5
  if 8 ≤ bits then
    { acc
      bits := bits - 8
      out := state.out ++ [UInt8.ofNat ((acc >>> (bits - 8)) &&& 0xFF)] }
  else { acc, bits, out := state.out }

def bytesHex (bytes : List UInt8) : Str := str (Text.hexEncode bytes)

variable (tables : Unicode)

/-- The symbols of a data part without its checksum, as bytes in hexadecimal. -/
def regroupHex (data : List Nat) : Option Str :=
  let final := (data.take (data.length - 6)).foldl Regrouping.step ⟨0, 0, []⟩
  if 5 ≤ final.bits ∨ final.acc &&& ((1 <<< final.bits) - 1) ≠ 0 then none
  else if final.out.length ≠ 32 then none
  else some (bytesHex final.out)

/-- Decode the lower-case text of an npub. -/
def lowerNpubToHex (s : Str) : Option Str :=
  match rfind '1' s with
  | none => none
  | some pos =>
      if pos < 1 ∨ s.length < pos + 7 then none
      else
        let hrp := s.take pos
        if hrp ≠ str "npub" then none
        else
          match (s.drop (pos + 1)).mapM (bech32Charset.idxOf? ·) with
          | none => none
          | some data =>
              let expanded := hrp.map (fun c => c.val >>> 5) ++ [0] ++
                hrp.map fun c => c.val &&& 31
              if bech32Polymod (expanded ++ data) ≠ 1 then none
              else regroupHex data

/-- The key of an npub in hexadecimal; mixed case is refused. -/
def npubToHex (s : Str) : Option Str :=
  if s ≠ tables.toLower s ∧ s ≠ tables.toUpper s then none
  else lowerNpubToHex (tables.toLower s)

/-- Lower-case hexadecimal for 64 digits or an npub. -/
def normalizePubkey (s : Str) : Option Str :=
  let s := strip s
  if s.length = 64 then
    match tables.int 16 s with
    | none => none
    | some _ => some (tables.toLower s)
  else if (str "npub1").isPrefixOf (tables.toLower s) then npubToHex tables s
  else none

end Floonet.Plugin
