import Attest.Bytes
import Attest.Text.Quoted

/-! Byte strings in hexadecimal, two digits a byte.

`encode` writes lowercase digits. `decode` reads digits of either case from the
bytes of a text; a text with an odd number of bytes is read as if it began with
one more zero, and the first byte that is no digit is reported with its place. -/
namespace Attest.Text.Hex

inductive Error where
  | empty
  /-- A byte that is no hexadecimal digit, and its place. -/
  | badDigit (byte : UInt8) (position : Nat)
deriving DecidableEq

def Error.message : Error → String
  | .empty => "empty hex string"
  | .badDigit b position =>
    s!"invalid hex: Invalid character {Quoted.char (Char.ofNat b.toNat)} at position {position}"

/-- The lowercase digit of a number below sixteen. -/
def digitChar (n : Nat) : Char :=
  if n < 10 then Char.ofNat (48 + n) else Char.ofNat (87 + n)

def encodeByte (b : UInt8) : List Char :=
  [digitChar (b.toNat / 16), digitChar (b.toNat % 16)]

def encode (bs : Bytes) : List Char := bs.flatMap encodeByte

def toString (bs : Bytes) : String := String.ofList (encode bs)

/-- The value of a digit given by its ASCII code. -/
def nibble? (b : UInt8) : Option Nat :=
  let n := b.toNat
  if 48 ≤ n ∧ n ≤ 57 then some (n - 48)
  else if 97 ≤ n ∧ n ≤ 102 then some (n - 87)
  else if 65 ≤ n ∧ n ≤ 70 then some (n - 55)
  else none

/-- Reads pairs of digits, the first of which stands at place `position`. -/
def decodePairs (position : Nat) : Bytes → Except Error Bytes
  | high :: low :: rest =>
    match nibble? high, nibble? low with
    | some h, some l =>
      (decodePairs (position + 2) rest).map (UInt8.ofNat (16 * h + l) :: ·)
    | none, _ => .error (.badDigit high position)
    | some _, none => .error (.badDigit low (position + 1))
  | [single] =>
    match nibble? single with
    | some n => .ok [UInt8.ofNat n]
    | none => .error (.badDigit single position)
  | [] => .ok []

/-- The digits with a zero in front where their number is odd. -/
def padded (digits : Bytes) : Bytes :=
  if digits.length % 2 = 1 then 48 :: digits else digits

def decode (cs : List Char) : Except Error Bytes :=
  if cs.isEmpty then .error .empty else decodePairs 0 (padded (Bytes.ofText cs))

/-- The bytes of plain hexadecimal text, for callers that have no use for the fault. -/
def ofString? (s : String) : Option Bytes :=
  (decodePairs 0 (Bytes.ofText s.toList)).toOption

/-- The text after a `0x` or `0X`, if it starts so. -/
def afterMark? : List Char → Option (List Char)
  | '0' :: 'x' :: rest => some rest
  | '0' :: 'X' :: rest => some rest
  | _ => none

end Attest.Text.Hex
