import Attest.Bytes

/-! Byte strings in base 64.

Three bytes are four digits of six bits; one or two bytes at the end are padded
to four with `=`. Reading takes what writing gives and nothing else: the padding
has to be there and the bits it leaves over have to be zero. -/
namespace Attest.Text.Base64

/-- The digit of a number below 64. -/
def digitChar (n : Nat) : Char :=
  if n < 26 then Char.ofNat (65 + n)
  else if n < 52 then Char.ofNat (71 + n)
  else if n < 62 then Char.ofNat (n - 4)
  else if n = 62 then '+' else '/'

def digit? (c : Char) : Option Nat :=
  let n := c.toNat
  if 65 ≤ n ∧ n ≤ 90 then some (n - 65)
  else if 97 ≤ n ∧ n ≤ 122 then some (n - 71)
  else if 48 ≤ n ∧ n ≤ 57 then some (n + 4)
  else if c = '+' then some 62
  else if c = '/' then some 63
  else none

def encode : Bytes → List Char
  | a :: b :: c :: rest =>
    let n := a.toNat * 65536 + b.toNat * 256 + c.toNat
    digitChar (n / 262144) :: digitChar (n / 4096 % 64) :: digitChar (n / 64 % 64) ::
      digitChar (n % 64) :: encode rest
  | [a, b] =>
    let n := a.toNat * 1024 + b.toNat * 4
    [digitChar (n / 4096), digitChar (n / 64 % 64), digitChar (n % 64), '=']
  | [a] =>
    let n := a.toNat * 16
    [digitChar (n / 64), digitChar (n % 64), '=', '=']
  | [] => []

def decode? : List Char → Option Bytes
  | [] => some []
  | [a, b, '=', '='] => do
    let n := (← digit? a) * 64 + (← digit? b)
    if n % 16 = 0 then some [UInt8.ofNat (n / 16)] else none
  | [a, b, c, '='] => do
    let n := (← digit? a) * 4096 + (← digit? b) * 64 + (← digit? c)
    if n % 4 = 0 then some [UInt8.ofNat (n / 1024), UInt8.ofNat (n / 4)] else none
  | a :: b :: c :: d :: rest => do
    let n := (← digit? a) * 262144 + (← digit? b) * 4096 + (← digit? c) * 64 + (← digit? d)
    let bytes ← decode? rest
    return UInt8.ofNat (n / 65536) :: UInt8.ofNat (n / 256) :: UInt8.ofNat n :: bytes
  | _ => none

end Attest.Text.Base64
