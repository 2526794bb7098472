/-! Digit strings.

`digit?` reads one ASCII digit in a radix up to sixteen, letters in either
case; `digits?` reads a whole string and `value` is the number it denotes.
`below` compares two strings by the numbers they denote without reading either. -/
namespace Attest.Text

/-- The value of an ASCII digit below `radix`, for a radix of at most sixteen. -/
def digit? (radix : Nat) (c : Char) : Option Nat :=
  let n := c.toNat
  let d :=
    if '0' ≤ c ∧ c ≤ '9' then n - 48
    else if 'a' ≤ c ∧ c ≤ 'f' then n - 87
    else if 'A' ≤ c ∧ c ≤ 'F' then n - 55
    else 16
  if d < radix ∧ d < 16 then some d else none

/-- The digits of the string, if every character is one. -/
def digits? (radix : Nat) (cs : List Char) : Option (List Nat) :=
  cs.mapM (digit? radix)

/-- The number that a list of digits denotes, most significant first. -/
def value (radix : Nat) (ds : List Nat) : Nat :=
  ds.foldl (fun n d => n * radix + d) 0

/-- Whether digits denote less than others that begin with no zero, in one radix and letter case:
zeros in front do not count, fewer digits are less, and of as many the first that differ decide. -/
def below (digits bound : List Char) : Bool :=
  let digits := digits.dropWhile (· == '0')
  if digits.length < bound.length then true
  else if bound.length < digits.length then false
  else digits.lex bound fun a b => decide (a < b)

end Attest.Text
