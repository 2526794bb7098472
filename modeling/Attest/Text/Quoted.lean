import Attest.Text.Printable

/-! Texts quoted inside messages.

A quoted text stands between quote marks with the mark and the backslash
escaped by a backslash, the common control characters as `\n`, `\r`, `\t` and
`\0`, and every other character that does not stand for itself as its code
point in hexadecimal. -/
namespace Attest.Text.Quoted

/-- The lowercase hexadecimal digits of `n`, without leading zeros. -/
def hexDigits (n : Nat) : List Char := Nat.toDigits 16 n

/-- `c` as written between two marks `mark`. -/
def escape (mark c : Char) : List Char :=
  if c = mark ∨ c = '\\' then ['\\', c]
  else if c = '\n' then ['\\', 'n']
  else if c = '\r' then ['\\', 'r']
  else if c = '\t' then ['\\', 't']
  else if c = '\x00' then ['\\', '0']
  else if (' ' ≤ c && c ≤ '~') || Printable.standsAlone c then [c]
  else ['\\', 'u', '\x7b'] ++ hexDigits c.toNat ++ ['\x7d']

def quoteChars (mark : Char) (cs : List Char) : List Char :=
  mark :: cs.flatMap (escape mark) ++ [mark]

/-- A text between double quotes. -/
def text (s : String) : String := String.ofList (quoteChars '"' s.toList)

/-- A single character between single quotes. -/
def char (c : Char) : String := String.ofList (quoteChars '\'' [c])

end Attest.Text.Quoted
