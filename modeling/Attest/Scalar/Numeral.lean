import Attest.Scalar.Encoding
import Attest.Text.Blank
import Attest.Text.Digits

/-! Scalars read from integer texts.

A numeral is a trimmed text: an optional minus sign, then decimal digits, or
`0x` and hexadecimal digits, of any length. `Scalar.parse` reduces the integer
it denotes, and of a decimal one every number on the way, so that no text is too
long for it. `Scalar.parseCanonical` takes only the integers that need no
reduction and carry no sign, so that a value has no second spelling past the
modulus. What was read is reduced already, so the range is that of the text: its
digits are compared with the modulus's own. -/
namespace Attest
namespace Numeral

inductive Error where
  | hex (fault : Text.Hex.Error)
  | empty
  | notDecimal (digits : String)
  | negative (text : String)
  | notBelowModulus (text : String)
deriving DecidableEq

def Error.message : Error → String
  | .hex fault => fault.message
  | .empty => "empty integer string"
  | .notDecimal digits => s!"not an integer: {Text.Quoted.text digits}"
  | .negative text => s!"negative field element: {text}"
  | .notBelowModulus text => s!"{text} is not below the field modulus"

/-- The decimal digits of the order. -/
def orderDecimal : String :=
  "21888242871839275222246405745257275088548364400416034343698204186575808495617"

/-- The hexadecimal digits of the order. -/
def orderHex : String := "30644e72e131a029b85045b68181585d2833e84879b9709143e1f593f0000001"

/-- Whether the digits of a number without a sign denote less than the order. -/
def belowOrder (cs : List Char) : Bool :=
  match Text.Hex.afterMark? cs with
  | some digits => Text.below (digits.map Char.toLower) orderHex.toList
  | none => Text.below cs orderDecimal.toList

end Numeral

namespace Scalar

/-- The scalar that digits denote, most significant first. -/
def ofDigits (radix : Nat) (ds : List Nat) : Scalar :=
  ds.foldl (fun x d => x * Residue.ofNat radix + Residue.ofNat d) 0

/-- The scalar that unsigned digits denote, in either radix. -/
def parseUnsigned (cs : List Char) : Except Numeral.Error Scalar :=
  match Text.Hex.afterMark? cs with
  | some digits =>
    match Text.Hex.decode digits with
    | .ok bytes => .ok (ofBytes bytes)
    | .error fault => .error (.hex fault)
  | none =>
    if cs.isEmpty then .error .empty
    else
      match Text.digits? 10 cs with
      | some ds => .ok (ofDigits 10 ds)
      | none => .error (.notDecimal (String.ofList cs))

/-- The integer written in the text, reduced. -/
def parse (s : String) : Except Numeral.Error Scalar :=
  match Text.trim s.toList with
  | '-' :: digits => (parseUnsigned digits).map (- ·)
  | digits => parseUnsigned digits

/-- The integer written in the text, which must be a canonical residue without a sign. -/
def parseCanonical (s : String) : Except Numeral.Error Scalar := do
  let x ← parse s
  let cs := Text.trim s.toList
  if cs.head? = some '-' then throw (.negative (String.ofList cs))
  else if Numeral.belowOrder cs then return x
  else throw (.notBelowModulus (String.ofList cs))

end Scalar

end Attest
