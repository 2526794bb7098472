import Attest.Inputs
import Attest.Json.Codec
import Attest.Scalar.Numeral

/-! Scalars and named inputs as JSON.

A scalar is written in canonical hexadecimal and read from an integer of at most
64 bits or from an integer text. Where a value is checked against a proof,
`canonicalScalar` takes only integers that need no reduction, so that no two
texts alias. -/
namespace Attest.Wire
open Json

/-- A fault reported as an invalid input. -/
def invalid (reason : String) : Fault := .mismatch (Failure.invalidInput reason).message

def scalar : Codec Scalar where
  read
    | .natural n => .ok (Residue.ofNat n)
    | .negative n => .ok (Residue.ofSigned true n)
    | .text s => (Scalar.parse s).mapError fun e => invalid e.message
    | r => Codec.wrongType "an integer or an integer string" r
  write x := .text x.toHex

def canonicalScalar : Codec Scalar where
  read
    | .natural n => .ok (Residue.ofNat n)
    | .negative n => .error (.mismatch s!"negative field element: -{n}")
    | .text s => (Scalar.parseCanonical s).mapError fun e => invalid e.message
    | r => Codec.wrongType "a non-negative integer below the field modulus" r
  write x := .text x.toHex

/-- The scalar in a value taken out of its text, if there is one. -/
def plainScalar? (r : Reading) : Option Scalar := (scalar.read r).toOption

/-- An input under at most `room` levels of nesting: the whole value is read before it is looked
at, first as a scalar and then as a list of them. -/
def input (room : Nat) : Codec Input where
  read r :=
    if r.isUsable room then
      match plainScalar? r, (Codec.list scalar).read r with
      | some x, _ => .ok (.scalar x)
      | none, .ok xs => .ok (.array xs)
      | none, .error _ =>
        .error (.mismatch "data did not match any variant of untagged enum InputValue")
    else .error .malformed
  write
    | .scalar x => scalar.write x
    | .array xs => (Codec.list scalar).write xs

def readInputs (room : Nat) : Inputs → List (Reading × Reading) → Except Fault Inputs
  | m, [] => .ok m
  | m, (.text name, r) :: rest => do readInputs room (m.insert name (← (input room).read r)) rest
  | _, _ :: _ => .error .malformed

/-- A map of inputs; of several entries with one name the last counts. -/
def inputs (room : Nat) : Codec Inputs where
  read
    | .object members => readInputs room .empty members
    | r => Codec.wrongType "a map" r
  write m := .object (m.entries.map fun e => (e.1, (input room).write e.2))

/-- How deep a text may nest below its outermost value. -/
def maxNesting : Nat := 127

end Attest.Wire
