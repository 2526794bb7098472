import Attest.Groth16.Keys
import Attest.Json.Codec
import Attest.Scalar.Encoding

/-! Proofs as arguments of an on-chain verifier.

The arguments are words of 32 bytes: the coordinates of the proof's points and
then the public scalars. A coordinate of the second group has its imaginary
part first, and a point at infinity is all zeros. One list of words is shown in
three ways: as plain bytes, as the bracketed text that contract tools read, and
as JSON. -/
namespace Attest
open Bn254

/-- A big-endian word of 32 bytes. -/
abbrev Word := Bytes

structure Calldata where
  a : List Word
  b : List (List Word)
  c : List Word
  inputs : List Word
deriving DecidableEq

namespace Calldata

def word (x : Base) : Word := Bytes.ofNatBE 32 x.val

def twin (x : Quadratic) : List Word := [word x.im, word x.re]

def firstGroup : G1 → List Word
  | .infinity => [word 0, word 0]
  | .affine x y => [word x, word y]

def secondGroup : G2 → List (List Word)
  | .infinity => [twin 0, twin 0]
  | .affine x y => [twin x, twin y]

def ofProof (p : Groth16.Proof) (signals : List Scalar) : Calldata where
  a := firstGroup p.a
  b := secondGroup p.b
  c := firstGroup p.c
  inputs := signals.map Scalar.toBytes

/-- The arguments for a proof given by its bytes. -/
def ofBytes (proof : Bytes) (signals : List Scalar) : Except Failure Calldata :=
  (Groth16.Proof.ofBytes proof).map (ofProof · signals)

/-- All words in the order of the arguments. -/
def words (d : Calldata) : List Word := d.a ++ d.b.flatten ++ d.c ++ d.inputs

/-- The arguments as a contract receives them, without a selector. -/
def toBytes (d : Calldata) : Bytes := d.words.flatten

def wordText (w : Word) : String := String.ofList ('0' :: 'x' :: Text.Hex.encode w)

/-- Words quoted, between brackets. -/
def bracketed (ws : List Word) : String :=
  "[" ++ ",".intercalate (ws.map fun w => "\"" ++ wordText w ++ "\"") ++ "]"

/-- The arguments as contract tools read them. -/
def toArguments (d : Calldata) : String :=
  ",".intercalate
    [bracketed d.a, "[" ++ ",".intercalate (d.b.map bracketed) ++ "]", bracketed d.c,
      bracketed d.inputs]

end Calldata

/-- The words of a call as texts. -/
structure CalldataText where
  a : List String
  b : List (List String)
  c : List String
  inputs : List String
deriving DecidableEq

def Calldata.toText (d : Calldata) : CalldataText where
  a := d.a.map wordText
  b := d.b.map fun ws => ws.map wordText
  c := d.c.map wordText
  inputs := d.inputs.map wordText

end Attest
