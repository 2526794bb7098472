import Attest.Inputs
import Attest.Memory

/-! Witnesses: inputs whose names and shapes have been checked.

`Witness.assemble` refuses names that the schema does not declare, then takes
each declared input in a fixed order; the first fault is reported. A membership
witness holds its path bits as truth values. -/
namespace Attest

structure ThresholdWitness where
  value : Scalar
  documentHash : Scalar
  commitment : Scalar
  threshold : Scalar
deriving DecidableEq

structure MembershipWitness where
  value : Scalar
  documentHash : Scalar
  siblings : List Scalar
  pathBits : List Bool
  root : Scalar
  commitment : Scalar
deriving DecidableEq

inductive Witness where
  | threshold (w : ThresholdWitness)
  | membership (w : MembershipWitness)
deriving DecidableEq

namespace Witness

/-- What is wrong with a set of inputs. -/
inductive Error where
  | unexpected (visibility : Visibility) (name : String) (predicate : Predicate)
  | missing (name : String)
  | notScalar (name : String)
  | notArray (name : String)
  | wrongLength (name : String) (expected got : Nat)
  | notBits (name : String)
deriving DecidableEq

def Error.message : Error → String
  | .unexpected visibility name predicate =>
    s!"unexpected {visibility.name} input `{name}` for {predicate.name}"
  | .missing name => s!"missing input `{name}`"
  | .notScalar name => s!"`{name}` must be a scalar"
  | .notArray name => s!"`{name}` must be an array"
  | .wrongLength name expected got => s!"`{name}` must have {expected} elements (got {got})"
  | .notBits name => s!"`{name}` entries must be 0 or 1"

def Error.toFailure (e : Error) : Failure := .proofGeneration s!"malformed witness: {e.message}"

/-- Finds the first name that the schema does not declare with that visibility. -/
def checkNames (p : Predicate) (depth : Nat) (visibility : Visibility) (inputs : Inputs) :
    Except Error Unit :=
  match inputs.names.find? fun name =>
    !(schema depth p).any fun s => s.name == name && s.visibility == visibility with
  | some name => .error (.unexpected visibility name p)
  | none => .ok ()

def takeScalar (inputs : Inputs) (name : String) : Except Error Scalar :=
  match inputs.get? name with
  | some (.scalar x) => .ok x
  | some (.array _) => .error (.notScalar name)
  | none => .error (.missing name)

def takeArray (inputs : Inputs) (name : String) (length : Nat) : Except Error (List Scalar) :=
  match inputs.get? name with
  | some (.array xs) =>
    if xs.length = length then .ok xs else .error (.wrongLength name length xs.length)
  | some (.scalar _) => .error (.notArray name)
  | none => .error (.missing name)

/-- A scalar that is zero or one as a truth value. -/
def bit? (x : Scalar) : Option Bool :=
  if x = 0 then some false else if x = 1 then some true else none

def takeBits (inputs : Inputs) (name : String) (length : Nat) : Except Error (List Bool) := do
  let xs ← takeArray inputs name length
  match xs.mapM bit? with
  | some bits => .ok bits
  | none => .error (.notBits name)

/-- Checks names and shapes and builds the witness. -/
def assemble (p : Predicate) (depth : Nat) (secret revealed : Inputs) : Except Error Witness := do
  checkNames p depth .secret secret
  checkNames p depth .revealed revealed
  match p with
  | .threshold =>
    return .threshold {
      value := ← takeScalar secret "value"
      documentHash := ← takeScalar secret "document_hash"
      commitment := ← takeScalar revealed "commitment"
      threshold := ← takeScalar revealed "threshold" }
  | .membership =>
    let pathBits ← takeBits secret "path_bits" depth
    return .membership {
      value := ← takeScalar secret "value"
      documentHash := ← takeScalar secret "document_hash"
      siblings := ← takeArray secret "siblings" depth
      pathBits
      root := ← takeScalar revealed "root"
      commitment := ← takeScalar revealed "commitment" }

/-- The witness of zeros, which has the shape of every other. -/
def blank (depth : Nat) : Predicate → Witness
  | .threshold => .threshold ⟨0, 0, 0, 0⟩
  | .membership =>
    .membership ⟨0, 0, List.replicate depth 0, List.replicate depth false, 0, 0⟩

/-- How many siblings a witness has. -/
def pathLength (depth : Nat) : Predicate → Nat
  | .threshold => 0
  | .membership => depth

/-- The witness of zeros, if there is room for its path. -/
def blank? (depth : Nat) (p : Predicate) : Option Witness :=
  if Memory.holds (pathLength depth p) Scalar.footprint then some (blank depth p) else none

def predicate : Witness → Predicate
  | .threshold _ => .threshold
  | .membership _ => .membership

/-- The public scalars, in the order in which the circuit takes them. -/
def publicSignals : Witness → List Scalar
  | .threshold w => [w.commitment, w.threshold]
  | .membership w => [w.root, w.commitment]

end Witness

end Attest
