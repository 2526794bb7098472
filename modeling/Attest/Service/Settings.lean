import Attest.Merkle.Tree
import Attest.Text.Blank
import Attest.Text.Digits

/-! What the service is told by its environment.

Every variable is trimmed, and a blank one counts as unset. An unset variable
has its default; so has a number that cannot be read or is out of range, which
is then listed as rejected, so that nothing is dropped in silence. -/
namespace Attest.Service

inductive LogFormat where
  | pretty
  | json
deriving DecidableEq

def LogFormat.name : LogFormat → String
  | .pretty => "Pretty"
  | .json => "Json"

/-- `json` in letters of either case; anything else is pretty. -/
def LogFormat.parse (s : String) : LogFormat :=
  if s.toList.map Char.toLower = "json".toList then .json else .pretty

structure Settings where
  address : String
  artifactDirectory : String
  /-- How many proofs are made at a time; as many as there are cores when it is not given. -/
  concurrency : Option Nat
  timeoutMs : Nat
  merkleDepth : Nat
  logFormat : LogFormat
  /-- The variables that were set and not used. -/
  rejected : List String
deriving DecidableEq

namespace Settings

/-- An unsigned number of 64 bits in decimal digits, with or without a plus sign. -/
def number? (s : String) : Option Nat := do
  let digits := match s.toList with
    | '+' :: rest => rest
    | cs => cs
  if digits.isEmpty then none
  else
    let n := Text.value 10 (← Text.digits? 10 digits)
    if n < UInt64.size then some n else none

def addressVariable : String := "BACKEND_ADDR"

def directoryVariable : String := "ATTEST_ARTIFACT_DIR"

def logFormatVariable : String := "ATTEST_LOG_FORMAT"

/-- A numeric variable and the numbers it may hold. -/
structure Variable where
  name : String
  admits : Nat → Bool

def concurrencyVariable : Variable := ⟨"ATTEST_PROVING_CONCURRENCY", fun n => 0 < n⟩

def timeoutVariable : Variable := ⟨"ATTEST_PROOF_TIMEOUT_MS", fun n => 0 < n⟩

def depthVariable : Variable := ⟨"ATTEST_MERKLE_DEPTH", fun n => 1 ≤ n && n ≤ Merkle.maxDepth⟩

namespace Variable

/-- The number that a set variable holds, if it is one that it may hold. -/
def read? (v : Variable) (raw : String) : Option Nat := (number? raw).filter v.admits

def value? (v : Variable) (raw : Option String) : Option Nat := raw.bind v.read?

/-- The variable as listed when it was set and cannot be used. -/
def rejection? (v : Variable) (raw : Option String) : Option String :=
  match raw with
  | none => none
  | some raw => if (v.read? raw).isNone then some s!"{v.name}={raw}" else none

end Variable

/-- A variable's trimmed text, unless there is none. -/
def setting? (lookup : String → Option String) (name : String) : Option String := do
  let trimmed := Text.trim (← lookup name).toList
  if trimmed.isEmpty then none else some (String.ofList trimmed)

def defaultDepth : Nat := 16

/-- Every variable that is looked up. -/
def variableNames : List String :=
  [addressVariable, directoryVariable, concurrencyVariable.name, timeoutVariable.name,
    depthVariable.name, logFormatVariable]

def fromLookup (lookup : String → Option String) : Settings :=
  let text := setting? lookup
  let concurrency := text concurrencyVariable.name
  let timeout := text timeoutVariable.name
  let depth := text depthVariable.name
  { address := (text addressVariable).getD "127.0.0.1:8080"
    artifactDirectory := (text directoryVariable).getD "data/circuits"
    concurrency := concurrencyVariable.value? concurrency
    timeoutMs := (timeoutVariable.value? timeout).getD 30000
    merkleDepth := (depthVariable.value? depth).getD defaultDepth
    logFormat := ((text logFormatVariable).map LogFormat.parse).getD .pretty
    rejected := [concurrencyVariable.rejection? concurrency, timeoutVariable.rejection? timeout,
      depthVariable.rejection? depth].filterMap id }

end Settings

end Attest.Service
