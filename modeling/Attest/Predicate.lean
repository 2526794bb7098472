import Attest.Failure

/-! What can be proved about a committed claim.

`threshold`: its value is at least a public bound. `membership`: its value's
leaf is in the tree with a public root. Each predicate has one circuit, one
pair of keys and one name. -/
namespace Attest

inductive Predicate where
  | threshold
  | membership
deriving DecidableEq, Inhabited

namespace Predicate

def all : List Predicate := [.threshold, .membership]

theorem mem_all (p : Predicate) : p ∈ all := by cases p <;> decide

def name : Predicate → String
  | .threshold => "claim_threshold"
  | .membership => "allow_list_membership"

/-- Stamped into everything derived from the circuits, and raised whenever they change. -/
def version : Nat := 1

/-- The stem of the names of the key files. -/
def fileStem (p : Predicate) : String := s!"{p.name}.v{version}"

/-- How many scalars of a statement are public. -/
def publicCount (_ : Predicate) : Nat := 2

def ofName? (s : String) : Option Predicate := all.find? fun p => p.name == s

/-- The predicate of that name. -/
def parse (s : String) : Except Failure Predicate :=
  match ofName? s with
  | some p => .ok p
  | none => .error (.circuitNotFound s)

end Predicate

end Attest
