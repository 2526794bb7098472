import Attest.Bn254

/-! Linear combinations of a circuit's variables.

A combination is a list of terms in the order of its variables, so that adding
two of them is a merge. Its value under an assignment is the sum of each
coefficient times its variable's value. -/
namespace Attest.Circuit

/-- The constant one, a public scalar or a private one, each numbered in order of allocation. -/
inductive Variable where
  | one
  | input (index : Nat)
  | witness (index : Nat)
deriving DecidableEq

namespace Variable

/-- The constant stands before the public scalars, and these before the private ones. -/
def before : Variable → Variable → Bool
  | one, one => false
  | one, _ => true
  | _, one => false
  | input i, input j => i < j
  | input _, witness _ => true
  | witness _, input _ => false
  | witness i, witness j => i < j

end Variable

/-- A value for every variable. -/
abbrev Assignment := Variable → Scalar

structure Combination where
  terms : List (Variable × Scalar)
deriving DecidableEq, Inhabited

namespace Combination

def ofTerm (v : Variable) (k : Scalar) : Combination := ⟨[(v, k)]⟩

def constant (k : Scalar) : Combination := ofTerm .one k

instance : Zero Combination := ⟨⟨[]⟩⟩

def merge : List (Variable × Scalar) → List (Variable × Scalar) → List (Variable × Scalar)
  | [], ys => ys
  | xs, [] => xs
  | (v, a) :: xs, (w, b) :: ys =>
    if v = w then (v, a + b) :: merge xs ys
    else if v.before w then (v, a) :: merge xs ((w, b) :: ys)
    else (w, b) :: merge ((v, a) :: xs) ys
termination_by xs ys => xs.length + ys.length

def scale (k : Scalar) (c : Combination) : Combination := ⟨c.terms.map fun t => (t.1, k * t.2)⟩

instance : Add Combination := ⟨fun a b => ⟨merge a.terms b.terms⟩⟩
instance : Sub Combination := ⟨fun a b => ⟨merge a.terms (b.scale (-1)).terms⟩⟩

def eval (value : Assignment) (c : Combination) : Scalar :=
  c.terms.foldr (fun t sum => t.2 * value t.1 + sum) 0

/-- The constant that a combination of no variable stands for. -/
def constant? (c : Combination) : Option Scalar :=
  match c.terms with
  | [] => some 0
  | [(.one, k)] => some k
  | _ => none

end Combination

end Attest.Circuit
