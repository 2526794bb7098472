import Attest.Bn254
import Attest.Predicate

/-! The named inputs of a proof.

An input is one scalar or a list of them. `Inputs` maps names to inputs and
keeps them in the order of their names, so two maps with the same entries are
equal. `schema` declares what each predicate's circuit takes. -/
namespace Attest

inductive Input where
  | scalar (x : Scalar)
  | array (xs : List Scalar)
deriving DecidableEq

/-- Names in ascending order, each with its input. -/
structure Inputs where
  entries : List (String × Input)
  ascending : entries.Pairwise fun a b => a.1 < b.1

namespace Inputs

theorem ext {a b : Inputs} (h : a.entries = b.entries) : a = b := by
  cases a; cases b; simp_all

def empty : Inputs := ⟨[], .nil⟩

/-- Puts an entry in its place among others, in the stead of one with its name. -/
def place (name : String) (x : Input) : List (String × Input) → List (String × Input)
  | [] => [(name, x)]
  | e :: rest =>
    if name < e.1 then (name, x) :: e :: rest
    else if name = e.1 then (name, x) :: rest
    else e :: place name x rest

theorem mem_place {name : String} {x : Input} {es : List (String × Input)} {e : String × Input}
    (h : e ∈ place name x es) : e = (name, x) ∨ e ∈ es := by
  induction es with
  | nil => simpa [place] using h
  | cons a rest ih =>
    simp only [place] at h
    split at h
    · simpa using h
    · split at h
      · rcases List.mem_cons.1 h with h | h
        · exact .inl h
        · exact .inr (List.mem_cons_of_mem _ h)
      · rcases List.mem_cons.1 h with h | h
        · exact .inr (h ▸ List.mem_cons_self ..)
        · exact (ih h).imp_right (List.mem_cons_of_mem _)

theorem place_ascending {name : String} {x : Input} {es : List (String × Input)}
    (h : es.Pairwise fun a b => a.1 < b.1) : (place name x es).Pairwise fun a b => a.1 < b.1 := by
  induction es with
  | nil => simp [place]
  | cons a rest ih =>
    obtain ⟨ha, hrest⟩ := List.pairwise_cons.1 h
    simp only [place]
    split
    · next hlt =>
      refine List.pairwise_cons.2 ⟨fun e he => ?_, h⟩
      rcases List.mem_cons.1 he with rfl | he
      · exact hlt
      · exact String.lt_trans hlt (ha e he)
    · next hnlt =>
      split
      · next heq => exact List.pairwise_cons.2 ⟨fun e he => heq ▸ ha e he, hrest⟩
      · next hne =>
        refine List.pairwise_cons.2 ⟨fun e he => ?_, ih hrest⟩
        rcases mem_place he with rfl | he
        · exact Std.lt_of_le_of_ne (String.not_lt.1 hnlt) (Ne.symm hne)
        · exact ha e he

/-- The map with one more entry, which replaces one of its name. -/
def insert (m : Inputs) (name : String) (x : Input) : Inputs :=
  ⟨place name x m.entries, place_ascending m.ascending⟩

def ofList (es : List (String × Input)) : Inputs :=
  es.foldl (fun m e => m.insert e.1 e.2) empty

def names (m : Inputs) : List String := m.entries.map Prod.fst

def get? (m : Inputs) (name : String) : Option Input :=
  (m.entries.find? fun e => e.1 == name).map Prod.snd

end Inputs

/-- Who sees an input. -/
inductive Visibility where
  | secret
  | revealed
deriving DecidableEq

def Visibility.name : Visibility → String
  | .secret => "Private"
  | .revealed => "Public"

inductive Arity where
  | scalar
  | array (length : Nat)
deriving DecidableEq

def Arity.name : Arity → String
  | .scalar => "Scalar"
  | .array n => s!"Array({n})"

structure InputSpec where
  name : String
  visibility : Visibility
  arity : Arity
deriving DecidableEq

/-- The inputs that a predicate's circuit takes, for trees of the given depth. -/
def schema (depth : Nat) : Predicate → List InputSpec
  | .threshold =>
    [⟨"value", .secret, .scalar⟩, ⟨"document_hash", .secret, .scalar⟩,
      ⟨"commitment", .revealed, .scalar⟩, ⟨"threshold", .revealed, .scalar⟩]
  | .membership =>
    [⟨"value", .secret, .scalar⟩, ⟨"document_hash", .secret, .scalar⟩,
      ⟨"siblings", .secret, .array depth⟩, ⟨"path_bits", .secret, .array depth⟩,
      ⟨"root", .revealed, .scalar⟩, ⟨"commitment", .revealed, .scalar⟩]

end Attest
