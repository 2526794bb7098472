/-! Paths as they are written.

A path is the list of steps between its slashes: into a name, up, nowhere, or
nothing where two slashes meet. What it leads to is for a tree of files to say
(`Files.resolve`), since a step up from a name that is not there leads nowhere;
so the steps are kept as they stand, and with them the length of the text. -/
namespace Attest

inductive Path.Step where
  /-- Nothing between two slashes, or before the first, or after the last. -/
  | skip
  | stay
  | up
  | into (name : String)
deriving DecidableEq

structure Path where
  steps : List Path.Step
deriving DecidableEq

namespace Path

def stepOf (name : String) : Step :=
  if name = "" then .skip else if name = "." then .stay else if name = ".." then .up
  else .into name

def ofText (s : String) : Path := ⟨(s.splitOn "/").map stepOf⟩

/-- The text of a path that starts in a directory; one from the root stands for itself. -/
def join (directory path : String) : String :=
  if path.startsWith "/" || directory.isEmpty then path
  else if directory.endsWith "/" then directory ++ path
  else s!"{directory}/{path}"

/-- A slash stands at the end, as after a directory. -/
def slash (p : Path) : Bool := p.steps.getLast? == some .skip

/-- The path of a name in the directory at `p`. -/
def child (p : Path) (name : String) : Path :=
  ⟨(if p.slash then p.steps.dropLast else p.steps) ++ [.into name]⟩

/-- A step that goes nowhere. -/
def Step.rests : Step → Bool
  | .skip | .stay => true
  | .up | .into _ => false

/-- The path up to its last step; steps that go nowhere are dropped with it. -/
def parent? (p : Path) : Option Path :=
  match p.steps.reverse.dropWhile Step.rests with
  | [] => none
  | _ :: before => some ⟨(before.dropWhile Step.rests).reverse⟩

theorem length_parent {p q : Path} (h : p.parent? = some q) : q.steps.length < p.steps.length := by
  unfold parent? at h
  split at h
  · cases h
  · next step before hs =>
    cases h
    have hp := (List.dropWhile_sublist (l := p.steps.reverse) Step.rests).length_le
    have hq := (List.dropWhile_sublist (l := before) Step.rests).length_le
    simp only [hs, List.length_cons, List.length_reverse] at hp
    simpa using Nat.lt_of_le_of_lt hq hp

def Step.size : Step → Nat
  | .skip => 0
  | .stay => 1
  | .up => 2
  | .into name => name.utf8ByteSize

/-- The bytes of the path's text, with a slash between every two steps. -/
def size (p : Path) : Nat := p.steps.foldl (fun n s => n + s.size + 1) 0 - 1

/-- The longest path, in bytes. -/
def maxSize : Nat := 4095

/-- The longest name, in bytes. -/
def maxName : Nat := 255

/-- No name on the path holds a null character, and the path is not too long. -/
def isValid (p : Path) : Bool :=
  p.size ≤ maxSize && p.steps.all fun
    | .into name => !name.toList.contains '\x00'
    | _ => true

end Path

end Attest
