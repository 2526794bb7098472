import Attest.Bytes
import Attest.Failure
import Attest.Path

/-! A tree of files, as a value.

`Files.entry?` is the whole of what a tree shows: for each place a file's bytes,
a directory, or nothing. `Files.resolve` follows a path to a place, and the
operations after it answer as a disk would, and say why when they refuse. Two
of them change the tree also when they fail: of the directories that
`makeDirectories` made on the way each one stays, and a file that `write` had
begun may be left with anything in it.

A disk refuses changes for more than a tree can tell, such as want of room or of
permission. Where it does so and what it leaves is `Files.faults`, about which
nothing is assumed. One fault for a place stands for trouble at any time, as a
set-up makes no change twice and ends with the first that fails. What is left
out: permission to read and to look, which is never wanting, and links, so that
a change at one place is seen at no other. -/
namespace Attest

/-- Names from the root down. -/
abbrev Place := List String

inductive Entry where
  | file (bytes : Bytes)
  | directory
deriving DecidableEq

/-- Why a tree refuses an operation. -/
inductive FileError where
  | missing
  | isDirectory
  | notDirectory
  | occupied
  | badName
  | fault (reason : String)
deriving DecidableEq

def FileError.message : FileError → String
  | .missing => "no such file or directory"
  | .isDirectory => "is a directory"
  | .notDirectory => "not a directory"
  | .occupied => "file exists"
  | .badName => "invalid file name"
  | .fault reason => reason

def FileError.toFailure (e : FileError) : Failure := .io e.message

/-- A change that is not made although the tree allows it. -/
structure FileFault where
  /-- Why, in the words of the disk. -/
  reason : String
  /-- What is in the file afterwards, if writing it had begun. -/
  left : Option Bytes

structure Files where
  /-- What stands below the root, at most one entry for a place. -/
  below : List (Place × Entry)
  /-- The places where a change fails. -/
  faults : Place → Option FileFault

namespace Files

/-- A disk without faults, on which this stands. -/
def ofEntries (below : List (Place × Entry)) : Files := ⟨below, fun _ => none⟩

def empty : Files := ofEntries []

/-- What stands at a place; the root is a directory. -/
def entry? (fs : Files) (p : Place) : Option Entry :=
  if p = [] then some .directory else (fs.below.find? fun e => e.1 == p).map Prod.snd

/-- The tree with an entry at a place below the root. -/
def put (fs : Files) (p : Place) (e : Entry) : Files :=
  { fs with below := (p, e) :: fs.below.filter fun e => e.1 != p }

def erase (fs : Files) (p : Place) : Files :=
  { fs with below := fs.below.filter fun e => e.1 != p }

/-! ### Following paths -/

/-- The place has to be a directory. -/
def enter (fs : Files) (here : Place) : Except FileError Unit :=
  match fs.entry? here with
  | none => .error .missing
  | some (.file _) => .error .notDirectory
  | some .directory => .ok ()

/-- One step from a place, which has to be a directory unless the step is none at all. -/
def follow (fs : Files) (here : Place) : Path.Step → Except FileError Place
  | .skip => .ok here
  | .stay => do
    fs.enter here
    return here
  | .up => do
    fs.enter here
    return here.dropLast
  | .into name => do
    fs.enter here
    if name.utf8ByteSize ≤ Path.maxName then return here ++ [name] else throw .badName

/-- The place that a path leads to; there may be nothing there. -/
def resolve (fs : Files) (p : Path) : Except FileError Place :=
  if p.isValid then p.steps.foldlM fs.follow [] else .error .badName

/-- What a path leads to, and where. -/
def find (fs : Files) (p : Path) : Except FileError (Place × Entry) := do
  let place ← fs.resolve p
  match fs.entry? place with
  | none => throw .missing
  | some (.file bytes) => if p.slash then throw .notDirectory else return (place, .file bytes)
  | some .directory => return (place, .directory)

def isFile (fs : Files) (p : Path) : Bool :=
  match fs.find p with
  | .ok (_, .file _) => true
  | _ => false

def isDirectory (fs : Files) (p : Path) : Bool :=
  match fs.find p with
  | .ok (_, .directory) => true
  | _ => false

def exists? (fs : Files) (p : Path) : Bool := (fs.find p).isOk

/-! ### Operations -/

def read (fs : Files) (p : Path) : Except FileError Bytes := do
  match ← fs.find p with
  | (_, .file bytes) => return bytes
  | (_, .directory) => throw .isDirectory

/-- The place that a file may be written to, in a directory that is there. -/
def filePlace (fs : Files) (p : Path) : Except FileError Place := do
  let place ← fs.resolve p
  if fs.entry? place = some .directory ∨ p.slash then throw .isDirectory
  return place

/-- Opens a file, empties it and writes it. Where that fails on the way, the file is left with
anything. -/
def write (fs : Files) (p : Path) (bytes : Bytes) : Except FileError Unit × Files :=
  match fs.filePlace p with
  | .error e => (.error e, fs)
  | .ok place =>
    match fs.faults place with
    | none => (.ok (), fs.put place (.file bytes))
    | some ⟨reason, none⟩ => (.error (.fault reason), fs)
    | some ⟨reason, some left⟩ => (.error (.fault reason), fs.put place (.file left))

/-- Removes a file. -/
def remove (fs : Files) (p : Path) : Except FileError Files := do
  match ← fs.find p with
  | (place, .file _) => return fs.erase place
  | (_, .directory) => throw .isDirectory

/-- Makes a directory in one that is there. -/
def makeDirectory (fs : Files) (p : Path) : Except FileError Files := do
  let place ← fs.resolve p
  match fs.entry? place, fs.faults place with
  | some _, _ => throw .occupied
  | none, some fault => throw (.fault fault.reason)
  | none, none => return fs.put place .directory

/-- Sees to it that a directory is there. -/
def ensureDirectory (fs : Files) (p : Path) : Except FileError Files :=
  match fs.makeDirectory p with
  | .ok fs => .ok fs
  | .error e => if fs.isDirectory p then .ok fs else .error e

/-- Sees to it that a directory is there, and before it those that it is wanting in. -/
def makeDirectories (fs : Files) (p : Path) : Except FileError Unit × Files :=
  match fs.ensureDirectory p with
  | .ok fs => (.ok (), fs)
  | .error .missing =>
    match _h : p.parent? with
    | none => (.error .missing, fs)
    | some parent =>
      match fs.makeDirectories parent with
      | (.error e, fs) => (.error e, fs)
      | (.ok (), fs) =>
        match fs.ensureDirectory p with
        | .ok fs => (.ok (), fs)
        | .error e => (.error e, fs)
  | .error e => (.error e, fs)
termination_by p.steps.length
decreasing_by exact Path.length_parent ‹_›

/-- The names in a directory, in ascending order. -/
def names (fs : Files) (p : Path) : Except FileError (List String) := do
  match ← fs.find p with
  | (place, .directory) =>
    let inside := fs.below.filterMap fun e => if e.1.dropLast = place then e.1.getLast? else none
    return inside.mergeSort fun a b => decide (a ≤ b)
  | (_, .file _) => throw .notDirectory

end Files

end Attest
