import Attest.Files
import Attest.Proving.Scheme
import Attest.Wire.Material

/-! Keys on disk.

A store is a directory with a manifest and, for each predicate, a file for its
proving key and one for its verifying key. What is not there is reported as a
missing circuit and never made up for; a file that is there and cannot be read
is a fault of the disk. Nothing that was written is taken back when a later step
fails. -/
namespace Attest.Artifact
open Json

structure Store where
  path : Path
  /-- The directory's name in messages. -/
  shown : String

/-- Work on a tree of files, whose changes stay when it fails. -/
abbrev Disk := ExceptT Failure (StateM Files)

namespace Disk

/-- Changes the tree; what changed stays when that fails. -/
def change (f : Files → Except FileError Unit × Files) : Disk Unit := fun fs =>
  let (done, fs) := f fs
  return (done.mapError FileError.toFailure, fs)

end Disk

def manifestFile : String := "manifest.json"

def provingFile (p : Predicate) : String := s!"{p.fileStem}.pk.bin"

def verifyingFile (p : Predicate) : String := s!"{p.fileStem}.vk.bin"

/-- The store in a directory of that name. -/
def Store.ofDirectory (shown : String) : Store := ⟨Path.ofText shown, shown⟩

namespace Store
variable (s : Store)

/-- The path of a file in the store. -/
def place (file : String) : Path := s.path.child file

/-- The path of a file as shown in messages. -/
def display (file : String) : String := Path.join s.shown file

/-- Both key files of the predicate are there. -/
def hasBoth (fs : Files) (p : Predicate) : Bool :=
  fs.isFile (s.place (provingFile p)) && fs.isFile (s.place (verifyingFile p))

/-- Anything stands where one of the predicate's key files would. -/
def hasAny (fs : Files) (p : Predicate) : Bool :=
  fs.exists? (s.place (provingFile p)) || fs.exists? (s.place (verifyingFile p))

/-- A file's bytes; a missing one is a missing circuit, told by `missing`. -/
def readFile (fs : Files) (file : String) (missing : String → String) : Except Failure Bytes :=
  match fs.read (s.place file) with
  | .ok bytes => .ok bytes
  | .error .missing => .error (.circuitNotFound (missing s!"{s.display file} is missing"))
  | .error e => .error e.toFailure

def readKey (fs : Files) (p : Predicate) (file : String) : Except Failure Bytes :=
  s.readFile fs file fun reason => s!"{p.name}: {reason}"

def verifyingBytes (fs : Files) (p : Predicate) : Except Failure Bytes :=
  s.readKey fs p (verifyingFile p)

def decodeManifest (bytes : Bytes) : Except Failure Manifest :=
  (Wire.manifest.ofBytes bytes).mapError fun
    | .mismatch reason => .serialization reason
    | .malformed => .serialization "not a JSON text"

def manifest (fs : Files) : Except Failure Manifest := do
  decodeManifest (← s.readFile fs manifestFile id)

/-- The stored keys of a predicate were made for this configuration. -/
def check (fs : Files) (p : Predicate) (depth : Nat) : Except Failure Unit := do
  (← s.manifest fs).check p depth

def writeFile (file : String) (bytes : Bytes) : Disk Unit :=
  Disk.change fun fs => fs.write (s.place file) bytes

def makeDirectory : Disk Unit := Disk.change fun fs => fs.makeDirectories s.path

def writeManifest (m : Manifest) : Disk Unit := do
  s.makeDirectory
  s.writeFile manifestFile (Bytes.ofText (Wire.manifest.write m).pretty.toList)

variable {PK VK : Type} (S : Scheme PK VK)

def provingKey (fs : Files) (p : Predicate) : Except Failure PK := do
  S.readProvingKey (← s.readKey fs p (provingFile p))

def verifyingKey (fs : Files) (p : Predicate) : Except Failure VK := do
  S.readVerifyingKey (← s.verifyingBytes fs p)

def save (p : Predicate) (pk : PK) (vk : VK) : Disk Unit := do
  s.makeDirectory
  s.writeFile (provingFile p) (S.writeProvingKey pk)
  s.writeFile (verifyingFile p) (S.writeVerifyingKey vk)

end Store

end Attest.Artifact
