import Attest.Artifact.Setup
import Attest.CommandLine
import Attest.Groth16.Scheme
import Attest.Poseidon.Derived
import Attest.Service.Dispatch

/-! The program: settings from the environment, keys from disk, requests from
standard input.

A request is a line of JSON with `method`, `target` and, as needed,
`contentType` and `body`; its response is a line with `status` and `body`. -/
namespace Attest.Program
open Artifact Json Service

/-- A request as a line spells it. -/
structure RequestText where
  method : String
  target : String
  contentType : Option String
  body : String

def requestText : Codec RequestText :=
  Codec.record "Request"
    (.cons "method" .text none <| .cons "target" .text none <|
      .cons "contentType" (.optional .text) (some none) <| .cons "body" .text (some "") .nil)
    (fun (method, target, contentType, body, _) => { method, target, contentType, body })
    (fun r => (r.method, r.target, r.contentType, r.body, ()))

def requestOf? (line : String) : Option Request := do
  let r ← (requestText.ofText line).toOption
  Request.make? r.method r.target r.contentType (Bytes.ofText r.body.toList)

def responseLine (r : Response) : Json :=
  let body := match r.body with
    | .text s => .text s
    | .json j => j
  .object [("status", .natural r.status), ("body", body)]

/-- The names of the files that a store may hold, in the order in which a set-up writes them. -/
def storeFiles : List String :=
  (Predicate.all.flatMap fun p => [provingFile p, verifyingFile p]) ++ [manifestFile]

/-- The store's part of the disk; what is no file there is shown as a directory. -/
def readStore (s : Store) : IO Files := do
  let (made, base) := Files.empty.makeDirectories s.path
  IO.ofExcept (made.mapError FileError.message)
  storeFiles.foldlM (fun fs file => do
    let found : Except FileError Files ←
      try
        let bytes ← IO.FS.readBinFile (s.display file)
        let (written, fs) := fs.write (s.place file) bytes.toList
        pure (written.map fun _ => fs)
      catch
        | .noFileOrDirectory .. => pure (.ok fs)
        | _ => pure (fs.makeDirectory (s.place file))
    IO.ofExcept (found.mapError FileError.message)) base

/-- Writes the store's files that are not on disk as they should be. -/
def writeStore (s : Store) (before after : Files) : IO Unit := do
  IO.FS.createDirAll s.shown
  for file in storeFiles do
    match (before.read (s.place file)).toOption, after.read (s.place file) with
    | old, .ok bytes =>
      if old ≠ some bytes then IO.FS.writeBinFile (s.display file) ⟨bytes.toArray⟩
    | _, .error _ => pure ()

/-- Scalars that nobody else can tell. -/
def freshEntropy : IO Entropy := do
  let seed ← IO.getRandomBytes 64
  let key := Scalar.ofBytes seed.toList
  return fun i => Poseidon.standard.hash [key, Residue.ofNat i]

/-- The stamp for an answer that is ready, begun when the request came. Proving is timed from when
the files were read, and so takes in the decoding of a key that was not held. -/
def freshStamp (started proving : Nat) : IO Stamp := do
  let stopped ← IO.monoMsNow
  let id ← IO.getRandomBytes 16
  return { requestId := Text.Hex.toString id.toList, elapsedMs := stopped - started,
           provingMs := stopped - proving, time := toString stopped }

partial def serve (server : Server) (keys : Keyring Groth16.ProvingKey Groth16.VerifyingKey) :
    IO Unit := do
  let line ← (← IO.getStdin).getLine
  if line.isEmpty then return
  match requestOf? line with
  | none => IO.eprintln "a line is not a request"; serve server keys
  | some request =>
    let started ← IO.monoMsNow
    let files ← readStore server.store
    let proving ← IO.monoMsNow
    let (answer, keys) :=
      (server.respond groth16 Poseidon.standard files (← freshEntropy) request).run keys
    let response := server.send (← freshStamp started proving) answer
    IO.println (responseLine response).render
    (← IO.getStdout).flush
    serve server keys

def setup (settings : Settings) (force : Bool) : IO UInt32 := do
  let store := Store.ofDirectory settings.artifactDirectory
  let before ← readStore store
  let forThreshold ← freshEntropy
  let forMembership ← freshEntropy
  let entropy : Predicate → Entropy := fun
    | .threshold => forThreshold
    | .membership => forMembership
  let (result, after) :=
    (store.setup groth16 Poseidon.standard entropy settings.merkleDepth force).run.run before
  writeStore store before after
  match result with
  | .ok _ => return 0
  | .error f => IO.eprintln f.message; return 1

def readSettings : IO Settings := do
  let vars ← Settings.variableNames.mapM fun name => do return (name, ← IO.getEnv name)
  let settings := Settings.fromLookup fun name =>
    ((vars.find? fun v => v.1 == name).map Prod.snd).join
  for rejected in settings.rejected do
    IO.eprintln s!"ignoring invalid setting, using default: {rejected}"
  return settings

def usage : String := "usage: attest [serve | setup [--force]]"

def run (args : List String) : IO UInt32 := do
  match CommandLine.parse args with
  | .error .help => IO.println usage; return 0
  | .error .version => IO.println s!"attest {Predicate.version}"; return 0
  | .error _ => IO.eprintln usage; return 2
  | .ok (some (.setup force)) => setup (← readSettings) force
  | .ok _ =>
    match Server.start? (← readSettings) 2 with
    | none => IO.eprintln "too many proofs at a time"; return 1
    | some server => serve server .empty; return 0

end Attest.Program

def main (args : List String) : IO UInt32 := Attest.Program.run args
