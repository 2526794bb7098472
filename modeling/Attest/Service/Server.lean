import Attest.Service.Http
import Attest.Service.Keyring
import Attest.Service.Messages
import Attest.Service.Settings

/-! A running service, and what it does with keys.

A server is fixed when it starts; what changes from request to request is its
keyring. A proof is made only with a permit, and is handed out only when it has
been verified with the key that made it. -/
namespace Attest.Service
open Artifact

/-- A service as it was started. -/
structure Server where
  settings : Settings
  store : Store
  /-- How many proofs are made at a time. -/
  permits : Nat

/-- The most proofs that can be allowed at a time. -/
def maxPermits : Nat := (UInt64.size - 1) / 8

/-- The service with these settings on a machine with so many cores, unless it would have to count
more permits than can be counted. -/
def Server.start? (settings : Settings) (cores : Nat) : Option Server :=
  let permits := settings.concurrency.getD cores
  if permits ≤ maxPermits then
    some { settings, store := .ofDirectory settings.artifactDirectory, permits }
  else none

/-- Work that may load keys and may refuse the request. -/
abbrev Handler (PK VK : Type) := ExceptT Refusal (StateM (Keyring PK VK))

namespace Server
variable {PK VK : Type} (S : Scheme PK VK) (P : Poseidon.Params) (s : Server) (fs : Files)

def provingKey (p : Predicate) : Handler PK VK PK :=
  (Keyring.provingKey S s.store s.settings.merkleDepth fs p).adapt .ofFailure

def verifyingKey (p : Predicate) : Handler PK VK (StoredKey VK) :=
  (Keyring.verifyingKey S s.store s.settings.merkleDepth fs p).adapt .ofFailure

/-- Makes a proof and verifies it; where no permit is ever given, time runs out. -/
def attest (entropy : Entropy) (p : Predicate) (key : PK) (r : GenerateRequest) :
    Except Refusal GenerateReply :=
  if s.permits = 0 then .error .timeout
  else
    match (S.pipeline P p s.settings.merkleDepth key entropy).generate r.secret r.revealed with
    | none => .error .fault
    | some (.error f) => .error (.ofFailure f)
    | some (.ok a) =>
      ((Calldata.ofBytes a.proof a.publicSignals).map (GenerateReply.mk p a)).mapError .ofFailure

/-- What comes of proving; a request is refused before that for want of a key. -/
def generate (entropy : Entropy) (p : Predicate) (r : GenerateRequest) :
    Handler PK VK (Except Refusal GenerateReply) := do
  let key ← s.provingKey S fs p
  return s.attest S P entropy p key r

/-- The key is asked for only when the proof's text spells bytes. -/
def verify (p : Predicate) (r : VerifyRequest) : Handler PK VK Bool :=
  match Text.Base64.decode? r.proof.toList with
  | none => throw (.badRequest "invalid proof base64")
  | some proof => do
    let stored ← s.verifyingKey S fs p
    ofExcept ((S.verify stored.key proof r.publicSignals).mapError .ofFailure)

def showKey (p : Predicate) : Handler PK VK KeyReply := do
  return { predicate := p, key := (← s.verifyingKey S fs p).bytes }

end Server

end Attest.Service
