import Attest.Service.Commitments
import Attest.Service.MediaType
import Attest.Service.Route
import Attest.Service.Server

/-! From a request to its answer.

A request is refused at the first of these that applies: no route has its path,
the route has another method, the circuit's name is no text, the body is not
read, the circuit is unknown; whatever else is wrong with it comes after. Any
page may ask what it may send: `OPTIONS` is answered whatever the path.

`Server.respond` says what the answer is, `Server.send` makes a response of it:
what came of proving is not sent when it took too long, proof or refusal. -/
namespace Attest.Service
open Json

/-- The largest body that is read, in bytes. -/
def maxBody : Nat := 2 * 1024 * 1024

def Request.readJson (r : Request) (c : Codec α) : Except Refusal α :=
  if !r.contentType.any MediaType.isJson then
    .error (.badRequest "Expected request with `Content-Type: application/json`")
  else if maxBody < r.body.length then
    .error (.badRequest "Failed to buffer the request body: length limit exceeded")
  else
    (c.ofPrefix r.body).mapError fun
      | .mismatch _ => .badRequest "Failed to deserialize the JSON body into the target type"
      | .malformed => .badRequest "Failed to parse the request body as JSON"

/-- The answer to a path whose circuit's name is no text. -/
def Response.badName : Response := ⟨400, .text "Invalid URL: Invalid UTF-8 in `circuit`"⟩

/-- What there is to send. -/
inductive Answer where
  | ready (r : Response)
  /-- What came of proving. -/
  | proved (outcome : Except Refusal GenerateReply)

namespace Answer

def json (j : Json) : Answer := .ready ⟨200, .json j⟩

def empty (status : Nat) : Answer := .ready (.empty status)

def refused (r : Refusal) : Answer := .ready r.respond

/-- The answer without its body. -/
def head : Answer → Answer
  | .ready r => .ready r.head
  | a => a

def ofResult : Except Refusal Answer → Answer
  | .ok a => a
  | .error r => refused r

end Answer

namespace Server
variable {PK VK : Type} (S : Scheme PK VK) (P : Poseidon.Params) (s : Server) (fs : Files)

/-- The predicate that a path names. -/
def named (name : String) : Except Refusal Predicate := (Predicate.parse name).mapError .ofFailure

/-- Reads the body, takes what the library says to it, and writes that. -/
def plainly (r : Request) (c : Codec α) (act : α → Except Failure β) (write : β → Json) : Answer :=
  .ofResult do
    let request ← r.readJson c
    ((act request).map fun x => Answer.json (write x)).mapError .ofFailure

def finish (h : Handler PK VK Answer) : StateM (Keyring PK VK) Answer :=
  Answer.ofResult <$> h.run

/-- Reads a body, and then the name of the circuit. -/
def handle (r : Request) (c : Codec α) (name : String)
    (act : Predicate → α → Handler PK VK Answer) : StateM (Keyring PK VK) Answer :=
  finish do
    let request ← ofExcept (r.readJson c)
    act (← ofExcept (named name)) request

/-- Answers a request on a route. -/
def answer (entropy : Entropy) (r : Request) : Route → StateM (Keyring PK VK) Answer
  | .health => return .ready ⟨200, .text "ok"⟩
  | .commitment =>
    return plainly r Wire.commitmentRequest (commitment P) Wire.commitmentReply
  | .allowListRoot =>
    return plainly r Wire.rootRequest (allowListRoot P s.settings.merkleDepth) Wire.rootReply
  | .allowListProof =>
    return plainly r Wire.inclusionRequest (allowListProof P s.settings.merkleDepth)
      Wire.inclusionReply
  | .generate (some name) =>
    handle r Wire.generateRequest name fun p request =>
      Answer.proved <$> s.generate S P fs entropy p request
  | .verify (some name) =>
    handle r Wire.verifyRequest name fun p request =>
      Answer.json <$> Wire.verifyReply <$> s.verify S fs p request
  | .verifyingKey (some name) =>
    finish do
      let p ← ofExcept (named name)
      Answer.json <$> Wire.keyReply <$> s.showKey S fs p
  | .generate none | .verify none | .verifyingKey none => return .ready .badName

/-- What there is to send for a request; the keys that it loads are kept. -/
def respond (entropy : Entropy) (r : Request) : StateM (Keyring PK VK) Answer :=
  if r.method = "OPTIONS" then return .empty 200
  else
    match Route.ofTarget? r.target with
    | none => return .empty 404
    | some route =>
      if r.method = route.method then s.answer S P fs entropy r route
      else if r.method = "HEAD" ∧ route.method = "GET" then
        Answer.head <$> s.answer S P fs entropy r route
      else return .empty 405

/-- The response to what came of proving in time. -/
def proofResponse (stamp : Stamp) : Except Refusal GenerateReply → Response
  | .ok reply => ⟨200, .json (Wire.generateReply stamp reply)⟩
  | .error r => r.respond

/-- The response to a request, unless proving took too long. -/
def send (stamp : Stamp) : Answer → Response
  | .ready r => r
  | .proved outcome =>
    if s.settings.timeoutMs < stamp.provingMs then Refusal.timeout.respond
    else proofResponse stamp outcome

/-- A request and its response. -/
def exchange (entropy : Entropy) (stamp : Stamp) (r : Request) :
    StateM (Keyring PK VK) Response :=
  s.send stamp <$> s.respond S P fs entropy r

end Server

end Attest.Service
