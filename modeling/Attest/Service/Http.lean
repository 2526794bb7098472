import Attest.Bytes
import Attest.Failure
import Attest.Json.Value
import Attest.Service.MediaType
import Attest.Service.Target

/-! Requests, responses, and the refusals that become responses.

A refusal has a status and a reason; the reason is all that its body holds. A
fault of the service's own is not explained to the caller. -/
namespace Attest.Service

structure Request where
  method : String
  target : Target
  contentType : Option String
  body : Bytes

/-- A request from its texts, unless one of them cannot be sent: a method is a token, a target has
its form, and no control character but a tab stands in a content type. -/
def Request.make? (method target : String) (contentType : Option String) (body : Bytes) :
    Option Request :=
  let isToken := !method.isEmpty && method.toList.all MediaType.isTokenChar
  let isField := contentType.all fun s =>
    s.toList.all fun c => (' ' ≤ c && c ≠ '\x7f') || c == '\t'
  match isToken && isField, Target.parse target with
  | true, some target => some { method, target, contentType, body }
  | _, _ => none

inductive Body where
  | text (s : String)
  | json (j : Json)

structure Response where
  status : Nat
  body : Body

def Response.empty (status : Nat) : Response := ⟨status, .text ""⟩

/-- An answer without its body. -/
def Response.head (r : Response) : Response := .empty r.status

inductive Refusal where
  | badRequest (reason : String)
  | notFound (reason : String)
  | unprocessable (reason : String)
  | timeout
  | fault
deriving DecidableEq

namespace Refusal

def status : Refusal → Nat
  | badRequest _ => 400
  | notFound _ => 404
  | unprocessable _ => 422
  | fault => 500
  | timeout => 504

/-- What the caller is told. -/
def reason : Refusal → String
  | badRequest s | notFound s | unprocessable s => s
  | timeout => "proof generation timed out"
  | fault => "internal error"

/-- What an operator is told. -/
def message : Refusal → String
  | badRequest s => s!"bad request: {s}"
  | notFound s => s!"not found: {s}"
  | unprocessable s => s!"unprocessable: {s}"
  | timeout => "proof generation timed out"
  | fault => "internal error"

def body (r : Refusal) : Json := .object [("error", .text r.reason)]

def respond (r : Refusal) : Response := ⟨r.status, .json r.body⟩

/-- Who is to blame for a failure. -/
def ofFailure (f : Failure) : Refusal :=
  match f with
  | .invalidInput _ | .malformedProof _ => badRequest f.message
  | .notFound | .circuitNotFound _ => notFound f.message
  | .capacityExceeded .. | .proofGeneration _ => unprocessable f.message
  | .hashSetup _ | .serialization _ | .io _ | .exhausted => fault

end Refusal

end Attest.Service
