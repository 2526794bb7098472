import Attest.Bytes
import Attest.Service.Target
import Attest.Text.Hex

/-! What a request's target names.

A path is matched segment by segment; one segment may be the name of a circuit,
empty or not, in which `%` and two hexadecimal digits stand for a byte. Each route answers one
method, and a route that answers `GET` answers `HEAD` as well. -/
namespace Attest.Service

/-- A circuit's name as it stands in a path; nothing if its bytes spell no text. -/
abbrev NameSegment := Option String

inductive Route where
  | health
  | commitment
  | allowListRoot
  | allowListProof
  | generate (circuit : NameSegment)
  | verify (circuit : NameSegment)
  | verifyingKey (circuit : NameSegment)
deriving DecidableEq

namespace Route

/-- The bytes of a segment; a `%` without two digits after it stands for itself. -/
def unescape : Bytes → Bytes
  | 0x25 :: high :: low :: rest =>
    match Text.Hex.nibble? high, Text.Hex.nibble? low with
    | some h, some l => UInt8.ofNat (16 * h + l) :: unescape rest
    | _, _ => 0x25 :: unescape (high :: low :: rest)
  | b :: rest => b :: unescape rest
  | [] => []
termination_by bs => bs.length

def segmentName (segment : String) : NameSegment :=
  Bytes.toText? (unescape (Bytes.ofText segment.toList))

/-- The route of a path cut at its slashes. -/
def ofSegments? : List String → Option Route
  | ["", "health"] => some health
  | ["", "api", "v1", "claims", "commitment"] => some commitment
  | ["", "api", "v1", "allowlists", "root"] => some allowListRoot
  | ["", "api", "v1", "allowlists", "proof"] => some allowListProof
  | ["", "api", "v1", "proofs", name, "generate"] => some (generate (segmentName name))
  | ["", "api", "v1", "proofs", name, "verify"] => some (verify (segmentName name))
  | ["", "api", "v1", "circuits", name, "vk"] => some (verifyingKey (segmentName name))
  | _ => none

def ofTarget? (target : Target) : Option Route := ofSegments? (target.path.splitOn "/")

/-- The method that the route answers. -/
def method : Route → String
  | health | verifyingKey _ => "GET"
  | _ => "POST"

end Route

end Attest.Service
