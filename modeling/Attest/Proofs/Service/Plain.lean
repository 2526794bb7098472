import Attest.Proofs.Json.Spelling
import Attest.Proofs.Service.Errand
import Attest.Proofs.Service.Route

/-! Requests that are answered from their body alone.

On a route without keys the answer is what the library says to the body that was read
(`Server.answers_outcome`), and a body that is not read is refused (`Server.answers_refused`): the
disk, the keys, the time and the entropy have no part in it. -/
namespace Attest.Service
open Json

/-- The request posts JSON to a route, not too long, that begins with a value of some kind. -/
structure Request.Posts (r : Request) (route : Route) (asks : Reading → Prop) : Prop where
  method : r.method = "POST"
  route : Route.ofTarget? r.target = some route
  type : r.contentType.any MediaType.isJson
  length : r.body.length ≤ maxBody
  asks : asks (Reading.ofBytes r.body).1

/-- The request that posts a JSON text. -/
def Request.posting (path : String) (body : Json) : Request where
  method := "POST"
  target := ⟨path⟩
  contentType := some "application/json"
  body := Bytes.ofText body.render.toList

theorem Request.body_posting (path : String) (body : Json) :
    (posting path body).body = Bytes.ofText body.renderChars := by
  rw [posting, render, String.toList_ofList]

/-- What a posted text is read as is what its characters are. -/
theorem Request.readJson_posting_ne_ok {α : Type} {c : Codec α} (path : String) {body : Json}
    (h : ∀ x, c.read (Reading.ofChars body.renderChars).1 ≠ .ok x) (x : α) :
    (posting path body).readJson c ≠ .ok x := by
  intro hread
  have hprefix := ((posting path body).readJson_eq_ok_iff.mp hread).2.2
  rw [Codec.ofPrefix, body_posting, Reading.ofBytes_ofText] at hprefix
  exact h x hprefix

theorem Request.posts_posting {path : String} {body : Json} {route : Route}
    {asks : Reading → Prop} (hroute : Route.ofTarget? ⟨path⟩ = some route)
    (hrange : (Reading.ofJson body).InRange)
    (hlength : (Bytes.ofText body.renderChars).length ≤ maxBody)
    (hasks : asks (Reading.ofJson body)) : (posting path body).Posts route asks := by
  refine ⟨rfl, hroute, rfl, ?_, ?_⟩
  · rwa [body_posting]
  · rw [posting, Reading.ofBytes_render hrange]
    exact hasks

/-- The response to what the library says. -/
def Response.ofOutcome : Except Failure Json → Response
  | .ok j => ⟨200, .json j⟩
  | .error f => (Refusal.ofFailure f).respond

namespace Server
variable {PK VK : Type} (S : Scheme PK VK) (P : Poseidon.Params) (s : Server) {r : Request}

/-- The request is answered so whatever is on the disk and whatever keys are held, and no key is
loaded. -/
def Answers (r : Request) (response : Response) : Prop :=
  ∀ fs entropy stamp keys, (s.exchange S P fs entropy stamp r).run keys = (response, keys)

/-- What a route without keys does with a body. -/
structure Plain (route : Route) (c : Codec α) (act : α → Except Failure β) (write : β → Json) :
    Prop where
  method : route.method = "POST"
  errandOn : ∀ (entropy : Entropy) (r : Request),
    s.errandOn S P entropy r route = .plain (plainly r c act write)

theorem commitment_plain :
    s.Plain S P .commitment Wire.commitmentRequest (commitment P) Wire.commitmentReply :=
  ⟨rfl, fun _ _ => rfl⟩

theorem allowListRoot_plain : s.Plain S P .allowListRoot Wire.rootRequest
    (allowListRoot P s.settings.merkleDepth) Wire.rootReply :=
  ⟨rfl, fun _ _ => rfl⟩

theorem allowListProof_plain : s.Plain S P .allowListProof Wire.inclusionRequest
    (allowListProof P s.settings.merkleDepth) Wire.inclusionReply :=
  ⟨rfl, fun _ _ => rfl⟩

variable {α β : Type} {route : Route} {c : Codec α} {act : α → Except Failure β}
  {write : β → Json} {S P s}

theorem answers_plainly (h : s.Plain S P route c act write) {response : Response}
    (hmethod : r.method = "POST") (hroute : Route.ofTarget? r.target = some route)
    (hplainly : plainly r c act write = .ready response) : s.Answers S P r response := by
  intro fs entropy stamp keys
  rw [exchange_run, s.errand_of_method S P entropy hroute (hmethod.trans h.method.symm),
    h.errandOn, hplainly]
  rfl

/-- **A body that is read is answered by what the library says to it.** -/
theorem answers_outcome (h : s.Plain S P route c act write) {asks : Reading → Prop}
    (hr : r.Posts route asks) {x : α} (hread : c.read (Reading.ofBytes r.body).1 = .ok x) :
    s.Answers S P r (.ofOutcome ((act x).map write)) := by
  have hbody : r.readJson c = .ok x := r.readJson_eq_ok_iff.mpr ⟨hr.type, hr.length, hread⟩
  refine answers_plainly h hr.method hr.route ?_
  rw [plainly, hbody]
  show Answer.ofResult (((act x).map fun y => Answer.json (write y)).mapError .ofFailure) = _
  cases act x <;> rfl

/-- **A body that is not read is refused.** -/
theorem answers_refused (h : s.Plain S P route c act write) (hmethod : r.method = "POST")
    (hroute : Route.ofTarget? r.target = some route) (hread : ∀ x, r.readJson c ≠ .ok x) :
    ∃ response : Response, response.status = 400 ∧ s.Answers S P r response := by
  cases hbody : r.readJson c with
  | ok x => exact absurd hbody (hread x)
  | error e =>
    refine ⟨e.respond, r.status_of_readJson hbody, answers_plainly h hmethod hroute ?_⟩
    rw [plainly, hbody]
    rfl

end Server

end Attest.Service
