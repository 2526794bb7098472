import Attest.Proofs.Service.Errand
import Attest.Proofs.Service.Route
import Attest.Proofs.Service.VerifyBody
import Attest.Proofs.Wire.Inputs

/-! Requests as a client writes them.

A client that posts a value as JSON is understood, as long as the text is not too long
(`Request.readJson_post`). The texts of scalars have one length, so a request for a verification is
about as long as its proof's text and four hundred characters for each of its signals
(`VerifyRequest.length_toRequest_le`). -/
namespace Attest.Service
open Json Json.Reading Attest.Wire

/-- The request that posts a value. -/
def Request.post {α : Type} (path : String) (c : Codec α) (x : α) : Request where
  method := "POST"
  target := ⟨path⟩
  contentType := some "application/json"
  body := Bytes.ofText (c.write x).render.toList

theorem Request.body_post {α : Type} (path : String) (c : Codec α) (x : α) :
    (post path c x).body = Bytes.ofText (c.write x).renderChars := by
  rw [post, render, String.toList_ofList]

/-- **What is posted is read**, if it is not too long. -/
theorem Request.readJson_post {α : Type} {c : Codec α} {x : α} (path : String) (h : c.Restores x)
    (hlength : (post path c x).body.length ≤ maxBody) : (post path c x).readJson c = .ok x :=
  (post path c x).readJson_eq_ok_iff.mpr ⟨rfl, hlength, h.ofPrefix_render⟩

theorem length_scalar (x : Scalar) : (scalar.write x).renderChars.length ≤ 398 := by
  have hhex : x.toHex.toList.length = 66 := by
    rw [Scalar.toHex, String.toList_ofList, List.length_cons, List.length_cons,
      Text.Hex.length_encode, Scalar.length_toBytes]
  have hquote := length_quote_le x.toHex
  rwa [hhex] at hquote

/-! ### Asking for a verification -/

namespace VerifyRequest
variable (v : VerifyRequest) (p : Predicate)

/-- The request that asks about a proof of a predicate. -/
def toRequest : Request := .post s!"/api/v1/proofs/{p.name}/verify" Wire.verifyRequest v

theorem toRequest_route :
    Route.ofTarget? (v.toRequest p).target = some (.verify (some p.name)) := by
  obtain ⟨hslash, hname⟩ := Route.segmentName_name p
  rw [toRequest, Request.post, Route.ofTarget?_verify hslash, hname]

theorem length_toRequest_le : (v.toRequest p).body.length ≤
    24 * v.proof.toList.length + 1596 * v.publicSignals.length + 128 := by
  have hproof := length_quote_le v.proof
  have hscalars : ∀ j ∈ v.publicSignals.map canonicalScalar.write, j.renderChars.length ≤ 398 :=
    List.forall_mem_map.mpr fun x _ => length_scalar x
  have hsignals := length_renderItems_le hscalars
  have htext : (Wire.verifyRequest.write v).renderChars = '\x7b' :: (quote "proof" ++ ':' ::
      quote v.proof ++ ',' :: (quote "publicSignals" ++ ':' :: ('[' :: renderItems
        (v.publicSignals.map canonicalScalar.write)) ++ ['\x7d'])) := rfl
  have hbytes := length_ofText_le (Wire.verifyRequest.write v).renderChars
  have hnames : (quote "proof").length = 7 ∧ (quote "publicSignals").length = 15 := by decide
  rw [htext] at hbytes
  simp only [List.length_append, List.length_cons, List.length_nil, List.length_map]
    at hbytes hsignals
  rw [toRequest, Request.body_post, htext]
  omega

theorem gives_toRequest : Gives (ofBytes (v.toRequest p).body).1 v.proof
    (ofJson (scalar.list.write v.publicSignals)) := by
  rw [toRequest, Request.post, ofBytes_render (verifyRequest_restores v).inRange]
  exact gives_write v

theorem readJson_toRequest (h : (v.toRequest p).body.length ≤ maxBody) :
    (v.toRequest p).readJson Wire.verifyRequest = .ok v :=
  Request.readJson_post _ (verifyRequest_restores v) h

end VerifyRequest

/-! ### Asking for a proof -/

theorem generateRequest_restores (g : GenerateRequest) : Wire.generateRequest.Restores g :=
  .record _ (by decide) rfl
    ⟨inputs_restores (by decide) g.secret, inputs_restores (by decide) g.revealed, trivial⟩

namespace GenerateRequest
variable (g : GenerateRequest) (p : Predicate)

/-- The request that asks for a proof of a predicate. -/
def toRequest : Request := .post s!"/api/v1/proofs/{p.name}/generate" Wire.generateRequest g

theorem toRequest_route :
    Route.ofTarget? (g.toRequest p).target = some (.generate (some p.name)) := by
  obtain ⟨hslash, hname⟩ := Route.segmentName_name p
  rw [toRequest, Request.post, Route.ofTarget?_generate hslash, hname]

/-- The inputs of a threshold are no long body. -/
theorem length_toRequest_threshold {a b c d : Scalar}
    (hsecret : g.secret.entries = [("document_hash", .scalar a), ("value", .scalar b)])
    (hrevealed : g.revealed.entries = [("commitment", .scalar c), ("threshold", .scalar d)]) :
    (g.toRequest p).body.length ≤ maxBody := by
  have hwrite : Wire.generateRequest.write g = .object
      [("privateInputs", .object
          [("document_hash", scalar.write a), ("value", scalar.write b)]),
        ("publicInputs", .object
          [("commitment", scalar.write c), ("threshold", scalar.write d)])] := by
    show Json.object [("privateInputs", .object (g.secret.entries.map _)),
      ("publicInputs", .object (g.revealed.entries.map _))] = _
    rw [hsecret, hrevealed]
    rfl
  have hnames : (quote "privateInputs").length = 15 ∧ (quote "publicInputs").length = 14 ∧
      (quote "document_hash").length = 15 ∧ (quote "value").length = 7 ∧
      (quote "commitment").length = 12 ∧ (quote "threshold").length = 11 := by decide
  have ha := length_scalar a
  have hb := length_scalar b
  have hc := length_scalar c
  have hd := length_scalar d
  have hchars : (Wire.generateRequest.write g).renderChars.length ≤ 2000 := by
    rw [hwrite]
    simp only [renderChars, renderMembers, List.length_cons, List.length_append, List.length_nil]
    omega
  have hbytes := length_ofText_le (Wire.generateRequest.write g).renderChars
  rw [toRequest, Request.body_post, maxBody]
  omega

theorem readJson_toRequest (h : (g.toRequest p).body.length ≤ maxBody) :
    (g.toRequest p).readJson Wire.generateRequest = .ok g :=
  Request.readJson_post _ (generateRequest_restores g) h

end GenerateRequest

end Attest.Service
