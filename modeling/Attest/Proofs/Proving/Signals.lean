import Attest.Proofs.Proving.Requests
import Attest.Proofs.Proving.Scheme

/-! Which statement an attestation is about.

A request's attestation is what the prover answered to the witness of that very request,
and the verifier said `true` of it (`Pipeline.generate_attests`). The pipeline does not
look at the signals in between: they are the request's public inputs for a prover that
gives a proof with the signals of its witness (`Prover.Faithful`), and any others for a
prover that does not (`Pipeline.generate_foreign_signals`). -/
namespace Attest
variable {σ : Type}

/-- Every proof comes with the public signals of the witness that was to be proved. -/
def Prover.Faithful (prover : Prover (StateM σ)) : Prop :=
  ∀ w s a t, (prover.prove w).run s = (.ok a, t) → a.publicSignals = w.publicSignals

namespace Pipeline

/-- **An attestation is the prover's answer to the request's own witness**, which holds the public
inputs in the circuit's order, and the verifier said `true` of it; a faithful prover's attestation
carries those inputs as its signals. -/
theorem generate_attests {p : Pipeline (StateM σ)} {secret revealed : Inputs} {s t : σ}
    {a : Attestation} (h : (p.generate secret revealed).run s = (.ok a, t)) :
    ∃ w u, Witness.assemble p.predicate p.depth secret revealed = .ok w ∧
      p.predicate.publicNames.map revealed.get? = w.publicSignals.map (fun x => some (.scalar x)) ∧
      (p.prover.prove w).run s = (.ok a, u) ∧
      (p.verifier.verify a.proof a.publicSignals).run u = (.ok true, t) ∧
      (p.prover.Faithful → a.publicSignals = w.publicSignals) := by
  rw [generate_run] at h
  obtain ⟨houtcome, rfl⟩ := Prod.ext_iff.mp h
  obtain ⟨-, w, u, hinputs, hprove, hverify, -⟩ := (serve_course secret revealed s).of_ok houtcome
  obtain ⟨-, -, hshaped, htaken⟩ := Witness.assemble_eq_ok_iff.mp hinputs
  have hsignals := htaken.publicSignals_eq
  rw [hshaped.predicate_eq] at hsignals
  exact ⟨w, u, hinputs, hsignals, hprove, hverify, fun hfaithful => hfaithful w s a u hprove⟩

/-- A prover that hands on the signals of its witness: they are the public inputs of the request. -/
theorem generate_attests_handed :
    let p : Pipeline (StateM Nat) := {
      predicate := .threshold, depth := 0
      prover := {
        predicate := .threshold
        prove w := fun n => (.ok ⟨[171], w.publicSignals⟩, n + 1) }
      verifier := { verify proof _ := pure (.ok (proof == [171])) } }
    let secret := Inputs.ofList [("value", .scalar 1), ("document_hash", .scalar 0)]
    let revealed := Inputs.ofList [("commitment", .scalar 0), ("threshold", .scalar 1)]
    p.prover.Faithful ∧ ∃ a w, (p.generate secret revealed).run 0 = (.ok a, 1) ∧
      Witness.assemble p.predicate p.depth secret revealed = .ok w ∧
      a.publicSignals = w.publicSignals := by
  intro p secret revealed
  have hinputs : Witness.assemble .threshold 0 secret revealed = .ok (.threshold ⟨1, 0, 0, 1⟩) :=
    rfl
  have hfaithful : p.prover.Faithful := by
    intro w s a t h
    obtain rfl := Except.ok.inj (Prod.ext_iff.mp h).1
    rfl
  have hanswer : (p.generate secret revealed).run 0 = (.ok ⟨[171], [0, 1]⟩, 1) := by
    rw [generate_run, ← (Course.verified (p := p) (s := 0) rfl hinputs rfl rfl).eq_serve]
    rfl
  obtain ⟨w, -, hw, -, -, -, hsignals⟩ := generate_attests hanswer
  exact ⟨hfaithful, _, w, hanswer, hw, hsignals hfaithful⟩

/-- A prover that gives a proof for other signals than the witness's: they are attested if they
verify. -/
theorem generate_foreign_signals :
    let p : Pipeline (StateM Unit) := {
      predicate := .threshold, depth := 0
      prover := { predicate := .threshold, prove _ := pure (.ok ⟨[171], [0, 0]⟩) }
      verifier := { verify proof _ := pure (.ok (proof == [171])) } }
    let secret := Inputs.ofList [("value", .scalar 1), ("document_hash", .scalar 0)]
    let revealed := Inputs.ofList [("commitment", .scalar 0), ("threshold", .scalar 1)]
    (p.generate secret revealed).run () = (.ok ⟨[171], [0, 0]⟩, ()) ∧
      ∃ w, Witness.assemble p.predicate p.depth secret revealed = .ok w ∧
        w.publicSignals ≠ [0, 0] := by
  intro p secret revealed
  have hinputs : Witness.assemble .threshold 0 secret revealed = .ok (.threshold ⟨1, 0, 0, 1⟩) :=
    rfl
  refine ⟨?_, _, hinputs, by decide⟩
  rw [generate_run, ← (Course.verified (p := p) (s := ()) rfl hinputs rfl rfl).eq_serve]

end Pipeline

end Attest
