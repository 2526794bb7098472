import Attest.Proofs.Bytes
import Attest.Proofs.Circuit.Statement
import Attest.Proofs.Proving.Pipeline
import Attest.Proving.Scheme

/-! A pipeline proves true statements, all of them, and nothing else.

A key is made from the witness of zeros and used with every other. Witnesses of one
shape make systems alike (`Witness.Shaped.alike`), so all that is asked of the proof
system is that it is complete for the system of its key (`Scheme.Complete`). Then the
pipeline's answer is decided by the inputs alone: an attestation of the public ones
when they make a witness whose statement holds, and otherwise a failure of proof
generation. -/
namespace Attest

open Circuit

/-- The names of the public inputs, in the order in which the circuit takes them. -/
def Predicate.publicNames : Predicate → List String
  | .threshold => ["commitment", "threshold"]
  | .membership => ["root", "commitment"]

/-- The public signals of a witness are the public inputs it was taken from. -/
theorem Witness.TakenFrom.publicSignals_eq {secret revealed : Inputs} {w : Witness}
    (h : w.TakenFrom secret revealed) :
    w.predicate.publicNames.map revealed.get? = w.publicSignals.map fun x => some (.scalar x) := by
  cases w with
  | threshold w =>
    obtain ⟨_, _, hcommitment, hthreshold⟩ := h
    simp [predicate, Predicate.publicNames, publicSignals, hcommitment, hthreshold]
  | membership w =>
    obtain ⟨_, _, _, _, hroot, hcommitment⟩ := h
    simp [predicate, Predicate.publicNames, publicSignals, hroot, hcommitment]

namespace Scheme
variable {PK VK : Type} {S : Scheme PK VK} {P : Poseidon.Params} {p : Predicate} {depth : Nat}
  {entropy : Entropy} {key : PK} {w : Witness}

/-- With the key of a system, every system alike that is satisfied is proved, and verified. -/
structure Complete (S : Scheme PK VK) (key : PK) (s : System) : Prop where
  /-- Proving does not break off. -/
  proves : ∀ t, t.Alike s → t.Satisfied → ∀ mask, ∃ proof, S.prove key mask t = some proof
  /-- A proof that was made verifies against the public scalars. -/
  verifies : ∀ t, t.Alike s → t.Satisfied → ∀ mask proof, S.prove key mask t = some proof →
    S.verify (S.verifyingKey key) proof t.inputs.toList = .ok true

/-- The scheme that proves a system satisfied by showing its private scalars: every key is the
system itself, and the verifier checks the constraints. Nothing stays secret and no key is kept as
bytes. -/
def revealing : Scheme System System where
  setup _ s := s
  verifyingKey s := s
  writeProvingKey _ := []
  readProvingKey _ := .error (.malformedProof "a system has no bytes")
  writeVerifyingKey _ := []
  readVerifyingKey _ := .error (.malformedProof "a system has no bytes")
  prove _ _ t := some (t.witness.toList.flatMap Scalar.toBytes)
  verify s proof signals :=
    if signals.length = s.inputs.size ∧ proof.length = s.witness.size * Scalar.byteWidth then
      let shown := Scalar.readAll s.witness.size proof
      .ok (decide (System.mk signals.toArray shown.toArray s.constraints).Satisfied)
    else .error (.malformedProof "a scalar for each variable was expected")

theorem revealing_complete (s : System) : revealing.Complete s s := by
  refine ⟨fun t _ _ _ => ⟨_, rfl⟩, fun t halike hsatisfied mask proof hproof => ?_⟩
  obtain rfl := Option.some.inj hproof
  have hwidth : (t.witness.toList.flatMap Scalar.toBytes).length =
      s.witness.size * Scalar.byteWidth := by
    simp [List.length_flatMap, Scalar.length_toBytes, Scalar.byteWidth, ← halike.witness]
  have hinputs : t.inputs.toList.length = s.inputs.size := halike.inputs
  have hshown : Scalar.readAll s.witness.size (t.witness.toList.flatMap Scalar.toBytes) =
      t.witness.toList := by
    rw [← halike.witness, ← Array.length_toList, Scalar.readAll_encoded]
  have hsame : System.mk t.inputs.toList.toArray t.witness.toList.toArray s.constraints = t := by
    rw [← halike.constraints]
  simp only [revealing, hinputs, hwidth, hshown, hsame, and_self, if_true,
    decide_eq_true hsatisfied]

/-- A predicate's key is that of the system of the witness of zeros, if there is room for it. -/
theorem setupPredicate_eq_ok_iff : S.setupPredicate P p depth entropy = .ok key ↔
    Memory.holds (Witness.pathLength depth p) Scalar.footprint ∧
      ∃ s, (Witness.blank depth p).synthesize P = .ok s ∧ S.setup entropy s = key := by
  unfold setupPredicate Witness.blank?
  obtain ⟨s, hs, -⟩ := (Witness.blank_shaped depth p).synthesizes P
  by_cases hroom : Memory.holds (Witness.pathLength depth p) Scalar.footprint
  · simp [hroom, hs]
  · simp [hroom]

/-- The prover gives a proof that verifies for every true statement. -/
theorem prover_of_holds {s : System} (hs : (Witness.blank depth p).synthesize P = .ok s)
    (hcomplete : S.Complete key s) (hshaped : w.Shaped depth p) (hholds : w.Holds P)
    (mask : Entropy) :
    ∃ proof, (S.prover P p key mask).prove w = some (.ok ⟨proof, w.publicSignals⟩) ∧
      S.verify (S.verifyingKey key) proof w.publicSignals = .ok true := by
  obtain ⟨t, ht, hpublic, hsatisfied⟩ := hshaped.synthesizes P
  have halike := hshaped.alike (Witness.blank_shaped depth p) ht hs
  obtain ⟨proof, hprove⟩ := hcomplete.proves t halike (hsatisfied.mpr hholds) mask
  have hverify := hcomplete.verifies t halike (hsatisfied.mpr hholds) mask proof hprove
  rw [hpublic] at hverify
  refine ⟨proof, ?_, hverify⟩
  simp [prover, prepare, hshaped.predicate_eq, ht, hsatisfied.mpr hholds, hprove]

/-- What the prover hands out, the scheme has proved. -/
theorem prove_of_prover {a : Attestation}
    (h : (S.prover P p key entropy).prove w = some (.ok a)) :
    ∃ t, prepare P p w = .ok t ∧ S.prove key entropy t = some a.proof := by
  unfold prover at h
  cases hprepare : prepare P p w with
  | error f => simp [hprepare] at h
  | ok t =>
    simp only [hprepare, Option.map_eq_some_iff] at h
    obtain ⟨proof, hproof, ha⟩ := h
    obtain rfl := Except.ok.inj ha
    exact ⟨t, rfl, hproof⟩

/-- The prover refuses every other statement. -/
theorem prover_of_not_holds (S : Scheme PK VK) (hshaped : w.Shaped depth p) (hfalse : ¬w.Holds P)
    (key : PK) (mask : Entropy) : (S.prover P p key mask).prove w =
      some (.error (.proofGeneration "witness does not satisfy the circuit")) := by
  obtain ⟨t, ht, -, hsatisfied⟩ := hshaped.synthesizes P
  have hunsatisfied : ¬t.Satisfied := fun h => hfalse (hsatisfied.mp h)
  simp [prover, prepare, hshaped.predicate_eq, ht, hunsatisfied]

/-! ### What a pipeline with one key answers -/

section Answers
variable {mask : Entropy} {secret revealed : Inputs}

theorem generate_of_malformed {e : Witness.Error}
    (hinputs : Witness.assemble p depth secret revealed = .error e) :
    (S.pipeline P p depth key mask).generate secret revealed = some (.error e.toFailure) := by
  simp [Pipeline.generate, Pipeline.run_eq, pipeline, prover, hinputs]

theorem generate_of_refused {f : Failure}
    (hinputs : Witness.assemble p depth secret revealed = .ok w)
    (hprover : (S.prover P p key mask).prove w = some (.error f)) :
    (S.pipeline P p depth key mask).generate secret revealed = some (.error f.ofProver) := by
  have hpredicate : (S.prover P p key mask).predicate = p := rfl
  simp [Pipeline.generate, Pipeline.run_eq, pipeline, hpredicate, hinputs, hprover]

theorem generate_of_verified {a : Attestation}
    (hinputs : Witness.assemble p depth secret revealed = .ok w)
    (hprover : (S.prover P p key mask).prove w = some (.ok a))
    (hverifier : S.verify (S.verifyingKey key) a.proof a.publicSignals = .ok true) :
    (S.pipeline P p depth key mask).generate secret revealed = some (.ok a) := by
  have hpredicate : (S.prover P p key mask).predicate = p := rfl
  simp [Pipeline.generate, Pipeline.run_eq, pipeline, verifier, hpredicate, hinputs, hprover,
    hverifier]

theorem generate_of_unverified {a : Attestation}
    (hinputs : Witness.assemble p depth secret revealed = .ok w)
    (hprover : (S.prover P p key mask).prove w = some (.ok a))
    (hverifier : S.verify (S.verifyingKey key) a.proof a.publicSignals ≠ .ok true) :
    (S.pipeline P p depth key mask).generate secret revealed =
      some (.error (.proofGeneration "generated proof did not verify")) := by
  have hpredicate : (S.prover P p key mask).predicate = p := rfl
  rcases hanswer : S.verify (S.verifyingKey key) a.proof a.publicSignals with f | ⟨_ | _⟩
  · simp [Pipeline.generate, Pipeline.run_eq, pipeline, verifier, hpredicate, hinputs, hprover,
      hanswer]
  · simp [Pipeline.generate, Pipeline.run_eq, pipeline, verifier, hpredicate, hinputs, hprover,
      hanswer]
  · exact absurd hanswer hverifier

/-- Whatever a pipeline fails for is told as a failure of proof generation. -/
theorem generate_eq_error {f : Failure}
    (h : (S.pipeline P p depth key mask).generate secret revealed = some (.error f)) :
    ∃ reason, f = .proofGeneration reason := by
  cases hinputs : Witness.assemble p depth secret revealed with
  | error e =>
    rw [generate_of_malformed hinputs] at h
    exact ⟨_, (Except.error.inj (Option.some.inj h)).symm⟩
  | ok w =>
    cases hprover : (S.prover P p key mask).prove w with
    | none =>
      have hpredicate : (S.prover P p key mask).predicate = p := rfl
      simp [Pipeline.generate, Pipeline.run_eq, pipeline, hpredicate, hinputs, hprover] at h
    | some answer =>
      cases answer with
      | error e =>
        rw [generate_of_refused hinputs hprover] at h
        obtain rfl := Except.error.inj (Option.some.inj h)
        cases e <;> exact ⟨_, rfl⟩
      | ok a =>
        by_cases hverifier : S.verify (S.verifyingKey key) a.proof a.publicSignals = .ok true
        · rw [generate_of_verified hinputs hprover hverifier] at h
          exact nomatch h
        · rw [generate_of_unverified hinputs hprover hverifier] at h
          exact ⟨_, (Except.error.inj (Option.some.inj h)).symm⟩

/-- **What a pipeline hands out verifies with the key that made it.** -/
theorem verify_of_generate {a : Attestation}
    (h : (S.pipeline P p depth key mask).generate secret revealed = some (.ok a)) :
    S.verify (S.verifyingKey key) a.proof a.publicSignals = .ok true := by
  have hpredicate : (S.prover P p key mask).predicate = p := rfl
  cases hinputs : Witness.assemble p depth secret revealed with
  | error e =>
    rw [generate_of_malformed hinputs] at h
    exact nomatch h
  | ok w =>
    cases hprover : (S.prover P p key mask).prove w with
    | none => simp [Pipeline.generate, Pipeline.run_eq, pipeline, hpredicate, hinputs, hprover] at h
    | some answer =>
      cases answer with
      | error f =>
        rw [generate_of_refused hinputs hprover] at h
        exact nomatch h
      | ok proved =>
        by_cases hverifier :
            S.verify (S.verifyingKey key) proved.proof proved.publicSignals = .ok true
        · rw [generate_of_verified hinputs hprover hverifier] at h
          obtain rfl := Except.ok.inj (Option.some.inj h)
          exact hverifier
        · rw [generate_of_unverified hinputs hprover hverifier] at h
          exact nomatch h

end Answers

/-- The inputs decide what is answered with the key: those that make a witness whose statement holds
are attested, and with all others proof generation fails. -/
def AttestsTruths (S : Scheme PK VK) (P : Poseidon.Params) (p : Predicate) (depth : Nat)
    (key : PK) : Prop :=
  ∀ (mask : Entropy) (secret revealed : Inputs),
    let answer := (S.pipeline P p depth key mask).generate secret revealed
    (∃ w proof, Witness.assemble p depth secret revealed = .ok w ∧ w.Holds P ∧
      answer = some (.ok ⟨proof, w.publicSignals⟩)) ∨
    (∀ w, Witness.assemble p depth secret revealed = .ok w → ¬w.Holds P) ∧
      ∃ reason, answer = some (.error (.proofGeneration reason))

theorem Complete.attestsTruths {s : System}
    (hs : (Witness.blank depth p).synthesize P = .ok s) (hcomplete : S.Complete key s) :
    S.AttestsTruths P p depth key := by
  intro mask secret revealed answer
  cases hinputs : Witness.assemble p depth secret revealed with
  | error e => exact .inr ⟨nofun, _, generate_of_malformed hinputs⟩
  | ok w =>
    have hshaped := (Witness.assemble_eq_ok_iff.mp hinputs).2.2.1
    by_cases hholds : w.Holds P
    · obtain ⟨proof, hprover, hverifier⟩ := prover_of_holds hs hcomplete hshaped hholds mask
      exact .inl ⟨w, proof, rfl, hholds, generate_of_verified hinputs hprover hverifier⟩
    · have hprover := prover_of_not_holds S hshaped hholds key mask
      refine .inr ⟨fun u hu => ?_, _, generate_of_refused hinputs hprover⟩
      obtain rfl := Except.ok.inj hu
      exact hholds

/-- **A pipeline attests exactly the true statements**: with the key of a predicate and a depth, and
a scheme complete for the system it is the key of, inputs are answered by an attestation exactly
when they make a witness whose statement holds. The attestation's signals are the public inputs in
the circuit's order, and every other answer is a failure of proof generation. -/
theorem generate_ok_iff_holds (hkey : S.setupPredicate P p depth entropy = .ok key)
    (hcomplete : ∀ s, (Witness.blank depth p).synthesize P = .ok s →
      S.Complete (S.setup entropy s) s) (mask : Entropy) (secret revealed : Inputs) :
    let answer := (S.pipeline P p depth key mask).generate secret revealed
    ((∃ a, answer = some (.ok a)) ↔
      ∃ w, Witness.assemble p depth secret revealed = .ok w ∧ w.TakenFrom secret revealed ∧
        w.Holds P) ∧
    (∀ a, answer = some (.ok a) →
      p.publicNames.map revealed.get? = a.publicSignals.map fun x => some (.scalar x)) ∧
    ((¬∃ a, answer = some (.ok a)) →
      ∃ reason, answer = some (.error (.proofGeneration reason))) := by
  obtain ⟨-, s, hs, rfl⟩ := setupPredicate_eq_ok_iff.mp hkey
  intro answer
  rcases (hcomplete s hs).attestsTruths hs mask secret revealed with
    ⟨w, proof, hinputs, hholds, hanswer⟩ | ⟨hfalse, reason, hanswer⟩
  · obtain ⟨-, -, hshaped, htaken⟩ := Witness.assemble_eq_ok_iff.mp hinputs
    have hsignals := htaken.publicSignals_eq
    rw [hshaped.predicate_eq] at hsignals
    refine ⟨iff_of_true ⟨_, hanswer⟩ ⟨w, hinputs, htaken, hholds⟩, fun a ha => ?_, fun h => ?_⟩
    · obtain rfl := Except.ok.inj (Option.some.inj (hanswer.symm.trans ha))
      exact hsignals
    · exact absurd ⟨_, hanswer⟩ h
  · have hnone (a : Attestation) : answer ≠ some (.ok a) := fun ha => nomatch hanswer.symm.trans ha
    exact ⟨iff_of_false (fun ⟨a, ha⟩ => hnone a ha) fun ⟨w, hw, _, hholds⟩ => hfalse w hw hholds,
      fun a ha => absurd ha (hnone a), fun _ => ⟨reason, hanswer⟩⟩

/-- Twenty-five is at least eighteen, which is attested, and not at least twenty-six. -/
theorem generate_ok_iff_holds_years :
    ∃ key, revealing.setupPredicate Poseidon.standard .threshold 4 0 = .ok key ∧
      let ask := fun bound : Scalar =>
        (revealing.pipeline Poseidon.standard .threshold 4 key 0).generate
          (.ofList [("value", .scalar 25), ("document_hash", .scalar 1)])
          (.ofList [("commitment", .scalar (Poseidon.standard.hash [25, 1])),
            ("threshold", .scalar bound)])
      (∃ a, ask 18 = some (.ok a)) ∧ ∃ reason, ask 26 = some (.error (.proofGeneration reason)) := by
  generalize Poseidon.standard = P
  obtain ⟨key, hkey⟩ : ∃ key, revealing.setupPredicate P .threshold 4 0 = .ok key :=
    ⟨_, setupPredicate_eq_ok_iff.mpr ⟨by decide, _, rfl, rfl⟩⟩
  refine ⟨key, hkey, ?_⟩
  intro ask
  have hinputs (bound : Scalar) : Witness.assemble .threshold 4
      (.ofList [("value", .scalar 25), ("document_hash", .scalar 1)])
      (.ofList [("commitment", .scalar (P.hash [25, 1])), ("threshold", .scalar bound)]) =
        .ok (.threshold ⟨25, 1, P.hash [25, 1], bound⟩) := by
    generalize P.hash [25, 1] = commitment
    cbv
  have hanswer (bound : Scalar) :=
    generate_ok_iff_holds hkey (fun s _ => revealing_complete s) 0
      (.ofList [("value", .scalar 25), ("document_hash", .scalar 1)])
      (.ofList [("commitment", .scalar (P.hash [25, 1])), ("threshold", .scalar bound)])
  have hreached : (25 : Scalar).val < 2 ^ 64 ∧ (18 : Scalar).val < 2 ^ 64 ∧
      (18 : Scalar).val ≤ (25 : Scalar).val := by decide
  have hmissed : ¬(26 : Scalar).val ≤ (25 : Scalar).val := by decide
  refine ⟨(hanswer 18).1.mpr ⟨_, hinputs 18, ?_, rfl, hreached⟩, (hanswer 26).2.2 fun h => ?_⟩
  · exact (Witness.assemble_eq_ok_iff.mp (hinputs 18)).2.2.2
  · obtain ⟨w, hw, -, hholds⟩ := (hanswer 26).1.mp h
    obtain rfl := Except.ok.inj ((hinputs 26).symm.trans hw)
    exact hmissed hholds.2.2.2

end Scheme

end Attest
