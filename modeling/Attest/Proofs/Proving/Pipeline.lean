import Attest.Proving.Pipeline

/-! What a proving request does, whatever its prover and its verifier are.

A request is run from the stages that it has passed. Each step of a pipeline only
goes where the order of stages allows (`Progress.advance_run`), so no request ends
for going wrong there, and `Pipeline.run_eq` leaves of it the check of the prover's
predicate, the assembly of the witness, one call of the prover and one of the
verifier, with the stages that were passed by then. -/
namespace Attest

namespace Progress
variable {m : Type → Type} [Monad m] (passed : List Stage)

/-- What follows a failure is not run. -/
theorem bind_run (x : Progress m α) (f : α → Progress m β) :
    (x >>= f).run.run passed = x.run.run passed >>= fun r =>
      match r with
      | (.ok a, passed) => (f a).run.run passed
      | (.error e, passed) => pure (.error e, passed) := by
  rw [ExceptT.run_bind, StateT.run_bind]
  refine bind_congr fun r => ?_
  obtain ⟨_ | a, passed⟩ := r <;> rfl

theorem pure_run (a : α) : (pure a : Progress m α).run.run passed = pure (.ok a, passed) := rfl

theorem throw_run (e : Failure) :
    (throw e : Progress m α).run.run passed = pure (.error e, passed) := rfl

variable [LawfulMonad m]

theorem call_run (x : m α) :
    (liftM x : Progress m α).run.run passed = x >>= fun a => pure (.ok a, passed) := by
  show (Except.ok <$> (StateT.lift x : StateT (List Stage) m α)).run passed = _
  simp

theorem get_run : (get : Progress m (List Stage)).run.run passed = pure (.ok passed, passed) := by
  show (Except.ok <$> (get : StateT (List Stage) m (List Stage))).run passed = _
  simp

theorem set_run (stages : List Stage) :
    (set stages : Progress m Unit).run.run passed = pure (.ok (), stages) := by
  show (Except.ok <$> (set stages : StateT (List Stage) m Unit)).run passed = _
  simp

/-- The first stage is recorded. -/
theorem start_run (next : Stage) :
    (advance next : Progress m Unit).run.run [] = pure (.ok (), [next]) := by
  simp only [advance, bind_run, get_run, pure_bind, set_run]

/-- A stage that may come next is recorded. -/
theorem advance_run (stage next : Stage) (h : stage.leadsTo next = true) :
    (advance next : Progress m Unit).run.run (stage :: passed) =
      pure (.ok (), next :: stage :: passed) := by
  simp only [advance, bind_run, get_run, pure_bind, h, if_true, set_run]

end Progress

namespace Pipeline
variable {m : Type → Type} [Monad m] [LawfulMonad m] (p : Pipeline m)

open Progress

/-- One call of the prover. -/
theorem prove_run (w : Witness) (passed : List Stage) :
    (p.prove w).run.run (.witnessAssembled :: passed) =
      p.prover.prove w >>= fun answer =>
        match answer with
        | .ok a => pure (.ok a, .proved :: .proving :: .witnessAssembled :: passed)
        | .error f =>
          pure (.error f.ofProver,
            .proofGenerationFailed :: .proving :: .witnessAssembled :: passed) := by
  simp only [prove, bind_run, advance_run passed .witnessAssembled .proving rfl, pure_bind,
    call_run, bind_assoc]
  refine bind_congr fun answer => ?_
  cases answer with
  | ok a => simp only [bind_run, advance_run _ .proving .proved rfl, pure_bind, pure_run]
  | error f =>
    simp only [bind_run, advance_run _ .proving .proofGenerationFailed rfl, pure_bind, throw_run]

/-- One call of the verifier, of which only an outright `true` counts. -/
theorem confirm_run (a : Attestation) (passed : List Stage) :
    (p.confirm a).run.run (.proved :: passed) =
      p.verifier.verify a.proof a.publicSignals >>= fun answer =>
        match answer with
        | .ok true => pure (.ok (), .verified :: .proved :: passed)
        | _ =>
          pure (.error (.proofGeneration "generated proof did not verify"),
            .verificationFailed :: .proved :: passed) := by
  simp only [confirm, bind_run, call_run, pure_bind, bind_assoc]
  refine bind_congr fun answer => ?_
  have hrefused := advance_run (m := m) passed .proved .verificationFailed rfl
  rcases answer with f | ⟨_ | _⟩
  · simp only [bind_run, hrefused, pure_bind, throw_run]
  · simp only [bind_run, hrefused, pure_bind, throw_run]
  · exact advance_run passed .proved .verified rfl

/-- **A request is one call of the prover and one of the verifier**, each made only when nothing
has failed before it. -/
theorem run_eq (secret revealed : Inputs) :
    p.run secret revealed =
      if p.prover.predicate ≠ p.predicate then
        pure (.error (.circuitNotFound
          s!"pipeline for {p.predicate.name} holds a {p.prover.predicate.name} prover"), [])
      else
        match Witness.assemble p.predicate p.depth secret revealed with
        | .error e => pure (.error e.toFailure, [])
        | .ok w =>
          p.prover.prove w >>= fun answer =>
            match answer with
            | .error f =>
              pure (.error f.ofProver, [.proofGenerationFailed, .proving, .witnessAssembled])
            | .ok a =>
              p.verifier.verify a.proof a.publicSignals >>= fun answer =>
                match answer with
                | .ok true => pure (.ok a, [.verified, .proved, .proving, .witnessAssembled])
                | _ =>
                  pure (.error (.proofGeneration "generated proof did not verify"),
                    [.verificationFailed, .proved, .proving, .witnessAssembled]) := by
  unfold run request
  by_cases hpredicate : p.prover.predicate ≠ p.predicate
  · rw [if_pos hpredicate, if_pos hpredicate]
    simp only [bind_run, throw_run, pure_bind]
  · rw [if_neg hpredicate, if_neg hpredicate]
    cases Witness.assemble p.predicate p.depth secret revealed with
    | error e => rfl
    | ok w =>
      simp only [bind_run, start_run, pure_bind, prove_run, bind_assoc]
      refine bind_congr fun answer => ?_
      cases answer with
      | error f => simp only [pure_bind]
      | ok a =>
        simp only [pure_bind, confirm_run, bind_assoc]
        refine bind_congr fun answer => ?_
        rcases answer with f | ⟨_ | _⟩
        · simp only [pure_bind]
        · simp only [pure_bind]
        · simp only [pure_bind, pure_run]

end Pipeline

end Attest
