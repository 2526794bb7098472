import Mathlib.Data.List.Chain
import Attest.Proofs.Proving.Pipeline

/-! Requests served one after the other, whatever prover and verifier do.

Prover and verifier share a state of any kind, so they may answer one witness differently
each time. `Pipeline.recorded` is the same pipeline with its calls written down, which
changes no answer (`Pipeline.recorded_erased`). A request then takes one of five courses
(`Pipeline.Course`), by the first thing that is wrong with it, and from its course
everything is read off: what it is answered, which calls it made and which stages it
passed. The main theorem says of every request in a row that it fails closed
(`Pipeline.serveAll_failsClosed`). -/
namespace Attest

/-- A call of a pipeline's prover or verifier, and what it was answered. -/
inductive Call where
  | prove (w : Witness) (answer : Except Failure Attestation)
  | verify (proof : Bytes) (signals : List Scalar) (answer : Except Failure Bool)

/-! ### The failure of a step out of order -/

namespace Progress
variable {m : Type → Type} [Monad m] [LawfulMonad m]

/-- What a request ends with that would go where the order of stages does not allow. -/
def outOfOrder (stage next : Stage) : Failure :=
  .proofGeneration s!"illegal proof state transition {stage.name} -> {next.name}"

theorem advance_run_of_not (passed : List Stage) (stage next : Stage)
    (h : stage.leadsTo next = false) : (advance next : Progress m Unit).run.run (stage :: passed) =
      pure (.error (outOfOrder stage next), stage :: passed) := by
  simp only [advance, bind_run, get_run, pure_bind, h]
  rfl

end Progress

section Wording
open Progress (outOfOrder)
variable (stage next : Stage)

/-- No failure is worded like it. -/
theorem Failure.message_ne_outOfOrder (f : Failure) :
    .proofGeneration f.message ≠ outOfOrder stage next := by
  intro h
  have htext := congrArg String.toList (Failure.proofGeneration.inj h)
  unfold message at htext
  cases f <;> simp [toString] at htext

/-- Only failures of proof generation are passed on as they are. -/
theorem Failure.ofProver_of_ne {f : Failure} (h : ∀ reason, f ≠ .proofGeneration reason) :
    f.ofProver = .proofGeneration f.message := by
  unfold ofProver
  split
  · exact absurd rfl (h _)
  · rfl

/-- A prover's failure is reported like it only if the prover says so itself. -/
theorem Failure.eq_of_ofProver_eq_outOfOrder {f : Failure}
    (h : f.ofProver = outOfOrder stage next) : f = outOfOrder stage next := by
  unfold ofProver at h
  split at h
  · exact h
  · exact absurd h (f.message_ne_outOfOrder stage next)

theorem Witness.Error.toFailure_ne_outOfOrder (e : Error) :
    e.toFailure ≠ outOfOrder stage next := by
  intro h
  have htext := congrArg String.toList (Failure.proofGeneration.inj h)
  simp [toString] at htext

theorem unverified_ne_outOfOrder :
    .proofGeneration "generated proof did not verify" ≠ outOfOrder stage next := by
  intro h
  have htext := congrArg String.toList (Failure.proofGeneration.inj h)
  simp [toString] at htext

end Wording

namespace Pipeline

/-! ### Calls written down -/

section Recording
variable {m : Type → Type} [Monad m]

/-- Writes a call down once it is answered. -/
def record (call : α → Call) (x : m α) : StateT (List Call) m α := do
  let answer ← x
  modify (· ++ [call answer])
  return answer

/-- The pipeline that writes down its calls, the first one first. -/
def recorded (p : Pipeline m) : Pipeline (StateT (List Call) m) where
  predicate := p.predicate
  depth := p.depth
  prover := { predicate := p.prover.predicate, prove w := record (.prove w) (p.prover.prove w) }
  verifier :=
    { verify proof signals := record (.verify proof signals) (p.verifier.verify proof signals) }

variable [LawfulMonad m] (p : Pipeline m) {secret revealed : Inputs}

theorem record_run (call : α → Call) (x : m α) (calls : List Call) :
    (record call x).run calls = x >>= fun answer => pure (answer, calls ++ [call answer]) := by
  simp [record]

/-- A request before any call: the first failure is its whole course. -/
theorem recorded_run_of_mismatch (h : p.prover.predicate ≠ p.predicate) :
    (p.recorded.run secret revealed).run [] =
      pure ((.error (.circuitNotFound
        s!"pipeline for {p.predicate.name} holds a {p.prover.predicate.name} prover"), []),
        []) := by
  have hunfit : p.recorded.prover.predicate ≠ p.recorded.predicate := h
  rw [run_eq, if_pos hunfit]
  rfl

theorem recorded_run_of_malformed {e : Witness.Error} (h : p.prover.predicate = p.predicate)
    (hinputs : Witness.assemble p.predicate p.depth secret revealed = .error e) :
    (p.recorded.run secret revealed).run [] = pure ((.error e.toFailure, []), []) := by
  have hfit : ¬p.recorded.prover.predicate ≠ p.recorded.predicate := fun hne => hne h
  have hmalformed :
      Witness.assemble p.recorded.predicate p.recorded.depth secret revealed = .error e := hinputs
  rw [run_eq, if_neg hfit, hmalformed]
  rfl

/-- A request whose inputs made a witness calls the prover, and the verifier if there is a proof. -/
theorem recorded_run_of_assembled {w : Witness} (h : p.prover.predicate = p.predicate)
    (hinputs : Witness.assemble p.predicate p.depth secret revealed = .ok w) :
    (p.recorded.run secret revealed).run [] =
      p.prover.prove w >>= fun answer =>
        match answer with
        | .error f =>
          pure ((.error f.ofProver, [.proofGenerationFailed, .proving, .witnessAssembled]),
            [.prove w (.error f)])
        | .ok a =>
          p.verifier.verify a.proof a.publicSignals >>= fun verdict =>
            let calls := [.prove w (.ok a), .verify a.proof a.publicSignals verdict]
            match verdict with
            | .ok true => pure ((.ok a, [.verified, .proved, .proving, .witnessAssembled]), calls)
            | _ =>
              pure ((.error (.proofGeneration "generated proof did not verify"),
                [.verificationFailed, .proved, .proving, .witnessAssembled]), calls) := by
  have hfit : ¬p.recorded.prover.predicate ≠ p.recorded.predicate := fun hne => hne h
  have hassembled :
      Witness.assemble p.recorded.predicate p.recorded.depth secret revealed = .ok w := hinputs
  rw [run_eq, if_neg hfit, hassembled]
  simp only [recorded, StateT.run_bind, record_run, bind_assoc, pure_bind]
  refine bind_congr fun answer => ?_
  cases answer with
  | error f => rfl
  | ok a =>
    simp only [StateT.run_bind, record_run, bind_assoc, pure_bind]
    refine bind_congr fun verdict => ?_
    rcases verdict with f | ⟨_ | _⟩ <;> rfl

/-- Writing the calls down changes nothing else. -/
theorem recorded_erased (secret revealed : Inputs) :
    Prod.fst <$> (p.recorded.run secret revealed).run [] = p.run secret revealed := by
  by_cases h : p.prover.predicate = p.predicate
  · have hfit : ¬p.prover.predicate ≠ p.predicate := fun hne => hne h
    cases hinputs : Witness.assemble p.predicate p.depth secret revealed with
    | error e =>
      rw [p.recorded_run_of_malformed h hinputs, run_eq, if_neg hfit, hinputs, map_pure]
    | ok w =>
      rw [p.recorded_run_of_assembled h hinputs, run_eq, if_neg hfit, hinputs, map_bind]
      refine bind_congr fun answer => ?_
      cases answer with
      | error f => exact map_pure ..
      | ok a =>
        simp only [map_bind]
        refine bind_congr fun verdict => ?_
        rcases verdict with f | ⟨_ | _⟩ <;> exact map_pure ..
  · rw [p.recorded_run_of_mismatch h, run_eq, if_pos h, map_pure]

end Recording

end Pipeline

/-! ### The course of a request -/

/-- A request that was served by a prover and a verifier with states in `σ`. -/
structure Served (σ : Type) where
  secret : Inputs
  revealed : Inputs
  before : σ
  after : σ
  outcome : Except Failure Attestation
  /-- The stages it passed, the last one first. -/
  stages : List Stage
  /-- The calls it made, the first one first. -/
  calls : List Call

namespace Pipeline
variable {σ : Type} (p : Pipeline (StateM σ))

def serve (secret revealed : Inputs) (s : σ) : Served σ :=
  let (((outcome, stages), calls), after) := ((p.recorded.run secret revealed).run []).run s
  { secret, revealed, before := s, after, outcome, stages, calls }

/-- Each request finds prover and verifier as the one before it left them. -/
def serveAll : List (Inputs × Inputs) → σ → List (Served σ)
  | [], _ => []
  | (secret, revealed) :: rest, s =>
    let r := p.serve secret revealed s
    r :: serveAll rest r.after

/-- The ways that a request can go, by the first thing that is wrong with it. -/
inductive Course : Served σ → Prop
  | mismatched {secret revealed : Inputs} {s : σ} (h : p.prover.predicate ≠ p.predicate) : Course
      { secret, revealed, before := s, after := s
        outcome := .error (.circuitNotFound
          s!"pipeline for {p.predicate.name} holds a {p.prover.predicate.name} prover")
        stages := [], calls := [] }
  | malformed {secret revealed : Inputs} {s : σ} {e : Witness.Error}
      (h : p.prover.predicate = p.predicate)
      (hinputs : Witness.assemble p.predicate p.depth secret revealed = .error e) : Course
      { secret, revealed, before := s, after := s
        outcome := .error e.toFailure, stages := [], calls := [] }
  | unproved {secret revealed : Inputs} {s t : σ} {w : Witness} {f : Failure}
      (h : p.prover.predicate = p.predicate)
      (hinputs : Witness.assemble p.predicate p.depth secret revealed = .ok w)
      (hprove : (p.prover.prove w).run s = (.error f, t)) : Course
      { secret, revealed, before := s, after := t
        outcome := .error f.ofProver
        stages := [.proofGenerationFailed, .proving, .witnessAssembled]
        calls := [.prove w (.error f)] }
  | refused {secret revealed : Inputs} {s t u : σ} {w : Witness} {a : Attestation}
      {verdict : Except Failure Bool} (h : p.prover.predicate = p.predicate)
      (hinputs : Witness.assemble p.predicate p.depth secret revealed = .ok w)
      (hprove : (p.prover.prove w).run s = (.ok a, t))
      (hverify : (p.verifier.verify a.proof a.publicSignals).run t = (verdict, u))
      (hverdict : verdict ≠ .ok true) : Course
      { secret, revealed, before := s, after := u
        outcome := .error (.proofGeneration "generated proof did not verify")
        stages := [.verificationFailed, .proved, .proving, .witnessAssembled]
        calls := [.prove w (.ok a), .verify a.proof a.publicSignals verdict] }
  | verified {secret revealed : Inputs} {s t u : σ} {w : Witness} {a : Attestation}
      (h : p.prover.predicate = p.predicate)
      (hinputs : Witness.assemble p.predicate p.depth secret revealed = .ok w)
      (hprove : (p.prover.prove w).run s = (.ok a, t))
      (hverify : (p.verifier.verify a.proof a.publicSignals).run t = (.ok true, u)) : Course
      { secret, revealed, before := s, after := u
        outcome := .ok a
        stages := [.verified, .proved, .proving, .witnessAssembled]
        calls := [.prove w (.ok a), .verify a.proof a.publicSignals (.ok true)] }

variable {p} {r : Served σ}

/-- What comes after a call goes on from the state that the call left. -/
theorem run_bind_of_eq {x : StateM σ α} {f : α → StateM σ β} {a : α} {s t : σ}
    (h : x.run s = (a, t)) : (x >>= f).run s = (f a).run t := by
  rw [StateT.run_bind, h]
  rfl

/-- Every request takes a course. -/
theorem serve_course (secret revealed : Inputs) (s : σ) : p.Course (p.serve secret revealed s) := by
  unfold serve
  by_cases h : p.prover.predicate = p.predicate
  · cases hinputs : Witness.assemble p.predicate p.depth secret revealed with
    | error e =>
      rw [p.recorded_run_of_malformed h hinputs]
      exact .malformed h hinputs
    | ok w =>
      rw [p.recorded_run_of_assembled h hinputs]
      rcases hprove : (p.prover.prove w).run s with ⟨f | a, t⟩
      · rw [run_bind_of_eq hprove]
        exact .unproved h hinputs hprove
      · rw [run_bind_of_eq hprove]
        rcases hverify : (p.verifier.verify a.proof a.publicSignals).run t with ⟨verdict, u⟩
        rw [run_bind_of_eq hverify]
        rcases verdict with f | ⟨_ | _⟩
        · exact .refused h hinputs hprove hverify (fun h => nomatch h)
        · exact .refused h hinputs hprove hverify (fun h => nomatch h)
        · exact .verified h hinputs hprove hverify
  · rw [p.recorded_run_of_mismatch h]
    exact .mismatched h

/-- No request could have taken another course. -/
theorem Course.eq_serve (hr : p.Course r) : r = p.serve r.secret r.revealed r.before := by
  unfold serve
  cases hr with
  | mismatched h =>
    rw [p.recorded_run_of_mismatch h]
    rfl
  | malformed h hinputs =>
    rw [p.recorded_run_of_malformed h hinputs]
    rfl
  | unproved h hinputs hprove =>
    rw [p.recorded_run_of_assembled h hinputs, run_bind_of_eq hprove]
    rfl
  | @refused _ _ _ _ _ _ _ verdict h hinputs hprove hverify hverdict =>
    rw [p.recorded_run_of_assembled h hinputs, run_bind_of_eq hprove]
    dsimp only
    rw [run_bind_of_eq hverify]
    rcases verdict with f | ⟨_ | _⟩
    · rfl
    · rfl
    · exact absurd rfl hverdict
  | verified h hinputs hprove hverify =>
    rw [p.recorded_run_of_assembled h hinputs, run_bind_of_eq hprove]
    dsimp only
    rw [run_bind_of_eq hverify]
    rfl

/-- A request is answered as by the pipeline that writes nothing down. -/
theorem generate_run (secret revealed : Inputs) (s : σ) :
    (p.generate secret revealed).run s =
      ((p.serve secret revealed s).outcome, (p.serve secret revealed s).after) := by
  rw [generate, ← p.recorded_erased]
  rfl

end Pipeline

/-! ### What every request keeps to -/

/-- A request is attested only when everything went well. Everything else ends it with a failure
that says what was wrong, and nothing is asked of prover or verifier after that. -/
structure Served.FailsClosed {σ : Type} (p : Pipeline (StateM σ)) (r : Served σ) : Prop where
  ok_iff : ∀ a, r.outcome = .ok a ↔ p.prover.predicate = p.predicate ∧
    ∃ w t u, Witness.assemble p.predicate p.depth r.secret r.revealed = .ok w ∧
      (p.prover.prove w).run r.before = (.ok a, t) ∧
      (p.verifier.verify a.proof a.publicSignals).run t = (.ok true, u)
  /-- A prover of another predicate is not asked, whatever the inputs are. -/
  mismatched : p.prover.predicate ≠ p.predicate →
    r.outcome = .error (.circuitNotFound
      s!"pipeline for {p.predicate.name} holds a {p.prover.predicate.name} prover") ∧
    r.calls = []
  malformed : p.prover.predicate = p.predicate → ∀ e,
    Witness.assemble p.predicate p.depth r.secret r.revealed = .error e →
      r.outcome = .error (.proofGeneration s!"malformed witness: {e.message}") ∧ r.calls = []
  /-- The prover's failure of proof generation is passed on, every other one is wrapped. -/
  unproved : p.prover.predicate = p.predicate → ∀ w f t,
    Witness.assemble p.predicate p.depth r.secret r.revealed = .ok w →
    (p.prover.prove w).run r.before = (.error f, t) →
      r.calls = [.prove w (.error f)] ∧
      (∀ reason, f = .proofGeneration reason → r.outcome = .error f) ∧
      ((∀ reason, f ≠ .proofGeneration reason) → r.outcome = .error (.proofGeneration f.message))
  /-- An answer of the verifier other than `true` withholds the proof. -/
  refused : p.prover.predicate = p.predicate → ∀ w a t verdict u,
    Witness.assemble p.predicate p.depth r.secret r.revealed = .ok w →
    (p.prover.prove w).run r.before = (.ok a, t) →
    (p.verifier.verify a.proof a.publicSignals).run t = (verdict, u) → verdict ≠ .ok true →
      r.outcome = .error (.proofGeneration "generated proof did not verify") ∧
      r.calls = [.prove w (.ok a), .verify a.proof a.publicSignals verdict]
  /-- Nothing is tried twice. -/
  verified : ∀ a, r.outcome = .ok a →
    ∃ w, Witness.assemble p.predicate p.depth r.secret r.revealed = .ok w ∧
      r.calls = [.prove w (.ok a), .verify a.proof a.publicSignals (.ok true)]
  /-- Every stage leads to the one after it. -/
  ordered : r.stages.IsChain fun next stage => stage.leadsTo next
  /-- A request that was taken up starts with its witness and comes to an end. -/
  ended : r.stages = [] ∧ r.calls = [] ∨
    r.stages.getLast? = some .witnessAssembled ∧ ∃ last ∈ r.stages.head?, last.isTerminal
  last_verified_iff : r.stages.head? = some .verified ↔ ∃ a, r.outcome = .ok a
  /-- No request goes out of order: only a prover can say that one did. -/
  inOrder : ∀ stage next, r.outcome = .error (Progress.outOfOrder stage next) →
    ∃ w, r.calls = [.prove w (.error (Progress.outOfOrder stage next))]

namespace Pipeline
variable {σ : Type} {p : Pipeline (StateM σ)} {r : Served σ}

theorem Course.stages_ordered (hr : p.Course r) :
    r.stages.IsChain fun next stage => stage.leadsTo next := by
  cases hr <;> simp [Stage.leadsTo]

theorem Course.stages_ended (hr : p.Course r) : r.stages = [] ∧ r.calls = [] ∨
    r.stages.getLast? = some .witnessAssembled ∧ ∃ last ∈ r.stages.head?, last.isTerminal := by
  cases hr with
  | mismatched h => exact .inl ⟨rfl, rfl⟩
  | malformed h hinputs => exact .inl ⟨rfl, rfl⟩
  | unproved h hinputs hprove => exact .inr ⟨rfl, _, rfl, rfl⟩
  | refused h hinputs hprove hverify hverdict => exact .inr ⟨rfl, _, rfl, rfl⟩
  | verified h hinputs hprove hverify => exact .inr ⟨rfl, _, rfl, rfl⟩

theorem Course.last_verified_iff (hr : p.Course r) :
    r.stages.head? = some .verified ↔ ∃ a, r.outcome = .ok a := by
  cases hr <;> simp

/-- The four ways to fail are worded apart from a step out of order. -/
theorem Course.inOrder (hr : p.Course r) (stage next : Stage)
    (h : r.outcome = .error (Progress.outOfOrder stage next)) :
    ∃ w, r.calls = [.prove w (.error (Progress.outOfOrder stage next))] := by
  cases hr with
  | mismatched => cases h
  | malformed => exact absurd (Except.error.inj h) (Witness.Error.toFailure_ne_outOfOrder _ _ _)
  | @unproved _ _ _ _ w f =>
    obtain rfl := Failure.eq_of_ofProver_eq_outOfOrder stage next (Except.error.inj h)
    exact ⟨w, rfl⟩
  | refused => exact absurd (Except.error.inj h) (unverified_ne_outOfOrder _ _)
  | verified => cases h

/-- Only one course ends with an attestation. -/
theorem Course.of_ok {a : Attestation} (hr : p.Course r) (hok : r.outcome = .ok a) :
    p.prover.predicate = p.predicate ∧
      ∃ w t, Witness.assemble p.predicate p.depth r.secret r.revealed = .ok w ∧
        (p.prover.prove w).run r.before = (.ok a, t) ∧
        (p.verifier.verify a.proof a.publicSignals).run t = (.ok true, r.after) ∧
        r.calls = [.prove w (.ok a), .verify a.proof a.publicSignals (.ok true)] := by
  cases hr with
  | verified h hinputs hprove hverify =>
    obtain rfl := Except.ok.inj hok
    exact ⟨h, _, _, hinputs, hprove, hverify, rfl⟩
  | _ => cases hok

theorem Course.failsClosed (hr : p.Course r) : r.FailsClosed p where
  ok_iff a := by
    constructor
    · intro hok
      obtain ⟨h, w, t, hinputs, hprove, hverify, -⟩ := hr.of_ok hok
      exact ⟨h, w, t, r.after, hinputs, hprove, hverify⟩
    · rintro ⟨h, w, t, u, hinputs, hprove, hverify⟩
      have hr' := hr.eq_serve.trans (Course.verified h hinputs hprove hverify).eq_serve.symm
      exact congrArg Served.outcome hr'
  mismatched h := by
    have hr' := hr.eq_serve.trans (Course.mismatched h).eq_serve.symm
    exact ⟨congrArg Served.outcome hr', congrArg Served.calls hr'⟩
  malformed h e hinputs := by
    have hr' := hr.eq_serve.trans (Course.malformed h hinputs).eq_serve.symm
    exact ⟨congrArg Served.outcome hr', congrArg Served.calls hr'⟩
  unproved h w f t hinputs hprove := by
    have hr' := hr.eq_serve.trans (Course.unproved h hinputs hprove).eq_serve.symm
    have houtcome : r.outcome = .error f.ofProver := congrArg Served.outcome hr'
    refine ⟨congrArg Served.calls hr', ?_, fun hother => ?_⟩
    · rintro reason rfl
      exact houtcome
    · rw [houtcome, Failure.ofProver_of_ne hother]
  refused h w a t verdict u hinputs hprove hverify hverdict := by
    have hr' := hr.eq_serve.trans (Course.refused h hinputs hprove hverify hverdict).eq_serve.symm
    exact ⟨congrArg Served.outcome hr', congrArg Served.calls hr'⟩
  verified a hok := by
    obtain ⟨-, w, -, hinputs, -, -, hcalls⟩ := hr.of_ok hok
    exact ⟨w, hinputs, hcalls⟩
  ordered := hr.stages_ordered
  ended := hr.stages_ended
  last_verified_iff := hr.last_verified_iff
  inOrder := hr.inOrder

/-! ### Requests in a row -/

theorem serveAll_requests (requests : List (Inputs × Inputs)) (s : σ) :
    (p.serveAll requests s).map (fun r => (r.secret, r.revealed)) = requests := by
  induction requests generalizing s with
  | nil => rfl
  | cons q rest ih => exact congrArg (q :: ·) (ih _)

/-- The pipeline answers the same to all of them in a row. -/
theorem generate_mapM_run (requests : List (Inputs × Inputs)) (s : σ) :
    ((requests.mapM fun q => p.generate q.1 q.2).run s).1 =
      (p.serveAll requests s).map Served.outcome := by
  induction requests generalizing s with
  | nil => rfl
  | cons q rest ih =>
    rw [List.mapM_cons, run_bind_of_eq (generate_run q.1 q.2 s)]
    exact congrArg _ (ih _)

theorem course_of_mem_serveAll {requests : List (Inputs × Inputs)} {s : σ}
    (hr : r ∈ p.serveAll requests s) : p.Course r := by
  induction requests generalizing s with
  | nil => cases hr
  | cons q rest ih =>
    rcases List.mem_cons.mp hr with rfl | hr
    · exact serve_course q.1 q.2 s
    · exact ih hr

/-- **Every request in a row fails closed**, whatever prover and verifier do and however they
change: it is served once, and attested only by a prover of the pipeline's predicate, for inputs
that make a witness, with a proof that its verifier said `true` of. -/
theorem serveAll_failsClosed (p : Pipeline (StateM σ)) (requests : List (Inputs × Inputs)) (s : σ) :
    (p.serveAll requests s).map (fun r => (r.secret, r.revealed)) = requests ∧
      ((requests.mapM fun q => p.generate q.1 q.2).run s).1 =
        (p.serveAll requests s).map Served.outcome ∧
      ∀ r ∈ p.serveAll requests s, r.FailsClosed p :=
  ⟨serveAll_requests requests s, generate_mapM_run requests s,
    fun _ hr => (course_of_mem_serveAll hr).failsClosed⟩

/-- Of two equal requests to a prover that fails every second time the second is not tried again. -/
theorem serveAll_failsClosed_second :
    let p : Pipeline (StateM Nat) := {
      predicate := .threshold, depth := 0
      prover := {
        predicate := .threshold
        prove w := fun n =>
          (if n % 2 = 0 then .ok ⟨[171], w.publicSignals⟩ else .error (.io "out of room"), n + 1) }
      verifier := { verify proof _ := pure (.ok (proof == [171])) } }
    let request := (Inputs.ofList [("value", .scalar 1), ("document_hash", .scalar 0)],
      Inputs.ofList [("commitment", .scalar 0), ("threshold", .scalar 1)])
    ∃ r ∈ p.serveAll [request, request] 0, r.FailsClosed p ∧
      r.outcome = .error (.proofGeneration "io error: out of room") ∧ r.calls.length = 1 := by
  intro p request
  have hinputs :
      Witness.assemble .threshold 0 request.1 request.2 = .ok (.threshold ⟨1, 0, 0, 1⟩) := rfl
  have hfirst : (p.serve request.1 request.2 0).after = 1 :=
    congrArg Served.after (Course.verified (p := p) (s := 0) rfl hinputs rfl rfl).eq_serve.symm
  have hsecond := (Course.unproved (p := p) (s := 1) rfl hinputs rfl).eq_serve
  have hmem : p.serve request.1 request.2 1 ∈ p.serveAll [request, request] 0 := by
    simp [serveAll, hfirst]
  refine ⟨_, hmem, (serveAll_failsClosed p [request, request] 0).2.2 _ hmem, ?_, ?_⟩
  · exact congrArg Served.outcome hsecond.symm
  · exact congrArg (fun r => r.calls.length) hsecond.symm

end Pipeline

end Attest
