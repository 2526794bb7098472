import Attest.Proofs.Groth16.Verify
import Attest.Proofs.Service.Posted
import Attest.Proofs.Text.Base64

/-! What is answered about a proof.

A request is put to a key as the bytes and the scalars that its body gives (`Server.Puts`), and the
answer is the verdict of the key that there is (`Server.exchange_verify`). With a key that is held
the disk has no part in it (`Server.exchange_verify_held`), so a service that has loaded a key
answers what the key itself does, and what its bytes do (`verification_agrees`). -/
namespace Attest.Service

namespace Server
variable {PK VK : Type} (S : Scheme PK VK) (P : Poseidon.Params) (s : Server) (fs : Files)
  (entropy : Entropy) (stamp : Stamp) (keys : Keyring PK VK) {r : Request}

/-- What a request asks to have verified, or why it is not put to a key. -/
def asked (r : Request) : Except Refusal (Bytes × List Scalar) := do
  let request ← r.readJson Wire.verifyRequest
  return (← proofBytes request, request.publicSignals)

/-- What a key says to a request for a verification. -/
def verdict (stored : StoredKey VK) (r : Request) : Except Refusal Bool := do
  let (proof, signals) ← asked r
  (S.verify stored.key proof signals).mapError .ofFailure

/-- A verdict as it is sent. -/
def verdictResponse : Except Refusal Bool → Response
  | .ok b => ⟨200, .json (Wire.verifyReply b)⟩
  | .error e => e.respond

theorem send_verifyWith (proof : Bytes) (signals : List Scalar) (stored : StoredKey VK) :
    s.send stamp (verifyWith S proof signals (.ok stored)) =
      verdictResponse ((S.verify stored.key proof signals).mapError .ofFailure) := by
  have hanswer : verifyWith S proof signals (.ok stored) =
      .ofResult ((fun ok => .json (Wire.verifyReply ok)) <$>
        (S.verify stored.key proof signals).mapError .ofFailure) := rfl
  rw [hanswer]
  cases S.verify stored.key proof signals <;> rfl

section
variable {name : String} {p : Predicate} {stored : StoredKey VK} (hmethod : r.method = "POST")
  (hroute : Route.ofTarget? r.target = some (.verify (some name))) (hname : named name = .ok p)
include hmethod hroute hname

/-- A request for a verification looks into the predicate's cell, unless it is refused before. -/
theorem errand_verify : s.errand S P entropy r =
    match asked r with
    | .ok (proof, signals) => .keyed (.verifying p) (verifyWith S proof signals)
    | .error e => .plain (.refused e) := by
  rw [errand_of_method S P s entropy hroute hmethod, errandOn, asked]
  cases r.readJson Wire.verifyRequest with
  | error e => rfl
  | ok request =>
    simp only [hname, bind, Except.bind]
    cases proofBytes request <;> rfl

/-- **A request for a verification is answered by the verdict of the key that there is.** -/
theorem exchange_verify
    (hkey : keys.now S s.store s.settings.merkleDepth fs (.verifying p) = .ok stored) :
    ((s.exchange S P fs entropy stamp r).run keys).1 = verdictResponse (verdict S stored r) := by
  rw [exchange_run, errand_verify S P s entropy hmethod hroute hname, verdict]
  cases asked r with
  | error e => rfl
  | ok request =>
    dsimp only
    rw [Errand.run_keyed, hkey]
    exact s.send_verifyWith S stamp request.1 request.2 stored

/-- With a key that is held already nothing changes, whatever is on the disk. -/
theorem exchange_verify_held (hkey : keys.verifying p = some stored) :
    (s.exchange S P fs entropy stamp r).run keys =
      (verdictResponse (verdict S stored r), keys) := by
  refine Prod.ext (s.exchange_verify S P fs entropy stamp keys hmethod hroute hname
    (Keyring.now_of_held _ _ _ _ hkey)) ?_
  rw [exchange_run]
  refine Errand.run_keys_of_held S s fs _ fun c hc => ?_
  rw [errand_verify S P s entropy hmethod hroute hname] at hc
  cases hasked : asked r with
  | error e =>
    rw [hasked] at hc
    exact nomatch hc
  | ok request =>
    rw [hasked] at hc
    obtain rfl : Cell.verifying p = c := Option.some.inj hc
    exact ⟨stored, hkey⟩

end

/-- A request is put to a key when its body is read and its proof is the text of some bytes. -/
def Puts (r : Request) (proof : Bytes) (signals : List Scalar) : Prop :=
  ∃ request, r.readJson Wire.verifyRequest = .ok request ∧
    Text.Base64.decode? request.proof.toList = some proof ∧ request.publicSignals = signals

/-- A body with the text of a proof puts the proof. -/
theorem puts_of_readJson {proof : Bytes} {signals : List Scalar}
    (h : r.readJson Wire.verifyRequest =
      .ok ⟨String.ofList (Text.Base64.encode proof), signals⟩) : Puts r proof signals := by
  refine ⟨_, h, ?_, rfl⟩
  rw [String.toList_ofList]
  exact Text.Base64.decode?_encode proof

/-- Who asks about a proof puts it, if the body is not too long. -/
theorem puts_toRequest (p : Predicate) (proof : Bytes) (signals : List Scalar)
    (h : 24 * (Text.Base64.encode proof).length + 1596 * signals.length + 128 ≤ maxBody) :
    Puts (VerifyRequest.toRequest ⟨String.ofList (Text.Base64.encode proof), signals⟩ p) proof
      signals := by
  refine puts_of_readJson (VerifyRequest.readJson_toRequest _ p ?_)
  refine (VerifyRequest.length_toRequest_le _ p).trans ?_
  rwa [String.toList_ofList]

theorem proofBytes_eq_ok_iff {request : VerifyRequest} {proof : Bytes} :
    proofBytes request = .ok proof ↔
      Text.Base64.decode? request.proof.toList = some proof := by
  unfold proofBytes
  cases Text.Base64.decode? request.proof.toList <;> simp

theorem asked_eq_ok_iff {proof : Bytes} {signals : List Scalar} :
    asked r = .ok (proof, signals) ↔ Puts r proof signals := by
  unfold asked Puts
  rw [bind_eq_ok_iff]
  refine exists_congr fun request => and_congr_right' ?_
  rw [bind_eq_ok_iff, ← proofBytes_eq_ok_iff]
  constructor
  · rintro ⟨proof', hproof, ⟨⟩⟩
    exact ⟨hproof, rfl⟩
  · rintro ⟨hproof, rfl⟩
    exact ⟨proof, hproof, rfl⟩

/-- A request is not put to a key through the caller's fault. -/
theorem status_of_asked {e : Refusal} (h : asked r = .error e) : e.status = 400 := by
  unfold asked at h
  cases hread : r.readJson Wire.verifyRequest with
  | error e' =>
    rw [hread] at h
    obtain rfl : e' = e := Except.error.inj h
    exact r.status_of_readJson hread
  | ok request =>
    rw [hread] at h
    simp only [bind, Except.bind, proofBytes] at h
    cases hproof : Text.Base64.decode? request.proof.toList with
    | none =>
      rw [hproof] at h
      obtain rfl := Except.error.inj h
      rfl
    | some proof =>
      rw [hproof] at h
      cases h

theorem verdict_of_asked {stored : StoredKey VK} {proof : Bytes} {signals : List Scalar}
    (h : asked r = .ok (proof, signals)) :
    verdict S stored r = (S.verify stored.key proof signals).mapError .ofFailure := by
  rw [verdict, h]
  rfl

theorem verdict_eq_ok_iff {stored : StoredKey VK} {b : Bool} :
    verdict S stored r = .ok b ↔
      ∃ proof signals, Puts r proof signals ∧ S.verify stored.key proof signals = .ok b := by
  rw [verdict, bind_eq_ok_iff, Prod.exists]
  exact exists₂_congr fun proof signals => and_congr asked_eq_ok_iff mapError_eq_ok_iff

/-- A verdict is missing through the caller's fault, with a scheme that finds fault with nothing but
the proof. -/
theorem status_of_verdict {stored : StoredKey VK} {e : Refusal}
    (hfault : ∀ proof signals f, S.verify stored.key proof signals = .error f →
      ∃ reason, f = .malformedProof reason) (h : verdict S stored r = .error e) :
    e.status = 400 := by
  cases hasked : asked r with
  | error e' =>
    rw [verdict, hasked] at h
    obtain rfl : e' = e := Except.error.inj h
    exact status_of_asked hasked
  | ok request =>
    rw [verdict_of_asked S hasked] at h
    cases hverify : S.verify stored.key request.1 request.2 with
    | ok b =>
      rw [hverify] at h
      exact nomatch h
    | error f =>
      obtain ⟨reason, rfl⟩ := hfault _ _ _ hverify
      rw [hverify] at h
      obtain rfl := Except.error.inj h
      rfl

theorem verdictResponse_eq_iff {v : Except Refusal Bool} {b : Bool}
    (hstatus : ∀ e, v = .error e → e.status = 400) :
    verdictResponse v = ⟨200, .json (Wire.verifyReply b)⟩ ↔ v = .ok b := by
  cases v with
  | ok b' => simp [verdictResponse, Wire.verifyReply]
  | error e =>
    refine iff_of_false (fun h => ?_) fun h => nomatch h
    have h200 : e.status = 200 := congrArg Response.status h
    rw [hstatus e rfl] at h200
    exact absurd h200 (by decide)

end Server

/-- **All ways to verify give one answer**: with a key, with the bytes of the key, if they are read
as that key, and with a proving key that holds it. The answer is the truth of the pairing equation
exactly where the key has one point more than there are scalars and the proof is read. All else is
malformed proof material, and the number of scalars is looked at before the proof. A service that
has loaded the key answers a verification with status 200 and that truth value, and with status 400
where there is none. -/
theorem verification_agrees (vk : Groth16.VerifyingKey) (proof : Bytes) (signals : List Scalar) :
    let answer := vk.verify proof signals
    (Groth16.VerifyingKey.ofBytes vk.toBytes = .ok vk →
      Groth16.verifyBytes vk.toBytes proof signals = answer) ∧
    (∀ pk : Groth16.ProvingKey, pk.verifying = vk →
      (groth16.verifier (groth16.verifyingKey pk)).verify proof signals = some answer) ∧
    (∀ b, answer = .ok b ↔ vk.inputs.length = signals.length + 1 ∧
      ∃ p, Groth16.Proof.ofBytes proof = .ok p ∧ vk.accepts signals p = b) ∧
    (∀ f, answer = .error f → ∃ reason, f = .malformedProof reason) ∧
    (signals.length ≠ vk.publicCount → answer = .error (vk.miscounted signals)) ∧
    (signals.length = vk.publicCount → ∀ f, Groth16.Proof.ofBytes proof = .error f →
      answer = .error f) ∧
    ∀ (P : Poseidon.Params) (s : Server) (fs : Files) (entropy : Entropy) (stamp : Stamp)
      (keys : Keyring Groth16.ProvingKey Groth16.VerifyingKey) (r : Request) (name : String)
      (p : Predicate) (bytes : Bytes),
      r.method = "POST" → Route.ofTarget? r.target = some (.verify (some name)) →
      Server.named name = .ok p → keys.verifying p = some ⟨bytes, vk⟩ →
        ∃ response : Response,
          (s.exchange groth16 P fs entropy stamp r).run keys = (response, keys) ∧
          (∀ b, response = ⟨200, .json (Wire.verifyReply b)⟩ ↔
            ∃ proof signals, Server.Puts r proof signals ∧ vk.verify proof signals = .ok b) ∧
          ((∀ b, response ≠ ⟨200, .json (Wire.verifyReply b)⟩) → response.status = 400) := by
  intro answer
  refine ⟨fun hcodec => ?_, ?_, fun b => Groth16.VerifyingKey.verify_eq_ok_iff,
    fun f => Groth16.VerifyingKey.verify_eq_error,
    fun h => Groth16.VerifyingKey.verify_of_miscounted h proof, fun hcount f hproof => ?_, ?_⟩
  · rw [Groth16.verifyBytes, hcodec]
    rfl
  · rintro pk rfl
    rfl
  · show vk.verify proof signals = .error f
    rw [Groth16.VerifyingKey.verify_of_counted hcount, hproof]
    rfl
  · intro P s fs entropy stamp keys r name p bytes hmethod hroute hname hkey
    have hstatus (e : Refusal) (h : Server.verdict groth16 ⟨bytes, vk⟩ r = .error e) :
        e.status = 400 :=
      Server.status_of_verdict groth16 (fun _ _ _ => Groth16.VerifyingKey.verify_eq_error) h
    refine ⟨_, s.exchange_verify_held groth16 P fs entropy stamp keys hmethod hroute hname hkey,
      fun b => ?_, fun hnone => ?_⟩
    · exact (Server.verdictResponse_eq_iff hstatus).trans (Server.verdict_eq_ok_iff groth16)
    · cases hverdict : Server.verdict groth16 ⟨bytes, vk⟩ r with
      | ok b =>
        rw [hverdict] at hnone
        exact absurd rfl (hnone b)
      | error e => exact hstatus e hverdict

/-- A key of generators is asked about one scalar, with a proof of points at infinity, and about
none with no proof at all. -/
theorem verification_agrees_generators :
    let vk : Groth16.VerifyingKey := ⟨.generator, .generator, .generator, .generator,
      [.generator, .infinity]⟩
    let p : Groth16.Proof := ⟨.infinity, .infinity, .infinity⟩
    let request : VerifyRequest := ⟨String.ofList (Text.Base64.encode p.toBytes), [7]⟩
    let keys : Keyring Groth16.ProvingKey Groth16.VerifyingKey :=
      Keyring.empty.keepVerifying .threshold ⟨vk.toBytes, vk⟩
    Groth16.VerifyingKey.ofBytes vk.toBytes = .ok vk ∧
    Groth16.verifyBytes vk.toBytes p.toBytes [7] = .ok (vk.accepts [7] p) ∧
    Groth16.verifyBytes vk.toBytes [] [] =
      .error (.malformedProof "expected 1 public signals, got 0") ∧
    ∀ (P : Poseidon.Params) (s : Server) (fs : Files) (entropy : Entropy) (stamp : Stamp),
      (s.exchange groth16 P fs entropy stamp (request.toRequest .threshold)).run keys =
        (⟨200, .json (Wire.verifyReply (vk.accepts [7] p))⟩, keys) := by
  intro vk p request keys
  have hkey : (Groth16.VerifyingKey.ofBytes vk.toBytes).toOption = some vk := by decide +kernel
  have hcodec := eq_ok_of_toOption hkey
  have hdecoded : (Groth16.Proof.ofBytes p.toBytes).toOption = some p := by decide +kernel
  have hproof := eq_ok_of_toOption hdecoded
  obtain ⟨hbytes, -, haccepts, -, -, -, hserved⟩ := verification_agrees vk p.toBytes [7]
  obtain ⟨hnone, -, -, -, hcount, -⟩ := verification_agrees vk [] []
  have hverify := (haccepts _).mpr ⟨rfl, p, hproof, rfl⟩
  refine ⟨hcodec, ?_, ?_, fun P s fs entropy stamp => ?_⟩
  · rw [hbytes hcodec, hverify]
  · have hmiscounted : vk.miscounted [] = .malformedProof "expected 1 public signals, got 0" := by
      decide +kernel
    rw [hnone hcodec, hcount (by decide), hmiscounted]
  · obtain ⟨response, hexchange, hanswer, -⟩ := hserved P s fs entropy stamp keys _ _ .threshold _
      rfl (request.toRequest_route .threshold) rfl rfl
    have hputs := Server.puts_toRequest .threshold p.toBytes [7] (by decide +kernel)
    rw [hexchange, (hanswer _).mpr ⟨_, _, hputs, hverify⟩]

end Attest.Service
