import Attest.Proofs.Groth16.Aliases
import Attest.Proofs.Service.Verification

/-! Which strings of one proof a verifier accepts.

A verifier judges the points that are read from a string, so with one string of a proof it accepts
all that begin with rows of the same points, and a service answers them alike
(`accepted_encodings`). They differ only where nothing is looked at: behind the last row, and in the
coordinate of a point at infinity. `surplus_accepted` has one of either kind. -/
namespace Attest.Service
open Groth16 (VerifyingKey)

/-- A request that is put to a key is answered with its verdict. -/
theorem Server.exchange_eq_verdict_iff {P : Poseidon.Params} {s : Server} {fs : Files}
    {entropy : Entropy} {stamp : Stamp}
    {keys : Keyring Groth16.ProvingKey VerifyingKey} {r : Request} {name : String} {p : Predicate}
    {stored : StoredKey VerifyingKey} {proof : Bytes} {signals : List Scalar} {b : Bool}
    (hmethod : r.method = "POST")
    (hroute : Route.ofTarget? r.target = some (.verify (some name))) (hname : named name = .ok p)
    (hkey : keys.now groth16 s.store s.settings.merkleDepth fs (.verifying p) = .ok stored)
    (hputs : Puts r proof signals) :
    ((s.exchange groth16 P fs entropy stamp r).run keys).1 = ⟨200, .json (Wire.verifyReply b)⟩ ↔
      stored.key.verify proof signals = .ok b := by
  have hasked : asked r = .ok (proof, signals) := asked_eq_ok_iff.mpr hputs
  rw [exchange_verify groth16 P s fs entropy stamp keys hmethod hroute hname hkey,
    verdictResponse_eq_iff fun e =>
      status_of_verdict groth16 fun _ _ _ => VerifyingKey.verify_eq_error,
    verdict_of_asked groth16 hasked, mapError_eq_ok_iff]
  exact Iff.rfl

/-! ### Three strings of one proof -/

/-- A key under which pairings with an infinite point are all that a proof needs. -/
def bareKey : VerifyingKey := ⟨.infinity, .generator, .generator, .generator, [.infinity]⟩

def bareProof : Groth16.Proof := ⟨.generator, .infinity, .infinity⟩

/-- One byte more than the proof takes. -/
def surplus : Bytes := bareProof.toBytes ++ [0]

/-- The last point's coordinate is one under the flag of infinity. -/
def masked : Bytes :=
  bareProof.a.write ++ bareProof.b.write ++ Bn254.Compressible.write (1 : Bn254.Base) .infinity

theorem bareKey_accepts : bareKey.accepts [] bareProof = true := by
  refine Bn254.pairingProductIsOne_of_trivial fun pair hpair => ?_
  have hcombined : (bareKey.combine []).neg = .infinity := by decide +kernel
  simp only [List.mem_cons, List.not_mem_nil, or_false, hcombined] at hpair
  rcases hpair with rfl | rfl | rfl | rfl
  · exact Bn254.millerLoop_infinity_right _
  · exact Bn254.millerLoop_infinity_left _
  · exact Bn254.millerLoop_infinity_left _
  · exact Bn254.millerLoop_infinity_left _

theorem bareKey_verify {bs : Bytes} (h : Groth16.Proof.ofBytes bs = .ok bareProof) :
    bareKey.verify bs [] = .ok true :=
  VerifyingKey.verify_eq_ok_iff.mpr ⟨rfl, bareProof, h, bareKey_accepts⟩

theorem ofBytes_bareProof : Groth16.Proof.ofBytes bareProof.toBytes = .ok bareProof :=
  eq_ok_of_toOption (by decide +kernel)

theorem ofBytes_surplus : Groth16.Proof.ofBytes surplus = .ok bareProof :=
  eq_ok_of_toOption (by decide +kernel)

theorem ofBytes_masked : Groth16.Proof.ofBytes masked = .ok bareProof :=
  eq_ok_of_toOption (by decide +kernel)

/-! ### All strings of a proof -/

/-- **One proof has one accepted string, but for what is not looked at.** A proof is read from the
strings that begin with rows of its points, and what begins with rows of no proof is malformed. Of a
proof without infinite points the strings are its own bytes with anything behind them. Where a
verifier accepts a string of a proof it accepts just these, so no two of 128 bytes if no point is
infinite; and so does a service that has the key. -/
theorem accepted_encodings (k : VerifyingKey) (signals : List Scalar) (p : Groth16.Proof) :
    (∀ bs, Groth16.Proof.ofBytes bs = .ok p ↔ p.InGroup ∧ p.Encoded bs) ∧
    (∀ bs, (∀ q : Groth16.Proof, q.InGroup → ¬q.Encoded bs) ↔
      ∃ reason, Groth16.Proof.ofBytes bs = .error (.malformedProof reason)) ∧
    (p.Finite → ∀ bs, p.Encoded bs ↔ p.toBytes <+: bs) ∧
    ∀ bs, k.verify bs signals = .ok true → Groth16.Proof.ofBytes bs = .ok p →
      (∀ bs', k.verify bs' signals = .ok true ∧ Groth16.Proof.ofBytes bs' = .ok p ↔
        p.Encoded bs') ∧
      (p.Finite → bs.length = 128 → ∀ bs', k.verify bs' signals = .ok true →
        Groth16.Proof.ofBytes bs' = .ok p → bs'.length = 128 → bs = bs') ∧
      ∀ (P : Poseidon.Params) (s : Server) (fs : Files) (entropy : Entropy) (stamp : Stamp)
        (keys : Keyring Groth16.ProvingKey VerifyingKey) (r : Request) (name : String)
        (predicate : Predicate) (bytes bs' : Bytes),
        r.method = "POST" → Route.ofTarget? r.target = some (.verify (some name)) →
        Server.named name = .ok predicate →
        keys.now groth16 s.store s.settings.merkleDepth fs (.verifying predicate) =
          .ok ⟨bytes, k⟩ →
        Server.Puts r bs' signals →
          (((s.exchange groth16 P fs entropy stamp r).run keys).1 =
              ⟨200, .json (Wire.verifyReply true)⟩ ∧ Groth16.Proof.ofBytes bs' = .ok p ↔
            p.Encoded bs') := by
  refine ⟨fun bs => Groth16.Proof.ofBytes_eq_ok_iff_encoded, fun bs => ⟨?malformed, ?nothing⟩,
    fun h bs => h.encoded_iff, fun bs hverify hread => ?_⟩
  case malformed => exact Groth16.Proof.malformed_of_not_encoded
  case nothing =>
    rintro ⟨reason, herror⟩ q hgroup hencoded
    rw [Groth16.Proof.ofBytes_eq_ok_iff_encoded.mpr ⟨hgroup, hencoded⟩] at herror
    exact nomatch herror
  have haccepted (bs' : Bytes) :
      k.verify bs' signals = .ok true ∧ Groth16.Proof.ofBytes bs' = .ok p ↔ p.Encoded bs' :=
    VerifyingKey.accepted_iff_encoded hverify hread
  refine ⟨haccepted, fun hfinite hlength bs' hverify' hread' hlength' => ?_, ?_⟩
  · have hown {bs : Bytes} (h : Groth16.Proof.ofBytes bs = .ok p) (hl : bs.length = 128) :
        bs = p.toBytes := by
      have hbegins := hfinite.encoded_iff.mp (Groth16.Proof.ofBytes_eq_ok_iff_encoded.mp h).2
      exact (hbegins.eq_of_length (by rw [hl, p.length_toBytes])).symm
    rw [hown hread hlength, hown hread' hlength']
  · intro P s fs entropy stamp keys r name predicate bytes bs' hmethod hroute hname hkey hputs
    rw [Server.exchange_eq_verdict_iff hmethod hroute hname hkey hputs]
    exact haccepted bs'

/-- A service that has the key accepts the string with a masked coordinate for the proof's own. -/
theorem accepted_encodings_masked :
    let keys : Keyring Groth16.ProvingKey VerifyingKey :=
      Keyring.empty.keepVerifying .threshold ⟨bareKey.toBytes, bareKey⟩
    let request : VerifyRequest := ⟨String.ofList (Text.Base64.encode masked), []⟩
    bareKey.verify bareProof.toBytes [] = .ok true ∧
    Groth16.Proof.ofBytes bareProof.toBytes = .ok bareProof ∧ bareProof.Encoded masked ∧
    ∀ (P : Poseidon.Params) (s : Server) (fs : Files) (entropy : Entropy) (stamp : Stamp),
      ((s.exchange groth16 P fs entropy stamp (request.toRequest .threshold)).run keys).1 =
        ⟨200, .json (Wire.verifyReply true)⟩ := by
  intro keys request
  have hverify := bareKey_verify ofBytes_bareProof
  obtain ⟨hread, -, -, haccepted⟩ := accepted_encodings bareKey [] bareProof
  obtain ⟨-, -, hserved⟩ := haccepted _ hverify ofBytes_bareProof
  have hencoded := ((hread masked).mp ofBytes_masked).2
  refine ⟨hverify, ofBytes_bareProof, hencoded, fun P s fs entropy stamp => ?_⟩
  have hputs := Server.puts_toRequest .threshold masked [] (by decide +kernel)
  exact ((hserved P s fs entropy stamp keys _ _ .threshold _ masked rfl
    (request.toRequest_route .threshold) rfl (Keyring.now_of_held _ _ _ _ rfl) hputs).mpr
    hencoded).1

/-- Of three different strings of one proof, two with its own number of bytes, all are accepted. -/
theorem surplus_accepted :
    bareKey.verify bareProof.toBytes [] = .ok true ∧ bareKey.verify surplus [] = .ok true ∧
    bareKey.verify masked [] = .ok true ∧
    Groth16.Proof.ofBytes bareProof.toBytes = .ok bareProof ∧
    Groth16.Proof.ofBytes surplus = .ok bareProof ∧
    Groth16.Proof.ofBytes masked = .ok bareProof ∧
    surplus ≠ bareProof.toBytes ∧ masked ≠ bareProof.toBytes ∧ masked.length = 128 :=
  ⟨bareKey_verify ofBytes_bareProof, bareKey_verify ofBytes_surplus,
    bareKey_verify ofBytes_masked, ofBytes_bareProof, ofBytes_surplus, ofBytes_masked,
    by decide +kernel, by decide +kernel, by decide +kernel⟩

end Attest.Service
