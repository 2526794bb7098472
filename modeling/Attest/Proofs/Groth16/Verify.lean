import Attest.Groth16.Scheme
import Attest.Proofs.Assembly

/-! What a verifier answers.

Reading a proof never runs out of memory, since it reads three points and no list of them
(`Proof.read_bounded`); so whatever keeps a proof from being verified is reported as malformed
proof material (`VerifyingKey.verify_eq_error`), and a verifier answers exactly where the numbers
fit and the proof is read (`VerifyingKey.verify_eq_ok_iff`). -/
namespace Attest

namespace Bn254

/-- Whatever the bytes are, reading them does not ask for more memory than there is. -/
def Reader.Bounded {α : Type} (read : Reader α) : Prop :=
  ∀ bs, read.run bs ≠ .error .unaddressable

namespace Reader
variable {α β : Type}

theorem Bounded.pure (a : α) : Bounded (Pure.pure a : Reader α) := fun _ h => nomatch h

theorem Bounded.bind {read : Reader α} {f : α → Reader β} (hread : read.Bounded)
    (hf : ∀ a, (f a).Bounded) : Bounded (read >>= f) := by
  intro bs h
  rw [StateT.run_bind] at h
  cases hr : read.run bs with
  | error e =>
    rw [hr] at h
    obtain rfl : e = .unaddressable := Except.error.inj h
    exact hread bs hr
  | ok next =>
    rw [hr] at h
    exact hf next.1 next.2 h

/-- A check that costs no memory. -/
theorem Bounded.lift {x : Except DecodeError α} (h : x ≠ .error .unaddressable) :
    Bounded (liftM x : Reader α) := by
  intro bs hrun
  cases x with
  | error e =>
    obtain rfl : e = .unaddressable := Except.error.inj hrun
    exact h rfl
  | ok a => exact nomatch hrun

theorem nat_bounded (width : Nat) : (nat width).Bounded := by
  intro bs h
  unfold nat at h
  dsimp only [StateT.run] at h
  split at h <;> exact nomatch h

theorem coordinate_ne (n : Nat) : coordinate n ≠ .error .unaddressable := by
  unfold coordinate
  split <;> simp

theorem base_bounded : base.Bounded :=
  (nat_bounded 32).bind fun n => .lift (coordinate_ne n)

theorem flaggedBase_bounded : flaggedBase.Bounded := by
  refine (nat_bounded 32).bind fun n => ?_
  split
  · exact fun bs h => nomatch h
  · exact (Bounded.lift (coordinate_ne _)).bind fun x => .pure _

end Reader

namespace Point
variable {F : Type} [Compressible F]

theorem check_ne (p : Point F) : check p ≠ .error .unaddressable := by
  unfold check
  split
  · exact fun h => nomatch h
  · split <;> exact fun h => nomatch h

/-- A point is read in as much memory as its first coordinate is. -/
theorem readUnchecked_bounded (h : (Compressible.read : Reader (F × Sign)).Bounded) :
    (readUnchecked : Reader (Point F)).Bounded := by
  refine h.bind fun next => ?_
  dsimp only
  split
  · exact .pure _
  · exact fun bs h => nomatch h

theorem read_bounded (h : (Compressible.read : Reader (F × Sign)).Bounded) :
    (read : Reader (Point F)).Bounded :=
  (readUnchecked_bounded h).bind fun p =>
    (Reader.Bounded.lift (check_ne p)).bind fun _ => .pure p

theorem read_bounded_first : (read : Reader G1).Bounded :=
  read_bounded Reader.flaggedBase_bounded

theorem read_bounded_second : (read : Reader G2).Bounded :=
  read_bounded (Reader.base_bounded.bind fun _ => Reader.flaggedBase_bounded.bind fun _ => .pure _)

end Point

end Bn254

namespace Groth16
open Bn254

namespace Proof

theorem read_bounded : read.Bounded :=
  Point.read_bounded_first.bind fun _ => Point.read_bounded_second.bind fun _ =>
    Point.read_bounded_first.bind fun _ => .pure _

/-- A proof that is not read is malformed. -/
theorem ofBytes_eq_error {bs : Bytes} {f : Failure} (h : ofBytes bs = .error f) :
    ∃ e : DecodeError, f = .malformedProof s!"invalid proof: {e.message}" := by
  unfold ofBytes decode at h
  cases hread : read.run bs with
  | ok next =>
    rw [hread] at h
    exact nomatch h
  | error e =>
    rw [hread] at h
    have hbounded : e ≠ .unaddressable := fun he => read_bounded bs (he ▸ hread)
    refine ⟨e, ?_⟩
    cases e with
    | unaddressable => exact absurd rfl hbounded
    | _ => exact (Except.error.inj h).symm

end Proof

namespace VerifyingKey
variable {k : VerifyingKey} {proof : Bytes} {signals : List Scalar}

/-- The failure of a wrong number of scalars. -/
def miscounted (k : VerifyingKey) (signals : List Scalar) : Failure :=
  .malformedProof s!"expected {k.publicCount} public signals, got {signals.length}"

/-- Scalars are counted before the proof is looked at. -/
theorem verify_of_miscounted (h : signals.length ≠ k.publicCount) (proof : Bytes) :
    k.verify proof signals = .error (k.miscounted signals) := by
  rw [verify, if_pos h]
  rfl

/-- With the right number of scalars it is up to the proof, and then to the key. -/
theorem verify_of_counted (h : signals.length = k.publicCount) :
    k.verify proof signals = Proof.ofBytes proof >>= fun p =>
      if k.inputs.length ≠ signals.length + 1 then
        .error (.malformedProof "malformed verifying key")
      else .ok (k.accepts signals p) := by
  rw [verify, if_neg (not_not_intro h)]
  refine bind_congr fun p => ?_
  split <;> rfl

/-- **A verifier answers exactly where the key has a point for each scalar and one more, and the
proof is read**; the answer is the truth of the equation. -/
theorem verify_eq_ok_iff {b : Bool} : k.verify proof signals = .ok b ↔
    k.inputs.length = signals.length + 1 ∧
      ∃ p, Proof.ofBytes proof = .ok p ∧ k.accepts signals p = b := by
  by_cases hcount : signals.length = k.publicCount
  · rw [verify_of_counted hcount, bind_eq_ok_iff]
    by_cases hlength : k.inputs.length = signals.length + 1
    · simp [hlength]
    · simp [hlength]
  · rw [verify_of_miscounted hcount]
    refine iff_of_false (fun h => nomatch h) fun ⟨hlength, _⟩ => hcount ?_
    rw [publicCount, hlength, Nat.add_sub_cancel]

/-- Everything else is malformed proof material. -/
theorem verify_eq_error {f : Failure} (h : k.verify proof signals = .error f) :
    ∃ reason, f = .malformedProof reason := by
  by_cases hcount : signals.length = k.publicCount
  · rw [verify_of_counted hcount] at h
    cases hproof : Proof.ofBytes proof with
    | error e =>
      obtain ⟨reason, rfl⟩ := Proof.ofBytes_eq_error hproof
      rw [hproof] at h
      exact ⟨_, (Except.error.inj h).symm⟩
    | ok p =>
      rw [hproof] at h
      by_cases hlength : k.inputs.length = signals.length + 1
      · simp [bind, Except.bind, hlength] at h
      · simp only [bind, Except.bind, ne_eq, hlength, not_false_eq_true, if_true] at h
        exact ⟨_, (Except.error.inj h).symm⟩
  · rw [verify_of_miscounted hcount] at h
    exact ⟨_, (Except.error.inj h).symm⟩

end VerifyingKey

end Groth16

end Attest
