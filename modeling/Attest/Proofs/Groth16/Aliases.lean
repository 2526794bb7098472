import Attest.Proofs.Groth16.Encoding

/-! The strings that one proof is read from.

A row of bytes is a point's own, but for the point at infinity, whose coordinate is read and dropped
(`Point.readFrom_iff_row`); and what is behind the last row is not looked at. So a proof is read
from the strings that begin with rows of its points, and from no others
(`Proof.ofBytes_eq_ok_iff_encoded`): of a proof without infinite points these are its own bytes with
anything behind them (`Proof.Finite.encoded_iff`). -/
namespace Attest

namespace Bn254
open LawfulCompressible (width chunk)

namespace Point
variable {F : Type} [CompressibleField F] [LawfulCompressible F] {p : Point F} {row : Bytes}

/-- The rows of a point: its own bytes, and for infinity the flag over any coordinate. -/
inductive Row : Point F → Bytes → Prop
  | affine (x y : F) : Row (.affine x y) (write (.affine x y))
  | infinity (x : F) : Row .infinity (Compressible.write x .infinity)

omit [LawfulCompressible F] in
theorem row_write (p : Point F) : Row p p.write := by
  cases p with
  | infinity => exact .infinity 0
  | affine x y => exact .affine x y

theorem Row.length (h : Row p row) : row.length = width F := by
  cases h with
  | affine x y => exact length_write _
  | infinity x => exact LawfulCompressible.length_write x .infinity

omit [LawfulCompressible F] in
theorem Row.eq_write (h : Row p row) (hfinite : p ≠ .infinity) : row = p.write := by
  cases h with
  | affine x y => rfl
  | infinity x => exact absurd rfl hfinite

/-- **A row is read as a point just when it is one of the point's** and the point is in the
group. -/
theorem readFrom_iff_row (hlength : row.length = width F) :
    ReadFrom row p ↔ p.InGroup ∧ Row p row := by
  constructor
  · rintro ⟨hspells, hgroup⟩
    refine ⟨hgroup, ?_⟩
    cases hspells with
    | infinity x hx hsign =>
      rw [(LawfulCompressible.write_iff hlength).mp ⟨hx, hsign⟩]
      exact .infinity x
    | @affine x y sign hx hsign hfinite hp hlarger =>
      have hflag : (chunk F row).infinity = false :=
        Bool.eq_false_iff.mpr (mt (Chunk.infinity_of_sign? hsign).mp hfinite)
      rw [← (Chunk.Spells.affine sign hx hsign hfinite hp hlarger).write_eq hlength hflag]
      exact .affine x y
  · rintro ⟨hgroup, hrow⟩
    cases hrow with
    | affine x y => exact hgroup.readFrom_write
    | infinity x =>
      obtain ⟨hx, hsign⟩ := (LawfulCompressible.write_iff hlength).mpr rfl
      exact ⟨.infinity x hx hsign, hgroup⟩

end Point

/-! ### Pairings that are one -/

/-- The product of pairings that are all trivial is one. -/
theorem pairingProductIsOne_of_trivial {pairs : List (G1 × G2)}
    (h : ∀ p ∈ pairs, millerLoop p.1 p.2 = 1) : pairingProductIsOne pairs = true := by
  have hsquare : (1 : Dodecic) * 1 = 1 := by decide
  have hproduct : (pairs.map fun p => millerLoop p.1 p.2).foldl (· * ·) 1 = 1 := by
    induction pairs with
    | nil => rfl
    | cons p rest ih =>
      obtain ⟨hp, hrest⟩ := List.forall_mem_cons.mp h
      rw [List.map_cons, List.foldl_cons, hp, hsquare]
      exact ih hrest
  have hpower (digits : List Bool) : powBinary (1 : Dodecic) digits = 1 := by
    unfold powBinary
    induction digits with
    | nil => rfl
    | cons digit rest ih =>
      have hstep : (if digit then (1 : Dodecic) * 1 * 1 else 1 * 1) = 1 := by
        cases digit <;> simp only [hsquare, if_true, Bool.false_eq_true, if_false]
      rw [List.foldl_cons, hstep]
      exact ih
  have hone (digits : List Bool) :
      (decide ((1 : Dodecic) ≠ 0) && decide ((powBinary (1 : Dodecic) digits).b = 0)) = true := by
    rw [hpower]
    decide
  unfold pairingProductIsOne
  rw [hproduct]
  exact hone cofactor

theorem millerLoop_infinity_left (q : G2) : millerLoop .infinity q = 1 := by
  cases q <;> rfl

theorem millerLoop_infinity_right (p : G1) : millerLoop p .infinity = 1 := by
  cases p <;> rfl

end Bn254

namespace Groth16
open Bn254 Point

namespace Proof
variable {p : Proof} {bs : Bytes}

/-- The string begins with rows of the proof's points. -/
inductive Encoded (p : Proof) : Bytes → Prop
  | rows {a b c} (ha : Row p.a a) (hb : Row p.b b) (hc : Row p.c c) (rest : Bytes) :
      Encoded p (a ++ b ++ c ++ rest)

/-- No point of the proof is infinite. -/
structure Finite (p : Proof) : Prop where
  a : p.a ≠ .infinity
  b : p.b ≠ .infinity
  c : p.c ≠ .infinity

/-- **A proof of points of the groups is read from the strings that begin with its rows**, and
nothing is read from any other. -/
theorem ofBytes_eq_ok_iff_encoded : ofBytes bs = .ok p ↔ p.InGroup ∧ p.Encoded bs := by
  rw [ofBytes_eq_ok_iff]
  constructor
  · intro h
    have hsize := h.size
    have ha : (bs.take 32).length = 32 := List.length_take_of_le (by omega)
    have hb : ((bs.drop 32).take 64).length = 64 :=
      List.length_take_of_le (by rw [List.length_drop]; omega)
    have hc : ((bs.drop 96).take 32).length = 32 :=
      List.length_take_of_le (by rw [List.length_drop]; omega)
    have hrows := Encoded.rows ((readFrom_iff_row ha).mp h.a).2 ((readFrom_iff_row hb).mp h.b).2
      ((readFrom_iff_row hc).mp h.c).2 (bs.drop 128)
    rw [← List.take_add, ← List.take_add, List.take_append_drop] at hrows
    exact ⟨h.inGroup, hrows⟩
  · rintro ⟨hgroup, @⟨a, b, c, ha, hb, hc, rest⟩⟩
    have hla : a.length = 32 := ha.length
    have hlb : b.length = 64 := hb.length
    have hlc : c.length = 32 := hc.length
    have hbs : a ++ b ++ c ++ rest = a ++ (b ++ (c ++ rest)) := by
      rw [List.append_assoc, List.append_assoc]
    have hdropa : (a ++ (b ++ (c ++ rest))).drop 32 = b ++ (c ++ rest) := List.drop_left' hla
    have hdropb : (a ++ (b ++ (c ++ rest))).drop 96 = c ++ rest := by
      rw [show 96 = 32 + 64 from rfl, ← List.drop_drop, hdropa, List.drop_left' hlb]
    rw [hbs]
    constructor
    · simp only [List.length_append]
      omega
    · rw [List.take_left' hla]
      exact (readFrom_iff_row hla).mpr ⟨hgroup.a, ha⟩
    · rw [hdropa, List.take_left' hlb]
      exact (readFrom_iff_row hlb).mpr ⟨hgroup.b, hb⟩
    · rw [hdropb, List.take_left' hlc]
      exact (readFrom_iff_row hlc).mpr ⟨hgroup.c, hc⟩

/-- Without infinite points the rows are the proof's own bytes. -/
theorem Finite.encoded_iff (h : p.Finite) : p.Encoded bs ↔ p.toBytes <+: bs := by
  constructor
  · rintro ⟨ha, hb, hc, rest⟩
    rw [ha.eq_write h.a, hb.eq_write h.b, hc.eq_write h.c]
    exact List.prefix_append _ rest
  · rintro ⟨rest, rfl⟩
    exact .rows (row_write p.a) (row_write p.b) (row_write p.c) rest

/-- A string that no proof is read from is malformed. -/
theorem malformed_of_not_encoded (h : ∀ p : Proof, p.InGroup → ¬p.Encoded bs) :
    ∃ reason, ofBytes bs = .error (.malformedProof reason) := by
  cases hread : ofBytes bs with
  | ok p =>
    obtain ⟨hgroup, hencoded⟩ := ofBytes_eq_ok_iff_encoded.mp hread
    exact absurd hencoded (h p hgroup)
  | error f =>
    obtain ⟨e, rfl⟩ := ofBytes_eq_error hread
    exact ⟨_, rfl⟩

end Proof

namespace VerifyingKey
variable {k : VerifyingKey} {p : Proof} {signals : List Scalar} {bs bs' : Bytes}

/-- What a verifier says of a string is what it says of the proof that is read from it. -/
theorem verify_congr (h : Proof.ofBytes bs = Proof.ofBytes bs') :
    k.verify bs signals = k.verify bs' signals := by
  rw [verify, verify, h]

/-- **The accepted strings of an accepted proof are those that begin with its rows.** -/
theorem accepted_iff_encoded (hverify : k.verify bs signals = .ok true)
    (hread : Proof.ofBytes bs = .ok p) :
    k.verify bs' signals = .ok true ∧ Proof.ofBytes bs' = .ok p ↔ p.Encoded bs' := by
  have hgroup := (Proof.ofBytes_eq_ok_iff_encoded.mp hread).1
  constructor
  · exact fun h => (Proof.ofBytes_eq_ok_iff_encoded.mp h.2).2
  · intro h
    have hread' := Proof.ofBytes_eq_ok_iff_encoded.mpr ⟨hgroup, h⟩
    exact ⟨(verify_congr (hread'.trans hread.symm)).trans hverify, hread'⟩

end VerifyingKey

end Groth16

end Attest
