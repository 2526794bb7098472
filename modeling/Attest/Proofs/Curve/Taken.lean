import Attest.Proofs.Curve.Decoded

/-! What readers take of a byte string.

A reader takes bytes from the front (`Reader.Takes`): it reads the same whatever comes behind them,
and a part of them is never enough. Points, lists of points and keys are read so
(`Reader.Sequential`); hence the bytes of a key, cut anywhere, are no key (`decode_cut`). -/
namespace Attest

namespace Bn254

namespace Reader
variable {α β : Type} {read : Reader α} {f : α → Reader β} {used used' : Bytes} {a : α} {b : β}

/-- The value is read from these bytes, whatever comes behind them, and from no part of them. -/
structure Takes (read : Reader α) (used : Bytes) (a : α) : Prop where
  whole : ∀ rest, read.run (used ++ rest) = .ok (a, rest)
  part : ∀ short, short <+: used → short ≠ used → read.run short = .error .unexpectedEnd

/-- Whatever is read is taken from the front. -/
def Sequential (read : Reader α) : Prop :=
  ∀ bs a rest, read.run bs = .ok (a, rest) → ∃ used, bs = used ++ rest ∧ read.Takes used a

/-! ### Readers of readers -/

theorem Takes.bind (hread : read.Takes used a) (hf : (f a).Takes used' b) :
    (read >>= f).Takes (used ++ used') b where
  whole rest := by
    rw [List.append_assoc]
    exact bind_run_eq_ok_iff.mpr ⟨_, _, hread.whole _, hf.whole rest⟩
  part short hshort hne := by
    rw [StateT.run_bind]
    by_cases hfirst : used <+: short
    · -- the first value is there, and the second one wants more
      obtain ⟨t, rfl⟩ := hfirst
      have ht : t <+: used' := (List.prefix_append_right_inj used).mp hshort
      have hpart := hf.part t ht fun h => hne (h ▸ rfl)
      rw [hread.whole t]
      exact hpart
    · have hpart : read.run short = .error .unexpectedEnd := by
        obtain h | h := List.prefix_or_prefix_of_prefix hshort (List.prefix_append used used')
        · exact hread.part short h fun heq => hfirst (heq ▸ List.prefix_rfl)
        · exact absurd h hfirst
      rw [hpart]
      rfl

namespace Sequential

theorem bind (hread : read.Sequential) (hf : ∀ a, (f a).Sequential) :
    (read >>= f).Sequential := by
  intro bs b rest h
  obtain ⟨a, between, hfirst, hsecond⟩ := bind_run_eq_ok_iff.mp h
  obtain ⟨used, rfl, hused⟩ := hread bs a between hfirst
  obtain ⟨used', rfl, hused'⟩ := hf a between b rest hsecond
  exact ⟨used ++ used', (List.append_assoc ..).symm, hused.bind hused'⟩

/-- What takes no bytes takes none of them. -/
theorem lift (x : Except DecodeError α) : (liftM x : Reader α).Sequential := by
  intro bs a rest h
  cases x with
  | error e => exact nomatch h
  | ok x =>
    obtain ⟨rfl, rfl⟩ := Prod.ext_iff.mp (Except.ok.inj h)
    refine ⟨[], rfl, fun rest => rfl, fun short hshort hne => ?_⟩
    exact absurd (List.prefix_nil.mp hshort) hne

protected theorem pure (a : α) : (Pure.pure a : Reader α).Sequential := lift (.ok a)

protected theorem throw (e : DecodeError) : (throw e : Reader α).Sequential := lift (.error e)

end Sequential

/-! ### Numbers and coordinates -/

theorem nat_takes {width : Nat} (h : used.length = width) :
    (nat width).Takes used (Bytes.toNatLE used) where
  whole rest := by
    show nat width (used ++ rest) = _
    rw [nat, ← h, List.take_left, List.drop_left]
    exact if_neg (Nat.lt_irrefl _)
  part short hshort hne := by
    have hlt : short.length < width := by
      refine Nat.lt_of_le_of_ne (h ▸ hshort.length_le) fun heq => hne ?_
      exact hshort.eq_of_length (heq.trans h.symm)
    show nat width short = _
    rw [nat, List.take_of_length_le hlt.le]
    exact if_pos hlt

theorem nat_sequential (width : Nat) : (nat width).Sequential := by
  intro bs n rest h
  have hrun : (if (bs.take width).length < width then .error DecodeError.unexpectedEnd
      else .ok (Bytes.toNatLE (bs.take width), bs.drop width)) = Except.ok (n, rest) := h
  split at hrun
  · exact nomatch hrun
  · next hlength =>
    obtain ⟨rfl, rfl⟩ := Prod.ext_iff.mp (Except.ok.inj hrun)
    refine ⟨bs.take width, (List.take_append_drop ..).symm, nat_takes ?_⟩
    exact Nat.le_antisymm (List.length_take_le ..) (Nat.not_lt.mp hlength)

theorem base_sequential : base.Sequential := (nat_sequential 32).bind fun _ => .lift _

theorem flaggedBase_sequential : flaggedBase.Sequential := by
  refine (nat_sequential 32).bind fun n => ?_
  split
  · exact .throw _
  · exact (Sequential.lift _).bind fun x => .pure _

end Reader

/-! ### Points -/

theorem read_sequential_first : (Compressible.read : Reader (Base × Sign)).Sequential :=
  Reader.flaggedBase_sequential

theorem read_sequential_second : (Compressible.read : Reader (Quadratic × Sign)).Sequential :=
  Reader.base_sequential.bind fun _ => Reader.flaggedBase_sequential.bind fun _ => .pure _

namespace Point
variable {F : Type} [Compressible F] (h : (Compressible.read : Reader (F × Sign)).Sequential)
include h

theorem readUnchecked_sequential : (readUnchecked : Reader (Point F)).Sequential := by
  refine h.bind fun next => ?_
  dsimp only
  split
  · exact .pure _
  · exact .throw _

theorem read_sequential : (read : Reader (Point F)).Sequential :=
  (readUnchecked_sequential h).bind fun _ => (Reader.Sequential.lift _).bind fun _ => .pure _

theorem readMany_sequential (n : Nat) : (readMany n : Reader (List (Point F))).Sequential := by
  induction n with
  | zero => exact .pure _
  | succ n ih => exact (readUnchecked_sequential h).bind fun _ => ih.bind fun _ => .pure _

omit h in
theorem checkAll_sequential (ps : List (Point F)) :
    Reader.Sequential (ps.forM fun p => liftM (check p)) := by
  induction ps with
  | nil => exact .pure _
  | cons p rest ih => exact (Reader.Sequential.lift _).bind fun _ => ih

theorem readList_sequential : (readList : Reader (List (Point F))).Sequential := by
  refine (Reader.nat_sequential 8).bind fun n => ?_
  have hrest : Reader.Sequential (do
      let ps ← readMany (F := F) n
      ps.forM fun p => liftM (check p)
      return ps) :=
    (readMany_sequential h n).bind fun ps => (checkAll_sequential ps).bind fun _ => .pure ps
  dsimp only
  split
  · exact (Reader.Sequential.throw _).bind fun _ => hrest
  · exact hrest

end Point

end Bn254

namespace Groth16
open Bn254

section
variable {α : Type} {read : Reader α} {report : String → Failure} {bs : Bytes} {a : α} {f : Failure}

/-- **A value that is decoded is decoded from its own bytes in front, whatever comes behind them**,
and these bytes cut anywhere end too early. -/
theorem decode_cut (h : read.Sequential)
    (hread : (decode read bs).mapError (·.toFailure report) = .ok a) : ∃ used, used <+: bs ∧
      (∀ rest, (decode read (used ++ rest)).mapError (·.toFailure report) = .ok a) ∧
      ∀ short, short <+: used → short ≠ used → (decode read short).mapError (·.toFailure report) =
        .error (report DecodeError.unexpectedEnd.message) := by
  obtain ⟨rest, hrun⟩ := decode_eq_ok_iff.mp (mapError_eq_ok_iff.mp hread)
  obtain ⟨used, rfl, hused⟩ := h bs a rest hrun
  refine ⟨used, List.prefix_append .., fun rest => ?_, fun short hshort hne => ?_⟩
  · exact mapError_eq_ok_iff.mpr (decode_eq_ok_iff.mpr ⟨rest, hused.whole rest⟩)
  · rw [decode, hused.part short hshort hne]
    rfl

/-- A value that is not decoded is reported, or there was no room for it. -/
theorem decode_eq_error (h : (decode read bs).mapError (·.toFailure report) = .error f) :
    f = .exhausted ∨ ∃ e : DecodeError, f = report e.message := by
  cases hread : decode read bs with
  | ok a =>
    rw [hread] at h
    exact nomatch h
  | error e =>
    rw [hread] at h
    obtain rfl := Except.error.inj h
    cases e with
    | unaddressable => exact .inl rfl
    | _ => exact .inr ⟨_, rfl⟩

end

namespace VerifyingKey

theorem read_sequential : read.Sequential :=
  (Point.read_sequential read_sequential_first).bind fun _ =>
  (Point.read_sequential read_sequential_second).bind fun _ =>
  (Point.read_sequential read_sequential_second).bind fun _ =>
  (Point.read_sequential read_sequential_second).bind fun _ =>
  (Point.readList_sequential read_sequential_first).bind fun _ => .pure _

/-- What is no verifying key is malformed proof material, unless there was no room for it. -/
theorem ofBytes_eq_error {bs : Bytes} {f : Failure} (h : ofBytes bs = .error f) :
    f = .exhausted ∨ ∃ e : DecodeError,
      f = .malformedProof s!"invalid verifying key: {e.message}" :=
  decode_eq_error h

/-- The bytes of a verifying key, cut anywhere, are none. -/
theorem ofBytes_cut {bs : Bytes} {k : VerifyingKey} (h : ofBytes bs = .ok k) :
    ∃ used, used <+: bs ∧ (∀ rest, ofBytes (used ++ rest) = .ok k) ∧
      ∀ short, short <+: used → short ≠ used → ofBytes short =
        .error (.malformedProof s!"invalid verifying key: {DecodeError.unexpectedEnd.message}") :=
  decode_cut read_sequential h

end VerifyingKey

namespace ProvingKey

theorem read_sequential : read.Sequential :=
  VerifyingKey.read_sequential.bind fun _ =>
  (Point.read_sequential read_sequential_first).bind fun _ =>
  (Point.read_sequential read_sequential_first).bind fun _ =>
  (Point.readList_sequential read_sequential_first).bind fun _ =>
  (Point.readList_sequential read_sequential_first).bind fun _ =>
  (Point.readList_sequential read_sequential_second).bind fun _ =>
  (Point.readList_sequential read_sequential_first).bind fun _ =>
  (Point.readList_sequential read_sequential_first).bind fun _ => .pure _

/-- What is no proving key is a fault of serialization, unless there was no room for it. -/
theorem ofBytes_eq_error {bs : Bytes} {f : Failure} (h : ofBytes bs = .error f) :
    f = .exhausted ∨ ∃ e : DecodeError, f = .serialization e.message :=
  decode_eq_error h

/-- The bytes of a proving key, cut anywhere, are none. -/
theorem ofBytes_cut {bs : Bytes} {k : ProvingKey} (h : ofBytes bs = .ok k) :
    ∃ used, used <+: bs ∧ (∀ rest, ofBytes (used ++ rest) = .ok k) ∧
      ∀ short, short <+: used → short ≠ used → ofBytes short =
        .error (.serialization DecodeError.unexpectedEnd.message) :=
  decode_cut read_sequential h

end ProvingKey

end Groth16

end Attest
