import Attest.Artifact.Store
import Attest.Proofs.Json.RoundTrip

/-! Manifests that are written and read back.

A manifest whose numbers fit their types is read back from its file (`Store.manifest_of_written`),
and the manifest of this version admits every predicate at its own depth, and at another only where
none matters (`Store.check_of_written_iff`). -/
namespace Attest

namespace Wire
open Json

theorem predicate_restores (p : Predicate) : predicate.Restores p := by
  cases p with
  | threshold => exact ⟨.text _, rfl⟩
  | membership => exact ⟨.text _, rfl⟩

theorem manifest_restores {m : Artifact.Manifest} (hversion : m.version < UInt32.size)
    (hdepth : m.merkleDepth < UInt64.size) : manifest.Restores m :=
  .record _ (by decide) rfl ⟨.natural _ hversion (by decide), .text _, .text _,
    .natural _ hdepth (Nat.le_refl _), .list fun p _ => predicate_restores p, trivial⟩

end Wire

namespace Artifact

/-- Keys of this version are admitted at their own depth, and where none matters at every depth. -/
theorem Manifest.check_current_iff {depth configured : Nat} {p : Predicate} :
    (Manifest.current depth Predicate.all).check p configured = .ok () ↔
      p = .threshold ∨ configured = depth := by
  have hp := Predicate.mem_all p
  cases p with
  | threshold => simp [check, current, hp, pure, Except.pure]
  | membership =>
    by_cases hdepth : depth = configured
    · simp [check, current, hp, hdepth, pure, Except.pure]
    · simp [check, current, hp, hdepth, Ne.symm hdepth, throw, throwThe, MonadExceptOf.throw]

namespace Store
variable {s : Store} {fs : Files} {m : Manifest}

/-- **A manifest is read back from the text that is written for it.** -/
theorem manifest_of_written (hversion : m.version < UInt32.size)
    (hdepth : m.merkleDepth < UInt64.size) (hfile : s.readFile fs manifestFile id =
      .ok (Bytes.ofText (Wire.manifest.write m).pretty.toList)) : s.manifest fs = .ok m := by
  have hread := (Wire.manifest_restores hversion hdepth).ofBytes_pretty
  exact bind_eq_ok_iff.mpr ⟨_, hfile, mapError_eq_ok_iff.mpr hread⟩

/-- Beside the manifest of this version all keys are admitted that were made for it. -/
theorem check_of_written_iff {depth configured : Nat} (hdepth : depth < UInt64.size)
    (hfile : s.readFile fs manifestFile id =
      .ok (Bytes.ofText (Wire.manifest.write (Manifest.current depth Predicate.all)).pretty.toList))
    {p : Predicate} : s.check fs p configured = .ok () ↔ p = .threshold ∨ configured = depth := by
  have hversion : Predicate.version < UInt32.size := by decide
  rw [check, manifest_of_written hversion hdepth hfile]
  exact Manifest.check_current_iff

/-- Keys beside the current manifest are admitted at its depth. -/
theorem check_of_written {depth : Nat} (hdepth : depth < UInt64.size)
    (hfile : s.readFile fs manifestFile id =
      .ok (Bytes.ofText (Wire.manifest.write (Manifest.current depth Predicate.all)).pretty.toList))
    (p : Predicate) : s.check fs p depth = .ok () :=
  (check_of_written_iff hdepth hfile).mpr (.inr rfl)

end Store

end Artifact

end Attest
