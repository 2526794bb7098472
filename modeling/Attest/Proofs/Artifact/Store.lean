import Attest.Artifact.Store
import Attest.Proofs.Files

/-! What is seen of a store.

What a store shows of its files depends on what stands at their paths and on nothing else: of a
predicate it shows both of its key files (`Store.seen_of_files`), or that they are missing
(`Store.seen_of_missing`), and of the manifest as much. -/
namespace Attest.Artifact

/-! ### Work on a disk -/

namespace Disk
variable {α β : Type} {fs fs' : Files}

theorem run_bind (x : Disk α) (f : α → Disk β) (fs : Files) : (x >>= f).run.run fs =
    match x.run.run fs with
    | (.ok a, between) => (f a).run.run between
    | (.error e, between) => (.error e, between) := by
  rw [ExceptT.run_bind, StateT.run_bind]
  rcases x.run.run fs with ⟨e | a, between⟩ <;> rfl

/-- Work succeeds by steps that do. -/
theorem bind_run_eq_ok_iff {x : Disk α} {f : α → Disk β} {b : β} :
    (x >>= f).run.run fs = (.ok b, fs') ↔
      ∃ a between, x.run.run fs = (.ok a, between) ∧ (f a).run.run between = (.ok b, fs') := by
  rw [run_bind]
  rcases x.run.run fs with ⟨e | a, between⟩
  · exact iff_of_false (fun h => nomatch h) fun ⟨_, _, h, _⟩ => nomatch h
  · constructor
    · exact fun h => ⟨a, between, rfl, h⟩
    · rintro ⟨_, _, ⟨⟩, h⟩
      exact h

/-- Work fails with the first step that does. -/
theorem bind_run_eq_error_iff {x : Disk α} {f : α → Disk β} {e : Failure} :
    (x >>= f).run.run fs = (.error e, fs') ↔ x.run.run fs = (.error e, fs') ∨
      ∃ a between, x.run.run fs = (.ok a, between) ∧ (f a).run.run between = (.error e, fs') := by
  rw [run_bind]
  rcases x.run.run fs with ⟨_ | a, between⟩
  · constructor
    · intro h
      cases h
      exact .inl rfl
    · rintro (h | ⟨_, _, h, _⟩)
      · cases h
        rfl
      · cases h
  · constructor
    · exact fun h => .inr ⟨a, between, rfl, h⟩
    · rintro (h | ⟨_, _, ⟨⟩, h⟩)
      · cases h
      · exact h

theorem run_ofExcept (x : Except Failure α) (fs : Files) :
    (ofExcept x : Disk α).run.run fs = (x, fs) := by
  cases x <;> rfl

theorem ofExcept_run_eq_ok_iff {x : Except Failure α} {a : α} :
    (ofExcept x : Disk α).run.run fs = (.ok a, fs') ↔ x = .ok a ∧ fs = fs' := by
  rw [run_ofExcept, Prod.mk.injEq]

theorem run_change (f : Files → Except FileError Unit × Files) (fs : Files) :
    (change f).run.run fs = ((f fs).1.mapError FileError.toFailure, (f fs).2) := rfl

/-- A change fails or not, and the tree is what it leaves. -/
theorem change_run_cases {f : Files → Except FileError Unit × Files} {r : Except Failure Unit}
    (h : (change f).run.run fs = (r, fs')) :
    r = .ok () ∧ f fs = (.ok (), fs') ∨
      ∃ e : FileError, r = .error e.toFailure ∧ f fs = (.error e, fs') := by
  rw [run_change] at h
  rcases hf : f fs with ⟨e | u, made⟩
  · rw [hf] at h
    cases h
    exact .inr ⟨e, rfl, rfl⟩
  · rw [hf] at h
    cases h
    exact .inl ⟨rfl, rfl⟩

end Disk

namespace Store
variable {s : Store} {fs fs' : Files} {file : String} {bytes : Bytes}

/-! ### Single files -/

/-- The store's files are the same in both trees, whatever else is in them. -/
def Same (s : Store) (fs fs' : Files) : Prop :=
  ∀ file, fs.read (s.place file) = fs'.read (s.place file)

theorem readFile_congr {s' : Store} {missing : String → String} (hshown : s.shown = s'.shown)
    (h : fs.read (s.place file) = fs'.read (s'.place file)) :
    s.readFile fs file missing = s'.readFile fs' file missing := by
  rw [readFile, readFile, h, display, display, hshown]

/-- Only the manifest counts for what is admitted. -/
theorem check_congr {s' : Store} (hshown : s.shown = s'.shown)
    (h : fs.read (s.place manifestFile) = fs'.read (s'.place manifestFile)) (p : Predicate)
    (depth : Nat) : s.check fs p depth = s'.check fs' p depth := by
  rw [check, check, manifest, manifest, readFile_congr hshown h]

theorem readFile_eq_ok_iff {missing : String → String} :
    s.readFile fs file missing = .ok bytes ↔ fs.read (s.place file) = .ok bytes := by
  unfold readFile
  split
  · next hread => rw [hread, Except.ok.injEq, Except.ok.injEq]
  · next hread => simp [hread]
  · next hread => simp [hread]

theorem readFile_of_read {missing : String → String} (h : fs.read (s.place file) = .ok bytes) :
    s.readFile fs file missing = .ok bytes := readFile_eq_ok_iff.mpr h

theorem manifest_congr (h : fs'.look (s.place manifestFile) = fs.look (s.place manifestFile)) :
    s.manifest fs' = s.manifest fs := by
  simp only [manifest, readFile, Files.read_eq_look, h]

/-- A file is not there. -/
def absence (s : Store) (file : String) : String := s!"{s.display file} is missing"

theorem readFile_of_read_missing {missing : String → String}
    (h : fs.read (s.place file) = .error .missing) :
    s.readFile fs file missing = .error (.circuitNotFound (missing (s.absence file))) := by
  rw [readFile, h]
  rfl

theorem readFile_of_missing {missing : String → String}
    (h : fs.look (s.place file) = .error .missing) :
    s.readFile fs file missing = .error (.circuitNotFound (missing (s.absence file))) :=
  readFile_of_read_missing (by rw [Files.read_eq_look, h]; rfl)

theorem readFile_of_error {missing : String → String} {e : FileError} (he : e ≠ .missing)
    (h : fs.read (s.place file) = .error e) :
    s.readFile fs file missing = .error e.toFailure := by
  unfold readFile
  split
  · next hread => cases hread.symm.trans h
  · next hread =>
    cases hread.symm.trans h
    exact absurd rfl he
  · next hread =>
    cases hread.symm.trans h
    rfl

theorem readFile_of_file {missing : String → String} {bytes : Bytes}
    (h : fs.look (s.place file) = .ok (.file bytes)) :
    s.readFile fs file missing = .ok bytes := by
  rw [readFile, Files.read_eq_ok_iff.mpr h]

/-! ### Files -/

theorem provingFile_ne (p q : Predicate) :
    provingFile p ≠ verifyingFile q ∧ provingFile p ≠ manifestFile ∧
      verifyingFile p ≠ manifestFile ∧
      (p ≠ q → provingFile p ≠ provingFile q ∧ verifyingFile p ≠ verifyingFile q) := by
  cases p <;> cases q <;> decide

/-- The files of a store. -/
def files : List String :=
  manifestFile :: Predicate.all.flatMap fun p => [provingFile p, verifyingFile p]

theorem provingFile_mem (p : Predicate) : provingFile p ∈ files := by
  cases p <;> simp [files, Predicate.all]

theorem verifyingFile_mem (p : Predicate) : verifyingFile p ∈ files := by
  cases p <;> simp [files, Predicate.all]

theorem files_nodup : files.Nodup := by decide

theorem files_short : ∀ file ∈ files, file.utf8ByteSize ≤ Path.maxName := by decide

end Store

/-! ### Keys -/

/-- All that a store shows of a predicate's keys. -/
structure Seen (PK VK : Type) where
  provingKey : Except Failure PK
  verifyingKey : Except Failure VK
  verifyingBytes : Except Failure Bytes
  hasBoth : Bool
  hasAny : Bool

/-- Keys are shown as they were saved. -/
def Seen.saved {PK VK : Type} (S : Scheme PK VK) (pk : PK) (vk : VK) : Seen PK VK where
  provingKey := .ok pk
  verifyingKey := .ok vk
  verifyingBytes := .ok (S.writeVerifyingKey vk)
  hasBoth := true
  hasAny := true

namespace Store
variable {PK VK : Type} {s : Store} {S : Scheme PK VK} {fs fs' : Files} {p : Predicate} {pk : PK}

/-- Of keys that were never saved it is told which file is missing. -/
def unsaved (s : Store) (p : Predicate) : Seen PK VK where
  provingKey := .error (.circuitNotFound s!"{p.name}: {s.absence (provingFile p)}")
  verifyingKey := .error (.circuitNotFound s!"{p.name}: {s.absence (verifyingFile p)}")
  verifyingBytes := .error (.circuitNotFound s!"{p.name}: {s.absence (verifyingFile p)}")
  hasBoth := false
  hasAny := false

def seen (s : Store) (S : Scheme PK VK) (fs : Files) (p : Predicate) : Seen PK VK where
  provingKey := s.provingKey S fs p
  verifyingKey := s.verifyingKey S fs p
  verifyingBytes := s.verifyingBytes fs p
  hasBoth := s.hasBoth fs p
  hasAny := s.hasAny fs p

/-- Either file is in the way of a set-up. -/
theorem hasAny_iff : s.hasAny fs p ↔
    fs.exists? (s.place (provingFile p)) ∨ fs.exists? (s.place (verifyingFile p)) := by
  rw [hasAny, Bool.or_eq_true]

/-- What is in the way of a set-up is what stands in the tree. -/
theorem hasAny_congr (h : fs.below = fs'.below) (p : Predicate) :
    s.hasAny fs p = s.hasAny fs' p := by
  obtain ⟨below, faults⟩ := fs
  obtain ⟨below', faults'⟩ := fs'
  cases h
  rfl

/-- Two files make up what is seen of a predicate. -/
theorem seen_congr
    (hproving : fs'.look (s.place (provingFile p)) = fs.look (s.place (provingFile p)))
    (hverifying : fs'.look (s.place (verifyingFile p)) = fs.look (s.place (verifyingFile p))) :
    s.seen S fs' p = s.seen S fs p := by
  simp only [seen, provingKey, verifyingKey, verifyingBytes, hasBoth, hasAny, readKey, readFile,
    Files.read_eq_look, Files.isFile_eq_look, Files.exists?_eq_look, hproving, hverifying]

theorem seen_of_missing (hproving : fs.look (s.place (provingFile p)) = .error .missing)
    (hverifying : fs.look (s.place (verifyingFile p)) = .error .missing) :
    s.seen S fs p = s.unsaved p := by
  simp only [seen, provingKey, verifyingKey, verifyingBytes, hasBoth, hasAny, readKey,
    readFile_of_missing hproving, readFile_of_missing hverifying, Files.isFile_eq_look,
    Files.exists?_eq_look, hproving, hverifying]
  rfl

theorem seen_of_files {pk : PK} {vk : VK} (hpk : S.readProvingKey (S.writeProvingKey pk) = .ok pk)
    (hvk : S.readVerifyingKey (S.writeVerifyingKey vk) = .ok vk)
    (hproving : fs.look (s.place (provingFile p)) = .ok (.file (S.writeProvingKey pk)))
    (hverifying : fs.look (s.place (verifyingFile p)) = .ok (.file (S.writeVerifyingKey vk))) :
    s.seen S fs p = .saved S pk vk := by
  simp only [seen, provingKey, verifyingKey, verifyingBytes, hasBoth, hasAny, readKey,
    readFile_of_file hproving, readFile_of_file hverifying, Files.isFile_eq_look,
    Files.exists?_eq_look, hproving, hverifying]
  show Seen.mk (S.readProvingKey _) (S.readVerifyingKey _) _ _ _ = _
  rw [hpk, hvk]
  rfl

/-- The predicate's files are those of one proving key and of its verifying key. -/
structure Holds (s : Store) (S : Scheme PK VK) (fs : Files) (p : Predicate) (pk : PK) : Prop where
  proving : fs.read (s.place (provingFile p)) = .ok (S.writeProvingKey pk)
  verifying : fs.read (s.place (verifyingFile p)) = .ok (S.writeVerifyingKey (S.verifyingKey pk))

end Store

end Attest.Artifact
