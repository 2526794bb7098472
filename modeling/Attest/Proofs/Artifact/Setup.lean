import Attest.Artifact.Setup
import Attest.Proofs.Artifact.Calls

/-! What a store holds once it is filled.

A set-up is refused, or it saves the keys of one predicate after the other and then the manifest
(`Store.setup_run`, `Store.fill_performs`). So when it succeeds, each predicate has a proving
key and the verifying key that belongs to it, both from one set-up, beside the manifest of this
version (`Store.setup_made`). -/
namespace Attest.Artifact.Store
variable {PK VK : Type} {s : Store} {S : Scheme PK VK} {P : Poseidon.Params}
  {entropy : Predicate → Entropy} {depth : Nat} {fs fs' : Files} {p : Predicate}

/-- The predicate's keys on the disk were made by a set-up. -/
def Made (s : Store) (S : Scheme PK VK) (P : Poseidon.Params) (entropy : Predicate → Entropy)
    (depth : Nat) (fs : Files) (p : Predicate) : Prop :=
  ∃ pk, S.setupPredicate P p depth (entropy p) = .ok pk ∧ s.Holds S fs p pk

/-- Keys are in the way of others. -/
theorem Made.hasAny (h : s.Made S P entropy depth fs p) : s.hasAny fs p := by
  obtain ⟨_, -, hproving, -⟩ := h
  exact hasAny_iff.mpr (.inl (Files.exists?_of_read hproving))

/-! ### The way through a set-up -/

section Fill
variable (s S P entropy depth)

/-- What is saved of a predicate, if there are keys for it. -/
def making? (p : Predicate) : Option (Call PK VK) :=
  (S.setupPredicate P p depth (entropy p)).toOption.map fun pk => .save p pk (S.verifyingKey pk)

/-- The key files that a set-up writes, in order. -/
def keyFiles : Writes :=
  Predicate.all.flatMap fun p => (making? S P entropy depth p).elim [] (Call.writes S)

/-- The files that a set-up writes, in order: the keys of each predicate, and the manifest. -/
def setupFiles : Writes := keyFiles S P entropy depth ++
  [(manifestFile, Bytes.ofText (Wire.manifest.write (.current depth Predicate.all)).pretty.toList)]

/-- Keys are made and saved for every predicate. -/
def fillKeys : Disk Unit :=
  Predicate.all.forM fun p => s.setupPredicate S P (entropy p) depth p

/-- All that a set-up does once nothing is in its way. -/
def fill : Disk Manifest := do
  s.fillKeys S P entropy depth
  s.writeManifest (.current depth Predicate.all)
  return .current depth Predicate.all

end Fill

theorem occupied?_eq_none_iff : s.occupied? fs = none ↔ ∀ p, ¬s.hasAny fs p := by
  rw [occupied?, List.find?_eq_none]
  exact ⟨fun h p => h p (Predicate.mem_all p), fun h p _ => h p⟩

/-- **A set-up is refused for what is in its way, or it fills the store.** -/
theorem setup_run (force : Bool) (fs : Files) : (s.setup S P entropy depth force).run.run fs =
    match if force then none else s.occupied? fs with
    | some p => (.error (.invalidInput
        s!"{p.name} artifacts already exist in {s.shown}; pass --force to replace them"), fs)
    | none => (s.fill S P entropy depth).run.run fs := by
  have hget : (get : Disk Files).run.run fs = (.ok fs, fs) := rfl
  cases force with
  | true => rfl
  | false =>
    show (get >>= _ : Disk Manifest).run.run fs = _
    rw [Disk.run_bind, hget, if_neg Bool.false_ne_true]
    dsimp only
    cases s.occupied? fs <;> rfl

/-- Whatever stands where a key would, an unforced set-up is refused and leaves the tree. -/
theorem setup_refused (entropy : Predicate → Entropy) (depth : Nat) (h : s.hasAny fs p) :
    ∃ reason, (s.setup S P entropy depth false).run.run fs =
      (.error (.invalidInput reason), fs) := by
  rw [setup_run]
  cases hoccupied : s.occupied? fs with
  | none => exact absurd h (occupied?_eq_none_iff.mp hoccupied p)
  | some q => exact ⟨_, rfl⟩

theorem setupPredicate_performs (p : Predicate) :
    s.Performs (s.setupPredicate S P (entropy p) depth p)
      ((making? S P entropy depth p).elim [] (Call.writes S)) := by
  unfold setupPredicate making?
  cases S.setupPredicate P p depth (entropy p) with
  | error e => exact .ofExcept s (.error e)
  | ok pk => exact (Call.save p pk (S.verifyingKey pk)).performs s S

theorem fillKeys_performs : s.Performs (s.fillKeys S P entropy depth)
    (keyFiles S P entropy depth) :=
  .forM Predicate.all fun p _ => setupPredicate_performs p

theorem fill_performs : s.Performs (s.fill S P entropy depth) (setupFiles S P entropy depth) :=
  fillKeys_performs.bind fun _ => (Performs.writeManifest s _).bind fun _ => .pure s _

theorem setupPredicate_run {u : Unit}
    (h : (s.setupPredicate S P (entropy p) depth p).run.run fs = (.ok u, fs')) :
    ∃ pk, S.setupPredicate P p depth (entropy p) = .ok pk := by
  obtain ⟨pk, _, hpk, -⟩ := Disk.bind_run_eq_ok_iff.mp h
  exact ⟨pk, (Disk.ofExcept_run_eq_ok_iff.mp hpk).1⟩

/-- When all keys are saved there were keys for every predicate. -/
theorem fillKeys_run {u : Unit} (h : (s.fillKeys S P entropy depth).run.run fs = (.ok u, fs')) :
    ∀ p, ∃ pk, S.setupPredicate P p depth (entropy p) = .ok pk := by
  have hall (ps : List Predicate) {fs : Files} (h : (ps.forM fun p =>
      s.setupPredicate S P (entropy p) depth p).run.run fs = (.ok u, fs')) :
      ∀ p ∈ ps, ∃ pk, S.setupPredicate P p depth (entropy p) = .ok pk := by
    induction ps generalizing fs with
    | nil => exact fun _ hp => absurd hp List.not_mem_nil
    | cons p rest ih =>
      obtain ⟨_, between, hfirst, hrest⟩ := Disk.bind_run_eq_ok_iff.mp h
      exact List.forall_mem_cons.mpr ⟨setupPredicate_run hfirst, ih hrest⟩
  exact fun p => hall Predicate.all h p (Predicate.mem_all p)

/-- What is last of the calls is last of the key files. -/
theorem last?_keyFiles {β : Type} {file : String} {part : Call PK VK → Option β} {bytes : β → Bytes}
    (h : ∀ c, Writes.last? file (Call.writes S c) = (part c).map bytes) :
    (keyFiles S P entropy depth).last? file = ((Predicate.all.filterMap fun q =>
      (making? S P entropy depth q).bind part).getLast?).map bytes := by
  apply Writes.last?_flatMap
  intro q
  cases making? S P entropy depth q with
  | none => rfl
  | some c => exact h c

/-- For a predicate its own keys are saved. -/
theorem making?_saved {pk : PK} (hpk : S.setupPredicate P p depth (entropy p) = .ok pk)
    (q : Predicate) : (making? S P entropy depth q).bind (Call.saved? p) =
      if p = q then some (pk, S.verifyingKey pk) else none := by
  by_cases hq : p = q
  · subst hq
    rw [making?, hpk, if_pos rfl]
    exact if_pos rfl
  · rw [making?, if_neg hq]
    cases S.setupPredicate P q depth (entropy q) with
    | error e => rfl
    | ok _ => exact if_neg hq

theorem keyFiles_proving {pk : PK} (hpk : S.setupPredicate P p depth (entropy p) = .ok pk) :
    (keyFiles S P entropy depth).last? (provingFile p) = some (S.writeProvingKey pk) := by
  rw [last?_keyFiles (Call.last?_proving S p)]
  simp only [making?_saved hpk]
  cases p <;> rfl

theorem keyFiles_verifying {pk : PK} (hpk : S.setupPredicate P p depth (entropy p) = .ok pk) :
    (keyFiles S P entropy depth).last? (verifyingFile p) =
      some (S.writeVerifyingKey (S.verifyingKey pk)) := by
  rw [last?_keyFiles (Call.last?_verifying S p)]
  simp only [making?_saved hpk]
  cases p <;> rfl

/-- A predicate has its keys once all key files are written, whatever the manifest holds. -/
theorem made_of_written {later : Writes} (hlater : ∀ w ∈ later, w.1 = manifestFile)
    (hkeys : ∃ pk, S.setupPredicate P p depth (entropy p) = .ok pk)
    (hwritten : ∀ {file bytes}, (keyFiles S P entropy depth ++ later).last? file = some bytes →
      fs.read (s.place file) = .ok bytes) : s.Made S P entropy depth fs p := by
  obtain ⟨pk, hpk⟩ := hkeys
  have hread {file : String} {bytes : Bytes} (hne : file ≠ manifestFile)
      (hlast : (keyFiles S P entropy depth).last? file = some bytes) :
      fs.read (s.place file) = .ok bytes := by
    apply hwritten
    have hnone : later.last? file = none :=
      Writes.last?_eq_none_iff.mpr fun w hw h => hne (h.trans (hlater w hw))
    rw [Writes.last?_append, hnone, Option.none_or, hlast]
  obtain ⟨-, hproving, hverifying, -⟩ := provingFile_ne p p
  exact ⟨pk, hpk, hread hproving (keyFiles_proving hpk), hread hverifying (keyFiles_verifying hpk)⟩

/-- **A store that was filled has for each predicate the two keys of one set-up**, and the manifest
of this version for its depth. -/
theorem setup_made {force : Bool} {m : Manifest}
    (h : (s.setup S P entropy depth force).run.run fs = (.ok m, fs')) :
    m = Manifest.current depth Predicate.all ∧
      fs'.read (s.place manifestFile) =
        .ok (Bytes.ofText (Wire.manifest.write m).pretty.toList) ∧
      ∀ p, s.Made S P entropy depth fs' p := by
  rw [setup_run] at h
  split at h
  · cases h
  · have hwork := fill_performs.done h
    obtain ⟨_, filled, hfill, h⟩ := Disk.bind_run_eq_ok_iff.mp h
    obtain ⟨_, last, -, h⟩ := Disk.bind_run_eq_ok_iff.mp h
    cases h
    refine ⟨rfl, ?_, fun p => ?_⟩
    · apply hwork.read_written
      rw [setupFiles, Writes.last?_append]
      simp [Writes.last?]
    · exact made_of_written (by simp) (fillKeys_run hfill p) hwork.read_written

end Attest.Artifact.Store
