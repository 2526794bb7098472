import Attest.Proofs.Artifact.Manifest
import Attest.Proofs.Artifact.Sealing

/-! Set-ups that fail.

Nothing is taken back. A set-up that is not refused writes its files in order and stops at the first
that it cannot write, which may then hold anything (`Store.fill_halted`). The files before it are
those of the new keys, the manifest comes last of all, and everything else is as it was
(`Store.setup_failed`). -/
namespace Attest.Artifact.Store
open Service (sealing sealing_fill fillSealed)

variable {PK VK : Type} {s : Store} {S : Scheme PK VK} {P : Poseidon.Params}
  {entropy : Predicate → Entropy} {depth : Nat} {fs fs' : Files} {e : Failure} {ws : Writes}

/-! ### What is left where work halts -/

/-- What work leaves when this is what it wrote: it is read back, and nothing else has changed, but
for directories where nothing stood, and those only if the store's own was missing. -/
structure Left (s : Store) (fs : Files) (done : Writes) (fs' : Files) : Prop where
  written : ∀ {file bytes}, done.last? file = some bytes → fs'.read (s.place file) = .ok bytes
  kept : ∀ {file bytes}, done.last? file = none → fs.read (s.place file) = .ok bytes →
    fs'.read (s.place file) = .ok bytes
  beside : ∀ place, (∀ w ∈ done, fs'.resolve (s.place w.1) ≠ .ok place) →
    fs'.entry? place = fs.entry? place ∨
      ¬fs.isDirectory s.path ∧ fs.entry? place = none ∧ fs'.entry? place = some .directory

theorem Work.left {done : Writes} (h : s.Work fs done fs') : s.Left fs done fs' :=
  ⟨h.read_written, h.read_kept, fun _ => h.entry?_beside⟩

/-- A part of the way to the directory changes nothing of what is left. -/
theorem Left.makeDirectories {done : Writes} (h : s.Left fs done fs')
    (hkeep : fs.KeepsDirectories fs') : s.Left fs done (fs'.makeDirectories s.path).2 := by
  have hgrows := Files.makeDirectories_grows fs' s.path
  refine ⟨fun hlast => hgrows.read_child (h.written hlast),
    fun hnone hread => hgrows.read_child (h.kept hnone hread), fun place hplace => ?_⟩
  have hbefore := h.beside place fun w hw hresolve =>
    hplace w hw (Files.resolve_kept hgrows.keepsDirectories hresolve)
  by_cases hthere : fs.isDirectory s.path
  · rw [Files.makeDirectories_of_isDirectory (hkeep.isDirectory hthere)]
    exact hbefore
  · rcases Files.makeDirectories_adds fs' s.path place with hsame | ⟨hnone, hmade⟩
    · rw [hsame]
      exact hbefore
    · rcases hbefore with hsame | ⟨-, -, hdirectory⟩
      · exact .inr ⟨hthere, hsame ▸ hnone, hmade⟩
      · exact nomatch hnone.symm.trans hdirectory

theorem Halted.left (h : s.Halted fs ws fs') :
    ∃ done : Writes, done.Begun ws ∧ s.Left fs done fs' := by
  obtain ⟨done, between, hdone, hwork, rfl | rfl⟩ := h
  · exact ⟨done, hdone, hwork.left⟩
  · exact ⟨done, hdone, hwork.left.makeDirectories hwork.keepsDirectories⟩

/-! ### Where a set-up halts -/

/-- The key files are those of the predicates, each named once at most. -/
theorem keyFiles_sublist (S : Scheme PK VK) (P : Poseidon.Params) (entropy : Predicate → Entropy)
    (depth : Nat) : ((keyFiles S P entropy depth).map Prod.fst).Sublist
      (Predicate.all.flatMap fun p => [provingFile p, verifyingFile p]) := by
  have hkeys (p : Predicate) :
      (((making? S P entropy depth p).elim [] (Call.writes S)).map Prod.fst).Sublist
        [provingFile p, verifyingFile p] := by
    unfold making?
    cases S.setupPredicate P p depth (entropy p) with
    | error e => exact List.nil_sublist _
    | ok pk => exact List.Sublist.refl _
  simp only [keyFiles, Predicate.all, List.flatMap_cons, List.flatMap_nil, List.map_append,
    List.map_nil]
  exact (hkeys .threshold).append ((hkeys .membership).append (List.Sublist.refl []))

theorem manifestFile_not_mem_keyFiles (S : Scheme PK VK) (P : Poseidon.Params)
    (entropy : Predicate → Entropy) (depth : Nat) :
    manifestFile ∉ (keyFiles S P entropy depth).map Prod.fst :=
  fun h => (List.nodup_cons.mp files_nodup).1 ((keyFiles_sublist S P entropy depth).subset h)

theorem names_setupFiles (S : Scheme PK VK) (P : Poseidon.Params) (entropy : Predicate → Entropy)
    (depth : Nat) : (setupFiles S P entropy depth).map Prod.fst =
      (keyFiles S P entropy depth).map Prod.fst ++ [manifestFile] := by
  rw [setupFiles, List.map_append]
  rfl

/-- No file is written twice. -/
theorem setupFiles_nodup (S : Scheme PK VK) (P : Poseidon.Params) (entropy : Predicate → Entropy)
    (depth : Nat) : ((setupFiles S P entropy depth).map Prod.fst).Nodup := by
  rw [names_setupFiles, ← List.concat_eq_append, List.nodup_concat]
  exact ⟨manifestFile_not_mem_keyFiles S P entropy depth,
    (List.nodup_cons.mp files_nodup).2.sublist (keyFiles_sublist S P entropy depth)⟩

theorem mem_setupFiles {file : String} (h : file ∈ (setupFiles S P entropy depth).map Prod.fst) :
    (∃ p, file = provingFile p ∨ file = verifyingFile p) ∨ file = manifestFile := by
  rw [names_setupFiles, List.mem_append, List.mem_singleton] at h
  refine h.imp_left fun hkey => ?_
  obtain ⟨p, -, hp⟩ := List.mem_flatMap.mp ((keyFiles_sublist S P entropy depth).subset hkey)
  exact ⟨p, by simpa using hp⟩

/-- **Work that fails has begun with the first of its files**, and with the manifest only when every
predicate has its keys. -/
theorem fill_halted (h : (s.fill S P entropy depth).run.run fs = (.error e, fs')) :
    ∃ done : Writes, done.Begun (setupFiles S P entropy depth) ∧ s.Left fs done fs' ∧
      (manifestFile ∈ done.map Prod.fst → ∀ p, s.Made S P entropy depth fs' p) := by
  have hkeys {done : Writes} (hdone : done.Begun (keyFiles S P entropy depth)) :
      manifestFile ∉ done.map Prod.fst := fun h =>
    manifestFile_not_mem_keyFiles S P entropy depth (hdone.names.subset h)
  have hhalted := fill_performs.halted h
  rcases Disk.bind_run_eq_error_iff.mp h with h | ⟨_, filled, hfill, -⟩
  · obtain ⟨done, hdone, hleft⟩ := (fillKeys_performs.halted h).left
    exact ⟨done, hdone.append _, hleft, fun hmanifest => absurd hmanifest (hkeys hdone)⟩
  · obtain ⟨done, hdone, hleft⟩ := hhalted.left
    refine ⟨done, hdone, hleft, fun hmanifest p => ?_⟩
    rcases hdone.of_append with hdone | ⟨later, hlater, rfl⟩
    · exact absurd hmanifest (hkeys hdone)
    · refine made_of_written (fun w hw => ?_) (fillKeys_run hfill p) hleft.written
      exact List.mem_singleton.mp (hlater.names.subset (List.mem_map_of_mem hw))

end Attest.Artifact.Store
