import Attest.Proofs.Artifact.Store
import Attest.Proofs.Directories

/-! Work on a store, as the files that it writes.

Whatever changes a store sees to its directory and writes files into it, one after the other, and
stops at the first that it cannot write (`Store.Performs`). So all that it can make of a tree is one
relation, `Store.Work`: of each file the last write is seen (`Work.look`), and no place that is not
one of the written files has changed, but for directories that were made where nothing stood
(`Work.entry?_beside`). Work that stops is work too, on files of which the last may hold anything
(`Writes.Begun`, `Store.Halted`). -/
namespace Attest.Artifact

/-! ### Files in the order in which they are written -/

/-- Files of a store with what is written to them, in order. -/
abbrev Writes := List (String × Bytes)

/-- What is written to a file last. -/
def Writes.last? (file : String) : Writes → Option Bytes
  | [] => none
  | w :: ws => (last? file ws).or (if file = w.1 then some w.2 else none)

theorem Writes.last?_append (file : String) (ws ws' : Writes) :
    last? file (ws ++ ws') = (last? file ws').or (last? file ws) := by
  induction ws with
  | nil => exact (Option.or_none).symm
  | cons w ws ih => simp only [List.cons_append, last?, ih, Option.or_assoc]

theorem Writes.last?_eq_none_iff {file : String} {ws : Writes} :
    ws.last? file = none ↔ ∀ w ∈ ws, file ≠ w.1 := by
  induction ws with
  | nil => simp [last?]
  | cons w ws ih => simp [last?, ih, and_comm]

/-- Where each file is named once, what is written to a file is written to it last. -/
theorem Writes.last?_of_mem {ws : Writes} (hnodup : (ws.map Prod.fst).Nodup) {w : String × Bytes}
    (hw : w ∈ ws) : ws.last? w.1 = some w.2 := by
  induction ws with
  | nil => cases hw
  | cons first rest ih =>
    rw [List.map_cons, List.nodup_cons] at hnodup
    obtain ⟨hfirst, hrest⟩ := hnodup
    rw [last?]
    rcases List.mem_cons.mp hw with rfl | hw
    · have hnone : last? w.1 rest = none :=
        last?_eq_none_iff.mpr fun other hother h => hfirst (h ▸ List.mem_map_of_mem hother)
      rw [hnone, if_pos rfl]
      rfl
    · rw [ih hrest hw]
      rfl

/-- What is last of the parts is last of them all. -/
theorem Writes.last?_flatMap {α β : Type} {file : String} {f : α → Writes} {part : α → Option β}
    {bytes : β → Bytes} (h : ∀ a, last? file (f a) = (part a).map bytes) (as : List α) :
    last? file (as.flatMap f) = (as.filterMap part).getLast?.map bytes := by
  induction as with
  | nil => rfl
  | cons a rest ih =>
    rw [List.flatMap_cons, last?_append, ih, h, List.filterMap_cons]
    cases part a with
    | none => simp
    | some b =>
      rw [List.getLast?_cons]
      cases (rest.filterMap part).getLast? <;> rfl

/-- What stands in files that were to be written when that stopped: in the first of them what they
were to hold, but the last may have been begun only, and then anything stands in it. -/
inductive Writes.Begun : Writes → Writes → Prop where
  | none (ws : Writes) : Begun [] ws
  | torn (file : String) (bytes left : Bytes) (ws : Writes) :
      Begun [(file, left)] ((file, bytes) :: ws)
  | next (w : String × Bytes) {done ws : Writes} : Begun done ws → Begun (w :: done) (w :: ws)

namespace Writes.Begun
variable {done ws : Writes}

theorem append (h : Begun done ws) (ws' : Writes) : Begun done (ws ++ ws') := by
  induction h with
  | none => exact .none _
  | torn file bytes left ws => exact .torn file bytes left _
  | next w _ ih => exact .next w ih

theorem after (h : Begun done ws) (first : Writes) : Begun (first ++ done) (first ++ ws) := by
  induction first with
  | nil => exact h
  | cons w rest ih => exact .next w ih

/-- Files are begun in order. -/
theorem names (h : Begun done ws) : done.map Prod.fst <+: ws.map Prod.fst := by
  induction h with
  | none => exact List.nil_prefix
  | torn file bytes left ws => exact ⟨ws.map Prod.fst, rfl⟩
  | next w _ ih => exact (List.prefix_cons_inj w.1).mpr ih

/-- Files are begun in the first part, or that is written and they are begun in the second. -/
theorem of_append {ws' : Writes} (h : Begun done (ws ++ ws')) :
    Begun done ws ∨ ∃ later, Begun later ws' ∧ done = ws ++ later := by
  induction ws generalizing done with
  | nil => exact .inr ⟨done, h, rfl⟩
  | cons w rest ih =>
    cases h with
    | none => exact .inl (.none _)
    | torn file bytes left => exact .inl (.torn file bytes left rest)
    | next _ h =>
      rcases ih h with h | ⟨later, hlater, rfl⟩
      · exact .inl (.next w h)
      · exact .inr ⟨later, hlater, rfl⟩

end Writes.Begun

namespace Store
variable {s : Store} {fs between fs' : Files} {ws ws' : Writes}

/-- Files are written in order, and the directory is seen to at any time. -/
inductive Work (s : Store) : Files → Writes → Files → Prop where
  | rest (fs : Files) : Work s fs [] fs
  | make {fs made fs' : Files} {ws : Writes} : fs.makeDirectories s.path = (.ok (), made) →
      Work s made ws fs' → Work s fs ws fs'
  | write {fs between fs' : Files} {file : String} {bytes : Bytes} {ws : Writes} :
      fs.PutsFile s.path file bytes between → Work s between ws fs' →
      Work s fs ((file, bytes) :: ws) fs'

/-- Work that broke off: the first files are begun, and of the directory perhaps the way to it. -/
def Halted (s : Store) (fs : Files) (ws : Writes) (fs' : Files) : Prop :=
  ∃ done between, Writes.Begun done ws ∧ s.Work fs done between ∧
    (between = fs' ∨ (between.makeDirectories s.path).2 = fs')

theorem Work.trans (h : s.Work fs ws between) (h' : s.Work between ws' fs') :
    s.Work fs (ws ++ ws') fs' := by
  induction h with
  | rest => exact h'
  | make hmade _ ih => exact .make hmade (ih h')
  | write hwrite _ ih => exact .write hwrite (ih h')

theorem Halted.append (h : s.Halted fs ws fs') (ws' : Writes) : s.Halted fs (ws ++ ws') fs' := by
  obtain ⟨done, between, hdone, hwork, hlast⟩ := h
  exact ⟨done, between, hdone.append ws', hwork, hlast⟩

theorem Work.halted (h : s.Work fs ws between) (h' : s.Halted between ws' fs') :
    s.Halted fs (ws ++ ws') fs' := by
  obtain ⟨done, last, hdone, hwork, hlast⟩ := h'
  exact ⟨ws ++ done, last, hdone.after ws, h.trans hwork, hlast⟩

/-! ### What work leaves -/

theorem Work.keepsDirectories (h : s.Work fs ws fs') : fs.KeepsDirectories fs' := by
  induction h with
  | rest => exact fun _ h => h
  | make hmade _ ih => exact (Files.grows_of_makeDirectories hmade).keepsDirectories.trans ih
  | write hput _ ih => exact hput.keepsDirectories.trans ih

/-- **In a directory that is there, the last write of a file is seen**, and a file that is not
written is seen as before. -/
theorem Work.look (h : s.Work fs ws fs') (hthere : fs.isDirectory s.path) (file : String) :
    fs'.look (s.place file) =
      (ws.last? file).elim (fs.look (s.place file)) fun bytes => .ok (.file bytes) := by
  induction h with
  | rest => rfl
  | make hmade _ ih =>
    rw [Files.makeDirectories_of_isDirectory hthere] at hmade
    cases hmade
    exact ih hthere
  | @write fs between fs' name bytes ws hput _ ih =>
    have hlook : between.look (s.place file) =
        if file = name then .ok (.file bytes) else fs.look (s.place file) :=
      hput.look_child file
    rw [ih (hput.keepsDirectories.isDirectory hthere), hlook, Writes.last?]
    cases ws.last? file with
    | some later => rfl
    | none =>
      by_cases hname : file = name
      · simp [hname]
      · simp [hname]

/-- The directory is empty, or it is not there and empty once it is made. -/
def Fresh (s : Store) (fs : Files) : Prop :=
  fs.names s.path = .ok [] ∨ fs.find s.path = .error .missing ∧
    ∀ made, fs.makeDirectories s.path = (.ok (), made) → made.names s.path = .ok []

/-- A directory that is not there is fresh when the path to it takes no step up. -/
theorem fresh_of_missing (hrooted : fs.Rooted) (hup : .up ∉ s.path.steps)
    (h : fs.find s.path = .error .missing) : s.Fresh fs :=
  .inr ⟨h, fun _ hmade => Files.names_of_made hrooted hup h hmade⟩

/-- **In a fresh directory exactly what was written is seen.** -/
theorem Work.look_of_fresh (h : s.Work fs ws fs') (hfresh : s.Fresh fs) {file : String}
    (hvalid : (s.place file).isValid) (hshort : file.utf8ByteSize ≤ Path.maxName) :
    fs'.look (s.place file) =
      (ws.last? file).elim (.error .missing) fun bytes => .ok (.file bytes) := by
  have hempty {fs : Files} (h : s.Work fs ws fs') (hnames : fs.names s.path = .ok []) :
      fs'.look (s.place file) =
        (ws.last? file).elim (.error .missing) fun bytes => .ok (.file bytes) := by
    have hthere : fs.isDirectory s.path := by
      obtain ⟨place, hplace, -⟩ := Files.names_eq_nil_iff.mp hnames
      exact Files.isDirectory_iff.mpr ⟨place, hplace⟩
    have hlook : fs.look (s.place file) = .error .missing :=
      Files.look_child_of_names hnames hvalid hshort
    rw [h.look hthere, hlook]
  rcases hfresh with hnames | ⟨hmissing, hmade⟩
  · exact hempty h hnames
  · cases h with
    | rest => exact Files.look_child_of_missing hmissing hvalid
    | make hmake hwork => exact hempty hwork (hmade _ hmake)
    | write hput _ =>
      obtain ⟨hhome, -⟩ := hput
      exact absurd hmissing hhome.find_ne_missing

/-- What can be read can be read as long as it is not written. -/
theorem Work.read_kept (h : s.Work fs ws fs') {file : String} {bytes : Bytes}
    (hnone : ws.last? file = none) (hread : fs.read (s.place file) = .ok bytes) :
    fs'.read (s.place file) = .ok bytes := by
  induction h with
  | rest => exact hread
  | make hmade _ ih => exact ih hnone ((Files.grows_of_makeDirectories hmade).read_child hread)
  | @write _ _ _ name _ _ hput _ ih =>
    obtain ⟨hlater, hname⟩ := Option.or_eq_none_iff.mp hnone
    have hne : file ≠ name := fun h => nomatch (if_pos h).symm.trans hname
    exact ih hlater (hput.read_beside hne hread)

/-- **The last write of a file is read.** -/
theorem Work.read_written (h : s.Work fs ws fs') {file : String} {bytes : Bytes}
    (hlast : ws.last? file = some bytes) : fs'.read (s.place file) = .ok bytes := by
  induction h with
  | rest => cases hlast
  | make _ _ ih => exact ih hlast
  | @write _ _ _ name _ ws hput hwork ih =>
    rw [Writes.last?] at hlast
    cases hlater : ws.last? file with
    | some later =>
      rw [hlater] at hlast
      exact ih (hlater.trans hlast)
    | none =>
      rw [hlater, Option.none_or] at hlast
      split at hlast
      · next hname =>
        cases hlast
        exact hwork.read_kept hlater (hname ▸ hput.read_child)
      · cases hlast

/-- **No place is touched that is not one of the written files**, but for directories that are made
where nothing stood, and only if the store's own was not there. -/
theorem Work.entry?_beside (h : s.Work fs ws fs') {place : Place}
    (hplace : ∀ w ∈ ws, fs'.resolve (s.place w.1) ≠ .ok place) :
    fs'.entry? place = fs.entry? place ∨
      ¬fs.isDirectory s.path ∧ fs.entry? place = none ∧ fs'.entry? place = some .directory := by
  induction h with
  | rest => exact .inl rfl
  | @make fs made fs' _ hmade _ ih =>
    by_cases hthere : fs.isDirectory s.path
    · rw [Files.makeDirectories_of_isDirectory hthere] at hmade
      cases hmade
      exact ih hplace
    · have hadds := Files.makeDirectories_adds fs s.path place
      rw [hmade] at hadds
      rcases ih hplace with hsame | ⟨hnot, -⟩
      · rw [hsame]
        exact hadds.imp id fun h => ⟨hthere, h⟩
      · exact absurd (Files.isDirectory_of_makeDirectories hmade) hnot
  | @write fs between fs' name bytes ws hput hwork ih =>
    have hkeep := hput.keepsDirectories
    have hbetween : between.entry? place = fs.entry? place := by
      apply hput.entry?
      intro hresolve
      apply hplace _ List.mem_cons_self
      exact Files.resolve_kept (hkeep.trans hwork.keepsDirectories) hresolve
    rw [← hbetween]
    refine (ih fun w hw => hplace w (List.mem_cons_of_mem _ hw)).imp id fun ⟨hnot, h⟩ => ?_
    exact ⟨fun hthere => hnot (hkeep.isDirectory hthere), h⟩

/-! ### Work that is done by programs -/

/-- All that a program does to a store is to write these files, or to begin with the first of them
if it fails. -/
structure Performs {α : Type} (s : Store) (x : Disk α) (ws : Writes) : Prop where
  done : ∀ {fs fs' a}, x.run.run fs = (.ok a, fs') → s.Work fs ws fs'
  halted : ∀ {fs fs' e}, x.run.run fs = (.error e, fs') → s.Halted fs ws fs'

namespace Performs
variable {α β : Type}

theorem bind {x : Disk α} {f : α → Disk β} (hx : s.Performs x ws)
    (hf : ∀ a, s.Performs (f a) ws') : s.Performs (x >>= f) (ws ++ ws') where
  done h := by
    obtain ⟨a, between, hfirst, hsecond⟩ := Disk.bind_run_eq_ok_iff.mp h
    exact (hx.done hfirst).trans ((hf a).done hsecond)
  halted h := by
    rcases Disk.bind_run_eq_error_iff.mp h with hfirst | ⟨a, between, hfirst, hsecond⟩
    · exact (hx.halted hfirst).append ws'
    · exact (hx.done hfirst).halted ((hf a).halted hsecond)

theorem pure (s : Store) (a : α) : s.Performs (Pure.pure a : Disk α) [] where
  done h := by
    cases h
    exact .rest _
  halted h := by cases h

theorem ofExcept (s : Store) (x : Except Failure α) :
    s.Performs (MonadExcept.ofExcept x : Disk α) [] where
  done h := by
    rw [Disk.run_ofExcept] at h
    cases h
    exact .rest _
  halted h := by
    rw [Disk.run_ofExcept] at h
    cases h
    exact ⟨[], _, .none _, .rest _, .inl rfl⟩

theorem makeDirectory (s : Store) : s.Performs s.makeDirectory [] where
  done h := by
    rcases Disk.change_run_cases h with ⟨-, hmade⟩ | ⟨_, ⟨⟩, -⟩
    exact .make hmade (.rest _)
  halted {fs fs' e} h := by
    rcases Disk.change_run_cases h with ⟨⟨⟩, -⟩ | ⟨_, -, hmade⟩
    exact ⟨[], fs, .none _, .rest _, .inr (congrArg Prod.snd hmade)⟩

theorem writeFile (s : Store) (file : String) (bytes : Bytes) :
    s.Performs (s.writeFile file bytes) [(file, bytes)] where
  done h := by
    rcases Disk.change_run_cases h with ⟨-, hwrite⟩ | ⟨_, ⟨⟩, -⟩
    rcases Files.write_cases hwrite with ⟨-, hput⟩ | ⟨_, ⟨⟩, -⟩
    exact .write hput (.rest _)
  halted {fs fs' e} h := by
    rcases Disk.change_run_cases h with ⟨⟨⟩, -⟩ | ⟨_, -, hwrite⟩
    rcases Files.write_cases hwrite with ⟨⟨⟩, -⟩ | ⟨_, -, rfl | ⟨left, hput⟩⟩
    · exact ⟨[], fs, .none _, .rest _, .inl rfl⟩
    · exact ⟨[(file, left)], fs', .torn file bytes left [], .write hput (.rest _), .inl rfl⟩

/-- What is performed item by item is performed for a list. -/
theorem forM {f : α → Disk Unit} {writes : α → Writes} (as : List α)
    (hf : ∀ a ∈ as, s.Performs (f a) (writes a)) : s.Performs (as.forM f) (as.flatMap writes) := by
  induction as with
  | nil => exact pure s ()
  | cons a rest ih =>
    rw [List.flatMap_cons]
    exact (hf a List.mem_cons_self).bind fun _ => ih fun b hb => hf b (List.mem_cons_of_mem a hb)

variable {PK VK : Type}

theorem save (s : Store) (S : Scheme PK VK) (p : Predicate) (pk : PK) (vk : VK) :
    s.Performs (s.save S p pk vk) [(provingFile p, S.writeProvingKey pk),
      (verifyingFile p, S.writeVerifyingKey vk)] :=
  (makeDirectory s).bind fun _ => (writeFile s _ _).bind fun _ => writeFile s _ _

theorem writeManifest (s : Store) (m : Manifest) : s.Performs (s.writeManifest m)
    [(manifestFile, Bytes.ofText (Wire.manifest.write m).pretty.toList)] :=
  (makeDirectory s).bind fun _ => writeFile s _ _

end Performs

end Store

end Attest.Artifact
