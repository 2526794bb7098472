import Attest.Files
import Attest.Proofs.Assembly

/-! What operations leave of a tree of files.

A path leads to the same place for as long as the directories on it are there
(`Files.followAll_kept`), and putting a file takes no directory away; so in the directory of a file
that was put the file is seen, and every other name as it was before (`Files.PutsFile.look_child`).
A write puts its file, and one that fails puts another in its place or none (`Files.write_cases`).
Making directories adds to a tree and changes nothing that is there
(`Files.makeDirectories_grows`). -/
namespace Attest

/-! ### Paths in a directory -/

namespace Path

/-- The steps of a path without a slash at the end. -/
def base (p : Path) : List Step := if p.slash then p.steps.dropLast else p.steps

theorem steps_child (p : Path) (name : String) :
    (p.child name).steps = p.base ++ [.into name] := rfl

theorem slash_child (p : Path) (name : String) : (p.child name).slash = false := by
  rw [slash, steps_child, List.getLast?_concat]
  rfl

end Path

namespace Files
variable {fs fs' : Files} {p : Path} {name : String} {bytes : Bytes}

/-! ### Entries -/

theorem entry?_put {place : Place} (h : place ≠ []) (e : Entry) (q : Place) :
    Files.entry? (fs.put place e) q = if q = place then some e else fs.entry? q := by
  unfold entry?
  by_cases hroot : q = []
  · subst hroot
    rw [if_pos rfl, if_neg (Ne.symm h), if_pos rfl]
  · rw [if_neg hroot, if_neg hroot]
    by_cases hq : q = place
    · subst hq
      simp [put]
    · have hne : (place == q) = false := by simpa using Ne.symm hq
      have hother (e : Place × Entry) :
          decide ((e.1 != place) = true ∧ (e.1 == q) = true) = (e.1 == q) := by
        by_cases he : e.1 = q
        · simp [he, hq]
        · simp [he]
      rw [if_neg hq, put, List.find?_cons, hne, List.find?_filter]
      simp only [hother]

theorem child_ne_root (here : Place) (name : String) : here ++ [name] ≠ [] :=
  List.append_ne_nil_of_right_ne_nil _ (List.cons_ne_nil _ _)

/-- Whatever is put at a place, what stands elsewhere stays. -/
theorem entry?_put_of_some {place q : Place} {e' : Entry} (hroot : place ≠ [])
    (hplace : fs.entry? place ≠ some e') (hq : fs.entry? q = some e') (e : Entry) :
    Files.entry? (fs.put place e) q = some e' := by
  have hne : q ≠ place := by
    rintro rfl
    exact hplace hq
  rw [entry?_put hroot, if_neg hne, hq]

/-- Every directory of the one tree is one of the other. -/
def KeepsDirectories (fs fs' : Files) : Prop :=
  ∀ place, fs.entry? place = some .directory → fs'.entry? place = some .directory

theorem KeepsDirectories.trans {fs'' : Files} (h : fs.KeepsDirectories fs')
    (h' : fs'.KeepsDirectories fs'') : fs.KeepsDirectories fs'' :=
  fun place hplace => h' place (h place hplace)

/-- All that stands in the one tree stands in the other. -/
def GrowsTo (fs fs' : Files) : Prop :=
  ∀ place e, fs.entry? place = some e → fs'.entry? place = some e

theorem GrowsTo.refl (fs : Files) : fs.GrowsTo fs := fun _ _ h => h

theorem GrowsTo.trans {fs'' : Files} (h : fs.GrowsTo fs') (h' : fs'.GrowsTo fs'') :
    fs.GrowsTo fs'' := fun place e he => h' place e (h place e he)

theorem GrowsTo.keepsDirectories (h : fs.GrowsTo fs') : fs.KeepsDirectories fs' :=
  fun place hplace => h place .directory hplace

/-- Where no directory stands a file may be put. -/
theorem put_keepsDirectories {place : Place} (hroot : place ≠ [])
    (h : fs.entry? place ≠ some .directory) (e : Entry) : fs.KeepsDirectories (fs.put place e) :=
  fun _ hq => entry?_put_of_some hroot h hq e

/-- Something stands at the root. -/
theorem ne_root_of_none {place : Place} (h : fs.entry? place = none) : place ≠ [] := by
  intro hroot
  subst hroot
  exact nomatch h

/-- Where nothing stands anything may be put. -/
theorem put_grows {place : Place} (h : fs.entry? place = none) (e : Entry) :
    fs.GrowsTo (fs.put place e) :=
  fun _ _ hq => entry?_put_of_some (ne_root_of_none h) (by simp [h]) hq e

/-! ### Following paths -/

theorem enter_eq_ok_iff {here : Place} {u : Unit} :
    fs.enter here = .ok u ↔ fs.entry? here = some .directory := by
  unfold enter
  cases fs.entry? here with
  | none => simp
  | some e => cases e <;> simp

theorem follow_kept (hkeep : fs.KeepsDirectories fs') {here next : Place} {step : Path.Step}
    (h : fs.follow here step = .ok next) : fs'.follow here step = .ok next := by
  have henter {f : Unit → Except FileError Place} (h : fs.enter here >>= f = .ok next) :
      fs'.enter here >>= f = .ok next := by
    obtain ⟨u, hu, hf⟩ := bind_eq_ok_iff.mp h
    exact bind_eq_ok_iff.mpr ⟨u, enter_eq_ok_iff.mpr (hkeep _ (enter_eq_ok_iff.mp hu)), hf⟩
  cases step with
  | skip => exact h
  | stay => exact henter h
  | up => exact henter h
  | into name => exact henter h

/-- **A path leads to the same place while the directories on it are there.** -/
theorem followAll_kept (hkeep : fs.KeepsDirectories fs') {here next : Place}
    {steps : List Path.Step} (h : steps.foldlM fs.follow here = .ok next) :
    steps.foldlM fs'.follow here = .ok next := by
  induction steps generalizing here with
  | nil => exact h
  | cons step rest ih =>
    rw [List.foldlM_cons] at h ⊢
    obtain ⟨place, hplace, hrest⟩ := bind_eq_ok_iff.mp h
    exact bind_eq_ok_iff.mpr ⟨place, follow_kept hkeep hplace, ih hrest⟩

/-- The directory at a path, and a name that a file may have in it. -/
structure Home (fs : Files) (p : Path) (name : String) (here : Place) : Prop where
  valid : (p.child name).isValid
  leads : p.base.foldlM fs.follow [] = .ok here
  directory : fs.entry? here = some .directory
  short : name.utf8ByteSize ≤ Path.maxName

theorem Home.kept {here : Place} (h : fs.Home p name here) (hkeep : fs.KeepsDirectories fs') :
    fs'.Home p name here :=
  ⟨h.valid, followAll_kept hkeep h.leads, hkeep _ h.directory, h.short⟩

/-- There is one directory at a path. -/
theorem Home.unique {here there : Place} {other : String} (h : fs.Home p name here)
    (h' : fs.Home p other there) : here = there :=
  Except.ok.inj (h.leads.symm.trans h'.leads)

theorem resolve_child_eq_ok_iff {place : Place} : fs.resolve (p.child name) = .ok place ↔
    ∃ here, fs.Home p name here ∧ here ++ [name] = place := by
  have hinto {here : Place} : fs.follow here (.into name) = .ok place ↔
      fs.entry? here = some .directory ∧ name.utf8ByteSize ≤ Path.maxName ∧
        here ++ [name] = place := by
    rw [follow, bind_eq_ok_iff]
    simp only [enter_eq_ok_iff]
    by_cases hshort : name.utf8ByteSize ≤ Path.maxName
    · simp [hshort, pure, Except.pure]
    · simp [hshort, throw, throwThe, MonadExceptOf.throw]
  unfold resolve
  split
  · next hvalid =>
    rw [Path.steps_child, List.foldlM_append, bind_eq_ok_iff]
    simp only [List.foldlM_cons, List.foldlM_nil, bind_pure, hinto]
    constructor
    · rintro ⟨here, hleads, hdirectory, hshort, hplace⟩
      exact ⟨here, ⟨hvalid, hleads, hdirectory, hshort⟩, hplace⟩
    · rintro ⟨here, h, hplace⟩
      exact ⟨here, h.leads, h.directory, h.short, hplace⟩
  · next hinvalid => exact iff_of_false (fun h => nomatch h) fun ⟨_, h, _⟩ => hinvalid h.valid

/-- Slash or none, a path leads to the same place. -/
theorem followAll_base (fs : Files) (p : Path) (here : Place) :
    p.steps.foldlM fs.follow here = p.base.foldlM fs.follow here := by
  unfold Path.base
  split
  · next hslash =>
    obtain ⟨before, hsteps⟩ := List.getLast?_eq_some_iff.mp (beq_iff_eq.mp hslash)
    rw [hsteps, List.dropLast_concat, List.foldlM_append]
    show (before.foldlM fs.follow here >>= pure) = _
    exact bind_pure _
  · rfl

theorem resolve_kept (hkeep : fs.KeepsDirectories fs') {place : Place}
    (h : fs.resolve p = .ok place) : fs'.resolve p = .ok place := by
  unfold resolve at h ⊢
  by_cases hvalid : p.isValid
  · rw [if_pos hvalid] at h ⊢
    exact followAll_kept hkeep h
  · rw [if_neg hvalid] at h
    cases h

theorem resolve_child (hvalid : (p.child name).isValid) :
    fs.resolve (p.child name) = p.base.foldlM fs.follow [] >>= fun here =>
      fs.follow here (.into name) := by
  rw [resolve, if_pos hvalid, Path.steps_child, List.foldlM_append]
  simp

/-- The other names of a directory lead into it too. -/
theorem Home.resolve_beside {here : Place} (h : fs.Home p name here) (other : String) :
    fs.resolve (p.child other) =
      if (p.child other).isValid ∧ other.utf8ByteSize ≤ Path.maxName then .ok (here ++ [other])
      else .error .badName := by
  by_cases hvalid : (p.child other).isValid
  · rw [resolve_child hvalid, h.leads]
    have henter : fs.enter here = .ok () := enter_eq_ok_iff.mpr h.directory
    show fs.follow here (.into other) = _
    rw [follow, henter]
    by_cases hshort : other.utf8ByteSize ≤ Path.maxName
    · simp only [hvalid, hshort, bind, Except.bind]
      rfl
    · simp only [hshort, bind, Except.bind]
      rw [if_neg (not_and_of_not_right _ not_false)]
      rfl
  · rw [resolve, if_neg hvalid, if_neg fun h => hvalid h.1]

/-! ### Looking -/

/-- What stands at a path. -/
def look (fs : Files) (p : Path) : Except FileError Entry := Prod.snd <$> fs.find p

theorem read_eq_look (fs : Files) (p : Path) : fs.read p = fs.look p >>= fun
    | .file bytes => .ok bytes
    | .directory => .error .isDirectory := by
  rw [read, look]
  rcases fs.find p with e | ⟨place, _ | _⟩ <;> rfl

theorem read_eq_ok_iff : fs.read p = .ok bytes ↔ fs.look p = .ok (.file bytes) := by
  rw [read_eq_look]
  rcases fs.look p with e | _ | _
  · exact iff_of_false (fun h => nomatch h) fun h => nomatch h
  · constructor <;> intro h <;> cases h <;> rfl
  · exact iff_of_false (fun h => nomatch h) fun h => nomatch h

theorem isFile_eq_look (fs : Files) (p : Path) :
    fs.isFile p = ((fs.look p).toOption.map fun e => e != .directory).getD false := by
  rw [isFile, look]
  rcases fs.find p with e | ⟨place, _ | _⟩ <;> rfl

theorem exists?_eq_look (fs : Files) (p : Path) : fs.exists? p = (fs.look p).isOk := by
  rw [exists?, look]
  rcases fs.find p with e | ⟨place, _ | _⟩ <;> rfl

theorem exists?_of_read (h : fs.read p = .ok bytes) : fs.exists? p := by
  rw [exists?_eq_look, read_eq_ok_iff.mp h]
  rfl

theorem look_child (fs : Files) (p : Path) (name : String) :
    fs.look (p.child name) = fs.resolve (p.child name) >>= fun place =>
      (fs.entry? place).elim (.error .missing) .ok := by
  rw [look, find]
  cases fs.resolve (p.child name) with
  | error e => rfl
  | ok place =>
    simp only [bind, Except.bind, p.slash_child]
    cases fs.entry? place with
    | none => rfl
    | some e => cases e <;> rfl

/-! ### Reading and writing -/

theorem read_of_resolve {place : Place} (hslash : p.slash = false)
    (h : fs.resolve p = .ok place) : fs.read p =
      match fs.entry? place with
      | none => .error .missing
      | some (.file bytes) => .ok bytes
      | some .directory => .error .isDirectory := by
  rw [read, find, h]
  simp only [bind, Except.bind, hslash]
  cases fs.entry? place with
  | none => rfl
  | some e => cases e <;> rfl

/-- **A file of a directory is read if it is there.** -/
theorem read_child_eq_ok_iff : fs.read (p.child name) = .ok bytes ↔
    ∃ here, fs.Home p name here ∧ fs.entry? (here ++ [name]) = some (.file bytes) := by
  cases hresolve : fs.resolve (p.child name) with
  | error e =>
    have hread : fs.read (p.child name) = .error e := by
      rw [read, find, hresolve]
      rfl
    rw [hread]
    refine iff_of_false (fun h => nomatch h) fun ⟨here, h, _⟩ => ?_
    have := resolve_child_eq_ok_iff.mpr ⟨here, h, rfl⟩
    exact nomatch hresolve.symm.trans this
  | ok place =>
    obtain ⟨here, h, rfl⟩ := resolve_child_eq_ok_iff.mp hresolve
    rw [read_of_resolve (p.slash_child name) hresolve]
    constructor
    · intro hread
      refine ⟨here, h, ?_⟩
      split at hread
      · exact nomatch hread
      · next hentry => rw [hentry, Except.ok.inj hread]
      · exact nomatch hread
    · rintro ⟨there, h', hentry⟩
      rw [h.unique h', hentry]

/-! ### Putting files -/

/-- A tree with a file put into the directory at a path, whatever stood there but a directory. -/
inductive PutsFile (fs : Files) (p : Path) (name : String) (bytes : Bytes) : Files → Prop
  | put {here : Place} (home : fs.Home p name here)
    (free : fs.entry? (here ++ [name]) ≠ some .directory) :
      PutsFile fs p name bytes (fs.put (here ++ [name]) (.file bytes))

theorem filePlace_child {place : Place} (h : fs.filePlace (p.child name) = .ok place) :
    ∃ here, fs.Home p name here ∧ here ++ [name] = place ∧ fs.entry? place ≠ some .directory := by
  obtain ⟨there, hresolve, h⟩ := bind_eq_ok_iff.mp h
  obtain ⟨here, hhome, rfl⟩ := resolve_child_eq_ok_iff.mp hresolve
  by_cases hentry : fs.entry? (here ++ [name]) = some .directory
  · rw [if_pos (.inl hentry)] at h
    exact nomatch h
  · rw [if_neg (by simp [hentry, p.slash_child])] at h
    obtain rfl := Except.ok.inj h
    exact ⟨here, hhome, rfl, hentry⟩

/-- **A write puts the file, or it fails**, and then it leaves the tree or puts some other file. -/
theorem write_cases {r : Except FileError Unit} (h : fs.write (p.child name) bytes = (r, fs')) :
    r = .ok () ∧ fs.PutsFile p name bytes fs' ∨
      ∃ e, r = .error e ∧ (fs = fs' ∨ ∃ left, fs.PutsFile p name left fs') := by
  unfold write at h
  split at h
  · cases h
    exact .inr ⟨_, rfl, .inl rfl⟩
  · next hplace =>
    obtain ⟨here, hhome, rfl, hfree⟩ := filePlace_child hplace
    split at h <;> cases h
    · exact .inl ⟨rfl, .put hhome hfree⟩
    · exact .inr ⟨_, rfl, .inl rfl⟩
    · exact .inr ⟨_, rfl, .inr ⟨_, .put hhome hfree⟩⟩

theorem PutsFile.keepsDirectories (h : fs.PutsFile p name bytes fs') : fs.KeepsDirectories fs' := by
  obtain ⟨-, hfree⟩ := h
  exact put_keepsDirectories (child_ne_root _ name) hfree _

/-- **No other place is touched.** -/
theorem PutsFile.entry? {place : Place} (h : fs.PutsFile p name bytes fs')
    (hplace : fs.resolve (p.child name) ≠ .ok place) : fs'.entry? place = fs.entry? place := by
  obtain @⟨here, hhome, -⟩ := h
  have hne : place ≠ here ++ [name] := fun h =>
    hplace (h ▸ resolve_child_eq_ok_iff.mpr ⟨here, hhome, rfl⟩)
  rw [entry?_put (child_ne_root here name), if_neg hne]

/-- **The directory shows the file that is put into it, and all else as before.** -/
theorem PutsFile.look_child (h : fs.PutsFile p name bytes fs') (other : String) :
    fs'.look (p.child other) =
      if other = name then .ok (.file bytes) else fs.look (p.child other) := by
  have hkeep := h.keepsDirectories
  obtain @⟨here, hhome, hfree⟩ := h
  have hroot := child_ne_root here name
  rw [Files.look_child, Files.look_child, (hhome.kept hkeep).resolve_beside, hhome.resolve_beside]
  by_cases hother : other = name
  · subst hother
    rw [if_pos rfl, if_pos ⟨hhome.valid, hhome.short⟩]
    show (Files.entry? _ _).elim _ _ = _
    rw [entry?_put hroot, if_pos rfl]
    rfl
  · rw [if_neg hother]
    split
    · have hplace : here ++ [other] ≠ here ++ [name] := by simpa using hother
      show (Files.entry? _ _).elim _ _ = (fs.entry? _).elim _ _
      rw [entry?_put hroot, if_neg hplace]
    · rfl

/-- **The file that is put is read.** -/
theorem PutsFile.read_child (h : fs.PutsFile p name bytes fs') :
    fs'.read (p.child name) = .ok bytes := by
  rw [read_eq_look, h.look_child, if_pos rfl]
  rfl

/-- **A file beside it is left as it is.** -/
theorem PutsFile.read_beside {other : String} {bytes' : Bytes} (h : fs.PutsFile p name bytes fs')
    (hne : other ≠ name) (hread : fs.read (p.child other) = .ok bytes') :
    fs'.read (p.child other) = .ok bytes' := by
  rw [read_eq_look, h.look_child, if_neg hne, ← read_eq_look]
  exact hread

theorem GrowsTo.read_child (h : fs.GrowsTo fs') (hread : fs.read (p.child name) = .ok bytes) :
    fs'.read (p.child name) = .ok bytes := by
  obtain ⟨here, hhome, hfile⟩ := read_child_eq_ok_iff.mp hread
  exact read_child_eq_ok_iff.mpr ⟨here, hhome.kept h.keepsDirectories, h _ _ hfile⟩

/-! ### Directories -/

theorem find_eq_ok_directory_iff {place : Place} : fs.find p = .ok (place, .directory) ↔
    fs.resolve p = .ok place ∧ fs.entry? place = some .directory := by
  rw [find]
  cases fs.resolve p with
  | error e => exact iff_of_false (fun h => nomatch h) fun h => nomatch h.1
  | ok there =>
    simp only [bind, Except.bind, Except.ok.injEq]
    constructor
    · intro h
      split at h
      · cases h
      · split at h <;> cases h
      · next hentry =>
        cases h
        exact ⟨rfl, hentry⟩
    · rintro ⟨rfl, hentry⟩
      rw [hentry]
      rfl

theorem isDirectory_iff : fs.isDirectory p ↔ ∃ place, fs.find p = .ok (place, .directory) := by
  unfold isDirectory
  rcases fs.find p with e | ⟨place, _ | _⟩ <;> simp

theorem KeepsDirectories.isDirectory (hkeep : fs.KeepsDirectories fs') (h : fs.isDirectory p) :
    fs'.isDirectory p := by
  obtain ⟨place, hplace⟩ := isDirectory_iff.mp h
  obtain ⟨hresolve, hentry⟩ := find_eq_ok_directory_iff.mp hplace
  exact isDirectory_iff.mpr
    ⟨place, find_eq_ok_directory_iff.mpr ⟨resolve_kept hkeep hresolve, hkeep _ hentry⟩⟩

/-! ### Making directories -/

/-- A directory is made where a path leads to nothing. -/
theorem makeDirectory_eq_ok (h : fs.makeDirectory p = .ok fs') :
    ∃ place, fs.resolve p = .ok place ∧ fs.entry? place = none ∧
      fs.put place .directory = fs' := by
  obtain ⟨place, hplace, h⟩ := bind_eq_ok_iff.mp h
  split at h
  · cases h
  · cases h
  · next hnone _ => exact ⟨place, hplace, hnone, Except.ok.inj h⟩

theorem ensureDirectory_eq_ok (h : fs.ensureDirectory p = .ok fs') :
    fs.makeDirectory p = .ok fs' ∨ fs.isDirectory p ∧ fs = fs' := by
  unfold ensureDirectory at h
  split at h
  · next hmade =>
    cases h
    exact .inl hmade
  · split at h
    · next hthere =>
      cases h
      exact .inr ⟨hthere, rfl⟩
    · cases h

/-- A directory that is there is not made again. -/
theorem makeDirectories_of_isDirectory (h : fs.isDirectory p) :
    fs.makeDirectories p = (.ok (), fs) := by
  have hensure : fs.ensureDirectory p = .ok fs := by
    unfold ensureDirectory
    split
    · next hmade =>
      -- there is something at the path, so nothing is made
      obtain ⟨there, hthere⟩ := isDirectory_iff.mp h
      obtain ⟨place, hplace, hnone, -⟩ := makeDirectory_eq_ok hmade
      obtain ⟨hresolve, hentry⟩ := find_eq_ok_directory_iff.mp hthere
      obtain rfl := Except.ok.inj (hplace.symm.trans hresolve)
      rw [hentry] at hnone
      cases hnone
    · rw [if_pos h]
  rw [makeDirectories, hensure]

/-- **What holds from one directory to the next holds of all that are made**, also when the work
fails on the way. -/
theorem makeDirectories_steps {R : Files → Files → Prop} (hrefl : ∀ fs, R fs fs)
    (htrans : ∀ {fs between fs'}, R fs between → R between fs' → R fs fs')
    (hput : ∀ {fs place}, fs.entry? place = none → R fs (fs.put place .directory))
    (fs : Files) (p : Path) : R fs (fs.makeDirectories p).2 := by
  have hensure {fs made : Files} {p : Path} (h : fs.ensureDirectory p = .ok made) : R fs made := by
    rcases ensureDirectory_eq_ok h with h | ⟨-, rfl⟩
    · obtain ⟨place, -, hnone, rfl⟩ := makeDirectory_eq_ok h
      exact hput hnone
    · exact hrefl fs
  fun_induction makeDirectories fs p with
  | case1 p made hmade => exact hensure hmade
  | case2 => exact hrefl fs
  | case3 p hmissing parent hparent e between hfails ih =>
    rw [hfails] at ih
    exact ih
  | case4 p hmissing parent hparent between hmade made hlast ih =>
    rw [hmade] at ih
    exact htrans ih (hensure hlast)
  | case5 p hmissing parent hparent between hmade e hlast ih =>
    rw [hmade] at ih
    exact ih
  | case6 => exact hrefl fs

/-- **Making directories changes nothing that is there.** -/
theorem makeDirectories_grows (fs : Files) (p : Path) : fs.GrowsTo (fs.makeDirectories p).2 :=
  makeDirectories_steps .refl .trans (fun hnone => put_grows hnone _) fs p

theorem grows_of_makeDirectories {r : Except FileError Unit}
    (h : fs.makeDirectories p = (r, fs')) : fs.GrowsTo fs' := by
  have hgrows := makeDirectories_grows fs p
  rwa [h] at hgrows

/-- **Making directories adds nothing else.** -/
theorem makeDirectories_adds (fs : Files) (p : Path) (place : Place) :
    Files.entry? (fs.makeDirectories p).2 place = fs.entry? place ∨
      fs.entry? place = none ∧ Files.entry? (fs.makeDirectories p).2 place = some .directory := by
  apply makeDirectories_steps (R := fun fs fs' => fs'.entry? place = fs.entry? place ∨
    fs.entry? place = none ∧ fs'.entry? place = some .directory)
  · exact fun fs => .inl rfl
  · intro fs between fs' hfirst hsecond
    rcases hfirst with hfirst | ⟨hnone, hfirst⟩
    · rwa [hfirst] at hsecond
    · rcases hsecond with hsecond | ⟨hnone', -⟩
      · exact .inr ⟨hnone, hsecond.trans hfirst⟩
      · exact nomatch hfirst.symm.trans hnone'
  · intro fs made hnone
    have hroot : made ≠ [] := ne_root_of_none hnone
    by_cases hplace : place = made
    · subst hplace
      exact .inr ⟨hnone, by rw [entry?_put hroot, if_pos rfl]⟩
    · exact .inl (by rw [entry?_put hroot, if_neg hplace])

/-- **Once directories were made there is one at the path.** -/
theorem isDirectory_of_makeDirectories (h : fs.makeDirectories p = (.ok (), fs')) :
    fs'.isDirectory p := by
  have hensure {fs made : Files} (h : fs.ensureDirectory p = .ok made) : made.isDirectory p := by
    rcases ensureDirectory_eq_ok h with h | ⟨hthere, rfl⟩
    · obtain ⟨place, hplace, hnone, rfl⟩ := makeDirectory_eq_ok h
      refine isDirectory_iff.mpr ⟨place, find_eq_ok_directory_iff.mpr
        ⟨resolve_kept (put_grows hnone _).keepsDirectories hplace, ?_⟩⟩
      rw [entry?_put (ne_root_of_none hnone), if_pos rfl]
    · exact hthere
  rw [makeDirectories] at h
  split at h
  · next hmade =>
    cases h
    exact hensure hmade
  · split at h
    · cases h
    · split at h
      · cases h
      · split at h
        · next hlast =>
          cases h
          exact hensure hlast
        · cases h
  · cases h

end Files

end Attest
