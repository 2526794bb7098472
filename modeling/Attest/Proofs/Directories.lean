import Attest.Proofs.Files

/-! Directories that are empty, and directories that are not there.

Neither has a file in it (`Files.look_child_of_names`, `Files.look_child_of_missing`). A directory
that is made on a path without a step up is empty at first (`Files.names_of_made`); a path with
steps up may lead, once the directories on it are there, to one that was there all along, or that
has got a directory in it on the way. -/
namespace Attest.Files
variable {fs fs' : Files} {p : Path} {name : String}

/-- A directory is empty when no name in it leads to anything. -/
theorem names_eq_nil_iff : fs.names p = .ok [] ↔
    ∃ place, fs.find p = .ok (place, .directory) ∧
      ∀ name, fs.entry? (place ++ [name]) = none := by
  have hsorted (l : List String) (le : String → String → Bool) : l.mergeSort le = [] ↔ l = [] := by
    rw [← List.length_eq_zero_iff, List.length_mergeSort, List.length_eq_zero_iff]
  have hnone (place : Place) : (∀ name, fs.entry? (place ++ [name]) = none) ↔
      ∀ e ∈ fs.below, (if e.1.dropLast = place then e.1.getLast? else none) = none := by
    have hentry (name : String) : fs.entry? (place ++ [name]) = none ↔
        ∀ e ∈ fs.below, e.1 ≠ place ++ [name] := by
      unfold entry?
      simp
    simp only [hentry]
    constructor
    · intro h e he
      split
      · next hplace =>
        cases hlast : e.1.getLast? with
        | none => rfl
        | some name =>
          obtain ⟨before, hbefore⟩ := List.getLast?_eq_some_iff.mp hlast
          rw [hbefore, List.dropLast_concat] at hplace
          exact absurd (hplace ▸ hbefore) (h name e he)
      · rfl
    · intro h name e he heq
      have hlast := h e he
      rw [heq, List.dropLast_concat, if_pos rfl, List.getLast?_concat] at hlast
      cases hlast
  rw [names]
  rcases fs.find p with e | ⟨place, _ | _⟩
  · exact iff_of_false (fun h => nomatch h) fun ⟨_, h, _⟩ => nomatch h
  · exact iff_of_false (fun h => nomatch h) fun ⟨_, h, _⟩ => nomatch h
  · show (Except.ok (List.mergeSort _ _) = Except.ok _) ↔ _
    rw [Except.ok.injEq, hsorted, List.filterMap_eq_nil_iff, ← hnone place]
    simp

/-- No file is in an empty directory. -/
theorem look_child_of_names (h : fs.names p = .ok []) (hvalid : (p.child name).isValid)
    (hshort : name.utf8ByteSize ≤ Path.maxName) : fs.look (p.child name) = .error .missing := by
  obtain ⟨here, hfind, hnone⟩ := names_eq_nil_iff.mp h
  obtain ⟨hresolve, hdirectory⟩ := find_eq_ok_directory_iff.mp hfind
  have hhome : fs.Home p name here := by
    refine ⟨hvalid, ?_, hdirectory, hshort⟩
    unfold resolve at hresolve
    split at hresolve
    · rw [← followAll_base]
      exact hresolve
    · cases hresolve
  rw [look_child, resolve_child_eq_ok_iff.mpr ⟨here, hhome, rfl⟩]
  show (fs.entry? (here ++ [name])).elim _ _ = _
  rw [hnone]
  rfl

/-- No file is in a directory that is not there. -/
theorem look_child_of_missing (h : fs.find p = .error .missing) (hvalid : (p.child name).isValid) :
    fs.look (p.child name) = .error .missing := by
  rw [look_child, resolve_child hvalid, ← followAll_base]
  unfold find resolve at h
  split at h
  · cases hleads : p.steps.foldlM fs.follow [] with
    | error e =>
      rw [hleads] at h
      cases h
      rfl
    | ok place =>
      rw [hleads] at h
      simp only [bind, Except.bind] at h ⊢
      split at h
      · next hnone => simp [follow, enter, hnone, bind, Except.bind]
      · split at h <;> cases h
      · cases h
  · cases h

/-- Nor can one be written there. -/
theorem Home.find_ne_missing {here : Place} (h : fs.Home p name here) :
    fs.find p ≠ .error .missing := by
  unfold find resolve
  split
  · rw [followAll_base, h.leads]
    simp only [bind, Except.bind, h.directory]
    exact fun h => nomatch h
  · exact fun h => nomatch h

/-! ### Paths without a step up -/

/-- The names on a path, which it leads to when it takes no step up. -/
def target (steps : List Path.Step) : Place :=
  steps.filterMap fun
    | .into name => some name
    | _ => none

theorem followAll_target {steps : List Path.Step} {here next : Place} (hup : .up ∉ steps)
    (h : steps.foldlM fs.follow here = .ok next) : next = here ++ target steps := by
  induction steps generalizing here with
  | nil =>
    cases h
    exact (List.append_nil _).symm
  | cons step rest ih =>
    rw [List.foldlM_cons] at h
    obtain ⟨place, hplace, hrest⟩ := bind_eq_ok_iff.mp h
    rw [ih (fun hmem => hup (List.mem_cons_of_mem step hmem)) hrest]
    cases step with
    | skip =>
      cases hplace
      rfl
    | stay =>
      obtain ⟨_, -, hplace⟩ := bind_eq_ok_iff.mp hplace
      cases hplace
      rfl
    | up => exact absurd List.mem_cons_self hup
    | into name =>
      obtain ⟨_, -, hplace⟩ := bind_eq_ok_iff.mp hplace
      split at hplace
      · cases hplace
        exact List.append_assoc here [name] (target rest)
      · cases hplace

theorem resolve_target {place : Place} (hup : .up ∉ p.steps) (h : fs.resolve p = .ok place) :
    place = target p.steps := by
  unfold resolve at h
  split at h
  · exact followAll_target hup h
  · cases h

/-- Whatever stands in a tree stands in a directory. -/
def Rooted (fs : Files) : Prop :=
  ∀ place name, fs.entry? (place ++ [name]) ≠ none → fs.entry? place = some .directory

theorem rooted_empty : Files.empty.Rooted := by
  intro place name h
  unfold entry? empty ofEntries at h
  simp at h

theorem Rooted.above (hrooted : fs.Rooted) {place : Place} (rest : Place)
    (h : fs.entry? (place ++ rest) = some .directory) : fs.entry? place = some .directory := by
  induction rest generalizing place with
  | nil => rwa [List.append_nil] at h
  | cons name rest ih =>
    have hnext : fs.entry? (place ++ [name]) = some .directory := by
      apply ih
      rwa [List.append_assoc]
    apply hrooted place name
    rw [hnext]
    exact Option.some_ne_none _

/-- Nothing is missing on a path to a directory. -/
theorem Rooted.followAll_ne_missing (hrooted : fs.Rooted) {steps : List Path.Step} (here : Place)
    (hup : .up ∉ steps) (h : fs.entry? (here ++ target steps) = some .directory) :
    steps.foldlM fs.follow here ≠ .error .missing := by
  have henter : fs.enter here = .ok () := enter_eq_ok_iff.mpr (hrooted.above _ h)
  induction steps generalizing here with
  | nil =>
    intro hmissing
    cases hmissing
  | cons step rest ih =>
    have hrest := fun hmem => hup (List.mem_cons_of_mem step hmem)
    rw [List.foldlM_cons]
    cases step with
    | skip => exact ih here hrest h henter
    | stay =>
      rw [follow, henter]
      exact ih here hrest h henter
    | up => exact absurd List.mem_cons_self hup
    | into name =>
      rw [follow, henter]
      show (if _ then pure _ else throw _) >>= _ ≠ _
      split
      · have hnext : fs.entry? (here ++ [name] ++ target rest) = some .directory := by
          rwa [List.append_assoc]
        exact ih _ hrest hnext (enter_eq_ok_iff.mpr (hrooted.above _ hnext))
      · intro hmissing
        cases hmissing

/-- A directory is found on a path that takes no step up to it. -/
theorem Rooted.find_ne_missing (hrooted : fs.Rooted) (hup : .up ∉ p.steps)
    (h : fs.entry? (target p.steps) = some .directory) : fs.find p ≠ .error .missing := by
  have hfollow := hrooted.followAll_ne_missing [] hup h
  unfold find resolve
  split
  · cases hplace : p.steps.foldlM fs.follow [] with
    | error e =>
      rw [hplace] at hfollow
      exact fun h => hfollow (congrArg Except.error (Except.error.inj h))
    | ok place =>
      obtain rfl := followAll_target hup hplace
      simp only [bind, Except.bind, List.nil_append, h]
      exact fun h => nomatch h
  · exact fun h => nomatch h

theorem ensureDirectory_beside (hup : .up ∉ p.steps) (h : fs.ensureDirectory p = .ok fs')
    {place : Place} (hplace : place ≠ target p.steps) : fs'.entry? place = fs.entry? place := by
  rcases ensureDirectory_eq_ok h with h | ⟨-, rfl⟩
  · obtain ⟨made, hresolve, hnone, rfl⟩ := makeDirectory_eq_ok h
    obtain rfl := resolve_target hup hresolve
    rw [entry?_put (ne_root_of_none hnone), if_neg hplace]
  · rfl

theorem prefix_of_parent {parent : Path} (h : p.parent? = some parent) :
    parent.steps <+: p.steps := by
  unfold Path.parent? at h
  split at h
  · cases h
  · next step before hbefore =>
    cases h
    -- read from the end, the parent is what is left after two runs of steps that rest
    have hsuffix : before.dropWhile Path.Step.rests <:+ p.steps.reverse :=
      (List.dropWhile_suffix _).trans
        ((List.suffix_cons step before).trans (hbefore ▸ List.dropWhile_suffix _))
    rw [← List.reverse_prefix, List.reverse_reverse] at hsuffix
    exact hsuffix

/-- **Making directories on a path without a step up touches no other place.** -/
theorem makeDirectories_beside (fs : Files) (hup : .up ∉ p.steps) {place : Place}
    (hplace : ¬place <+: target p.steps) :
    Files.entry? (fs.makeDirectories p).2 place = fs.entry? place := by
  have hparent {p parent : Path} (h : p.parent? = some parent) (hup : .up ∉ p.steps)
      (hplace : ¬place <+: target p.steps) :
      .up ∉ parent.steps ∧ ¬place <+: target parent.steps := by
    have hfront := prefix_of_parent h
    exact ⟨fun hmem => hup (hfront.subset hmem), fun h => hplace (h.trans (hfront.filterMap _))⟩
  have hne {p : Path} (hplace : ¬place <+: target p.steps) : place ≠ target p.steps :=
    fun h => hplace (h ▸ List.prefix_refl _)
  fun_induction makeDirectories fs p with
  | case1 p made hmade => exact ensureDirectory_beside hup hmade (hne hplace)
  | case2 => rfl
  | case3 p hmissing parent hparent' e between hfails ih =>
    rw [hfails] at ih
    obtain ⟨hup', hplace'⟩ := hparent hparent' hup hplace
    exact ih hup' hplace'
  | case4 p hmissing parent hparent' between hmade made hlast ih =>
    rw [hmade] at ih
    obtain ⟨hup', hplace'⟩ := hparent hparent' hup hplace
    exact (ensureDirectory_beside hup hlast (hne hplace)).trans (ih hup' hplace')
  | case5 p hmissing parent hparent' between hmade e hlast ih =>
    rw [hmade] at ih
    obtain ⟨hup', hplace'⟩ := hparent hparent' hup hplace
    exact ih hup' hplace'
  | case6 => rfl

/-- **A directory is empty when it was just made**, on a path that takes no step up. -/
theorem names_of_made (hrooted : fs.Rooted) (hup : .up ∉ p.steps) (h : fs.find p = .error .missing)
    (hmade : fs.makeDirectories p = (.ok (), fs')) : fs'.names p = .ok [] := by
  obtain ⟨place, hplace⟩ := isDirectory_iff.mp (isDirectory_of_makeDirectories hmade)
  obtain ⟨hresolve, hdirectory⟩ := find_eq_ok_directory_iff.mp hplace
  obtain rfl := resolve_target hup hresolve
  refine names_eq_nil_iff.mpr ⟨_, hplace, fun name => ?_⟩
  -- nothing stood in the directory before it was there, and nothing was put there
  have hbefore : fs.entry? (target p.steps ++ [name]) = none := by
    by_cases hnone : fs.entry? (target p.steps ++ [name]) = none
    · exact hnone
    · exact absurd h (hrooted.find_ne_missing hup (hrooted _ _ hnone))
  have hbeside : ¬target p.steps ++ [name] <+: target p.steps := by
    intro h
    have hlength := h.length_le
    rw [List.length_append] at hlength
    exact absurd hlength (Nat.not_succ_le_self _)
  rw [← hbefore, ← makeDirectories_beside fs hup hbeside, hmade]

end Attest.Files
