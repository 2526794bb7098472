import Attest.Proofs.Service.Settings

/-! Which settings an environment makes.

A number is the one that its variable holds, and else its default (`Variable.Decides`); a text is
what its variable is set to, and else its default (`Decides`). Of the numbers, those that are set
to something else are listed with it in a fixed order, and nothing else is (`Listed`).
`fromLookup_exact` says all of it for every environment. -/
namespace Attest.Service.Settings
variable {lookup lookup' : String → Option String} {name : String}

/-! ### Single settings -/

/-- What a numeric variable decides: the number that it holds, or the default. -/
inductive Variable.Decides (v : Variable) (lookup : String → Option String) (default : Nat) :
    Nat → Prop
  | held {n} (h : v.Holds lookup n) : Decides v lookup default n
  | default (h : ∀ n, ¬v.Holds lookup n) : Decides v lookup default default

/-- What a variable decides that may be set to any text. -/
inductive Decides {α : Type} (lookup : String → Option String) (name : String) (read : String → α)
    (default : α) : α → Prop
  | set {text} (h : Sets lookup name text) : Decides lookup name read default
      (read (String.ofList text))
  | unset (h : ∀ text, ¬Sets lookup name text) : Decides lookup name read default default

/-- A setting has nothing to do with any variable but one. -/
def DependsOnly {α : Type} (setting : Settings → α) (name : String) : Prop :=
  ∀ lookup lookup', lookup name = lookup' name →
    setting (fromLookup lookup) = setting (fromLookup lookup')

theorem Variable.decides_getD (v : Variable) (lookup : String → Option String) (default : Nat) :
    v.Decides lookup default ((v.value? (setting? lookup v.name)).getD default) := by
  cases hvalue : v.value? (setting? lookup v.name) with
  | none => exact .default (value?_eq_none_iff.mp hvalue)
  | some n => exact .held (value?_eq_some_iff.mp hvalue)

theorem setting?_eq_none_iff : setting? lookup name = none ↔ ∀ text, ¬Sets lookup name text := by
  rw [Option.eq_none_iff_forall_ne_some]
  constructor
  · intro h text htext
    refine h (String.ofList text) (setting?_eq_some_iff.mpr ?_)
    rwa [String.toList_ofList]
  · exact fun h s hs => h s.toList (setting?_eq_some_iff.mp hs)

theorem decides_getD {α : Type} (lookup : String → Option String) (name : String)
    (read : String → α) (default : α) :
    Decides lookup name read default (((setting? lookup name).map read).getD default) := by
  cases hset : setting? lookup name with
  | none => exact .unset (setting?_eq_none_iff.mp hset)
  | some s =>
    have hdecides : Decides lookup name read default (read (String.ofList s.toList)) :=
      .set (setting?_eq_some_iff.mp hset)
    rwa [String.ofList_toList] at hdecides

/-- A text that is taken as it stands. -/
theorem decides_text (lookup : String → Option String) (name default : String) :
    Decides lookup name id default ((setting? lookup name).getD default) := by
  simpa using decides_getD lookup name id default

theorem setting?_congr (h : lookup name = lookup' name) :
    setting? lookup name = setting? lookup' name := by
  rw [setting?, setting?, h]

/-! ### The list -/

/-- The lines are, in the order of the variables, those that are set and hold no number that they
may hold, each with the text that it is set to. -/
inductive Listed (lookup : String → Option String) : List Variable → List String → Prop
  | nil : Listed lookup [] []
  | unset {v vs lines} (h : ∀ text, ¬Sets lookup v.name text) :
      Listed lookup vs lines → Listed lookup (v :: vs) lines
  | used {v vs lines n} (h : v.Holds lookup n) :
      Listed lookup vs lines → Listed lookup (v :: vs) lines
  | refused {v vs lines text} (h : Sets lookup v.name text) (hnot : ∀ n, ¬v.Holds lookup n) :
      Listed lookup vs lines →
        Listed lookup (v :: vs) (s!"{v.name}={String.ofList text}" :: lines)

variable {v : Variable} {vs : List Variable} {lines : List String}

theorem Variable.rejection?_eq_none_iff : v.rejection? (setting? lookup v.name) = none ↔
    (∀ text, ¬Sets lookup v.name text) ∨ ∃ n, v.Holds lookup n := by
  rw [Option.eq_none_iff_forall_ne_some]
  simp only [ne_eq, rejection?_eq_some_iff]
  constructor
  · intro h
    by_contra hneither
    obtain ⟨hset, hholds⟩ := not_or.mp hneither
    obtain ⟨text, htext⟩ : ∃ text, Sets lookup v.name text := by simpa using hset
    exact h _ ⟨text, htext, not_exists.mp hholds, rfl⟩
  · rintro (hunset | ⟨n, hn⟩) line ⟨text, htext, hnot, -⟩
    · exact hunset text htext
    · exact hnot n hn

/-- **What is listed of variables is what was rejected of each**, in their order. -/
theorem listed_iff :
    Listed lookup vs lines ↔ lines = vs.filterMap fun v => v.rejection? (setting? lookup v.name) := by
  constructor
  · intro h
    induction h with
    | nil => rfl
    | unset hunset _ ih =>
      have hline := Variable.rejection?_eq_none_iff.mpr (.inl hunset)
      rw [List.filterMap_cons, hline, ih]
    | used hn _ ih =>
      have hline := Variable.rejection?_eq_none_iff.mpr (.inr ⟨_, hn⟩)
      rw [List.filterMap_cons, hline, ih]
    | refused htext hnot _ ih =>
      have hline := Variable.rejection?_eq_some_iff.mpr ⟨_, htext, hnot, rfl⟩
      rw [List.filterMap_cons, hline, ih]
  · rintro rfl
    induction vs with
    | nil => exact .nil
    | cons v vs ih =>
      rw [List.filterMap_cons]
      split
      · next hline =>
        obtain hunset | ⟨n, hn⟩ := Variable.rejection?_eq_none_iff.mp hline
        · exact .unset hunset ih
        · exact .used hn ih
      · next hline =>
        obtain ⟨text, htext, hnot, rfl⟩ := Variable.rejection?_eq_some_iff.mp hline
        exact .refused htext hnot ih

/-! ### All settings -/

/-- **Settings are exact and lose nothing.** In every environment each number is the one that its
variable holds, an unsigned number of 64 bits in its range between blanks, and else its default;
listed are just those variables that are set and not used, with their texts, in a fixed order. The
address, the directory and the format of the log are taken from their own variables. -/
theorem fromLookup_exact (lookup : String → Option String) (cores : Nat) :
    let concurrency : Variable := ⟨"ATTEST_PROVING_CONCURRENCY", fun n => 0 < n⟩
    let timeout : Variable := ⟨"ATTEST_PROOF_TIMEOUT_MS", fun n => 0 < n⟩
    let depth : Variable := ⟨"ATTEST_MERKLE_DEPTH", fun n => 1 ≤ n && n ≤ 32⟩
    let settings := fromLookup lookup
    concurrency.Decides lookup cores (settings.concurrency.getD cores) ∧
    timeout.Decides lookup 30000 settings.timeoutMs ∧
    depth.Decides lookup 16 settings.merkleDepth ∧
    (∀ lines, Listed lookup [concurrency, timeout, depth] lines ↔ lines = settings.rejected) ∧
    Decides lookup "BACKEND_ADDR" id "127.0.0.1:8080" settings.address ∧
    Decides lookup "ATTEST_ARTIFACT_DIR" id "data/circuits" settings.artifactDirectory ∧
    Decides lookup "ATTEST_LOG_FORMAT" LogFormat.parse .pretty settings.logFormat ∧
    DependsOnly Settings.address "BACKEND_ADDR" ∧
    DependsOnly Settings.artifactDirectory "ATTEST_ARTIFACT_DIR" ∧
    DependsOnly Settings.logFormat "ATTEST_LOG_FORMAT" := by
  intro concurrency timeout depth settings
  refine ⟨concurrency.decides_getD lookup cores, timeout.decides_getD lookup 30000,
    depth.decides_getD lookup 16, fun lines => listed_iff, decides_text lookup _ _,
    decides_text lookup _ _, decides_getD lookup _ _ _, fun lookup lookup' h => ?_,
    fun lookup lookup' h => ?_, fun lookup lookup' h => ?_⟩
  · exact congrArg (Option.getD · "127.0.0.1:8080") (setting?_congr h)
  · exact congrArg (Option.getD · "data/circuits") (setting?_congr h)
  · exact congrArg (fun text => (Option.map LogFormat.parse text).getD .pretty) (setting?_congr h)

end Attest.Service.Settings
