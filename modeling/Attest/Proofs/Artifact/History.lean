import Attest.Groth16.Scheme
import Attest.Proofs.Artifact.Calls
import Attest.Proofs.Artifact.Manifest

/-! A store as a map.

Of all that is saved in a store, the last keys of each predicate are seen and the last manifest, and
of what was never saved that it is missing (`Store.shows_last`). -/
namespace Attest.Artifact.Store
variable {PK VK : Type} {s : Store} {S : Scheme PK VK} {fs fs' : Files}

theorem runAll_work {calls : List (Call PK VK)} {u : Unit}
    (h : (calls.forM fun c => c.run s S).run.run fs = (.ok u, fs')) :
    s.Work fs (calls.flatMap (Call.writes S)) fs' :=
  (Performs.forM calls fun c _ => c.performs s S).done h

/-- **Of all that is saved the last is seen.** Let calls be made that save keys and write manifests,
in any order and all of them with success, on a store whose directory was empty, or was not there
and is empty once it is made. Then of each predicate its keys are seen as they were saved last, or
as missing if they never were; and the manifest is the one written last, or missing. A further call
changes nothing of what it does not save. -/
theorem shows_last (S : Scheme PK VK) (hfresh : s.Fresh fs)
    (hvalid : ∀ file ∈ files, (s.place file).isValid) (calls : List (Call PK VK))
    (hkeepable : ∀ c ∈ calls, c.Keepable S)
    (hrun : (calls.forM fun c => c.run s S).run.run fs = (.ok (), fs')) :
    (∀ p, s.seen S fs' p = ((calls.filterMap (Call.saved? p)).getLast?).elim (s.unsaved p)
      fun keys => .saved S keys.1 keys.2) ∧
    s.manifest fs' = ((calls.filterMap Call.written?).getLast?).elim
      (.error (.circuitNotFound (s.absence manifestFile))) .ok ∧
    ∀ (c : Call PK VK) fs'', (c.run s S).run.run fs' = (.ok (), fs'') →
      (∀ p, c.saved? p = none → s.seen S fs'' p = s.seen S fs' p) ∧
      (c.written? = none → s.manifest fs'' = s.manifest fs') := by
  have hwork := runAll_work hrun
  have hlook {fs' ws file} (h : s.Work fs ws fs') (hfile : file ∈ files) :
      fs'.look (s.place file) =
        (ws.last? file).elim (.error .missing) fun bytes => .ok (.file bytes) :=
    h.look_of_fresh hfresh (hvalid file hfile) (files_short file hfile)
  refine ⟨fun p => ?_, ?_, fun c fs'' hstep => ?_⟩
  · have hproving := hlook hwork (provingFile_mem p)
    have hverifying := hlook hwork (verifyingFile_mem p)
    rw [Writes.last?_flatMap (Call.last?_proving S p)] at hproving
    rw [Writes.last?_flatMap (Call.last?_verifying S p)] at hverifying
    cases hlast : (calls.filterMap (Call.saved? p)).getLast? with
    | none =>
      rw [hlast] at hproving hverifying
      exact seen_of_missing hproving hverifying
    | some keys =>
      rw [hlast] at hproving hverifying
      obtain ⟨c, hc, hsaved⟩ := List.mem_filterMap.mp (List.mem_of_getLast? hlast)
      obtain ⟨hpk, hvk⟩ := (hkeepable c hc).saved hsaved
      exact seen_of_files hpk hvk hproving hverifying
  · have hmanifest := hlook hwork List.mem_cons_self
    rw [Writes.last?_flatMap (Call.last?_manifest S)] at hmanifest
    cases hlast : (calls.filterMap Call.written?).getLast? with
    | none =>
      rw [hlast] at hmanifest
      rw [manifest, readFile_of_missing hmanifest]
      rfl
    | some m =>
      rw [hlast] at hmanifest
      obtain ⟨c, hc, hwritten⟩ := List.mem_filterMap.mp (List.mem_of_getLast? hlast)
      obtain ⟨hversion, hdepth⟩ := (hkeepable c hc).written hwritten
      exact manifest_of_written hversion hdepth (readFile_of_file hmanifest)
  · have hmore := hwork.trans ((c.performs s S).done hstep)
    have hkept {file} (hfile : file ∈ files) (hnone : (c.writes S).last? file = none) :
        fs''.look (s.place file) = fs'.look (s.place file) := by
      rw [hlook hmore hfile, hlook hwork hfile, Writes.last?_append, hnone, Option.none_or]
    constructor
    · intro p hp
      apply seen_congr
      · exact hkept (provingFile_mem p) (by rw [Call.last?_proving, hp, Option.map_none])
      · exact hkept (verifyingFile_mem p) (by rw [Call.last?_verifying, hp, Option.map_none])
    · intro hm
      apply manifest_congr
      exact hkept List.mem_cons_self (by rw [Call.last?_manifest, hm, Option.map_none])

/-- Keys are saved, a manifest beside them, and other keys in their place. -/
theorem shows_last_replaced :
    let vk : Groth16.VerifyingKey := ⟨.generator, .generator, .infinity, .infinity,
      [.generator, .infinity]⟩
    let first : Groth16.ProvingKey := ⟨vk, .generator, .infinity, [], [], [], [], []⟩
    let second : Groth16.ProvingKey := { first with witness := [.generator] }
    let m : Manifest := ⟨7, "κύκλος \"", "\n", UInt64.size - 1, [.membership, .membership]⟩
    let s : Store := ⟨⟨[.into "data", .into "circuits"]⟩, "data/circuits"⟩
    let calls : List (Call Groth16.ProvingKey Groth16.VerifyingKey) :=
      [.save .threshold first vk, .writeManifest m, .save .threshold second vk]
    ∃ fs, (calls.forM fun c => c.run s groth16).run.run .empty = (.ok (), fs) ∧
      s.seen groth16 fs .threshold = .saved groth16 second vk ∧
      s.seen groth16 fs .membership = s.unsaved .membership ∧
      s.manifest fs = .ok m := by
  intro vk first second m s calls
  have hrun : ((calls.forM fun c => c.run s groth16).run.run .empty).1 = .ok () := by
    decide +kernel
  have hfresh : s.Fresh .empty := fresh_of_missing Files.rooted_empty (by decide) rfl
  have hvalid : ∀ file ∈ files, (s.place file).isValid := by decide
  have hvk : groth16.readVerifyingKey (groth16.writeVerifyingKey vk) = .ok vk := by
    decide +kernel
  have hfirst : groth16.readProvingKey (groth16.writeProvingKey first) = .ok first := by
    decide +kernel
  have hsecond : groth16.readProvingKey (groth16.writeProvingKey second) = .ok second := by
    decide +kernel
  have hkeepable : ∀ c ∈ calls, c.Keepable groth16 :=
    List.forall_mem_cons.mpr ⟨⟨hfirst, hvk⟩, List.forall_mem_cons.mpr
      ⟨⟨by decide, by decide⟩, List.forall_mem_singleton.mpr ⟨hsecond, hvk⟩⟩⟩
  obtain ⟨hseen, hmanifest, -⟩ :=
    shows_last groth16 hfresh hvalid calls hkeepable (Prod.ext hrun rfl)
  exact ⟨_, Prod.ext hrun rfl, hseen .threshold, hseen .membership, hmanifest⟩

/-- A directory that is made on a path that leaves it again may stand where a key would, and a path
may be too long for a key's file. -/
theorem unsaved_shown :
    let m : Manifest := .current 4 []
    let up : Store := ⟨⟨[.into "keys", .into "claim_threshold.v1.pk.bin", .up]⟩,
      "keys/claim_threshold.v1.pk.bin/.."⟩
    let long : Store := ⟨⟨List.replicate 2040 .stay⟩,
      String.ofList ((List.replicate 2039 ['.', '/']).flatten ++ ['.'])⟩
    (Files.empty.find up.path = .error .missing ∧
      ∃ fs, (up.writeManifest m).run.run .empty = (.ok (), fs) ∧
        up.hasAny fs .threshold = true ∧
        up.provingKey groth16 fs .threshold = .error (.io "is a directory")) ∧
    Files.empty.names long.path = .ok [] ∧
      ∃ fs, (long.writeManifest m).run.run .empty = (.ok (), fs) ∧
        long.provingKey groth16 fs .threshold = .error (.io "invalid file name") := by
  intro m up long
  have hup : ((up.writeManifest m).run.run .empty).1 = .ok () := by decide +kernel
  have hlong : ((long.writeManifest m).run.run .empty).1 = .ok () := by decide +kernel
  refine ⟨⟨rfl, _, Prod.ext hup rfl, ?_, ?_⟩, ?_, _, Prod.ext hlong rfl, ?_⟩
  · decide +kernel
  · decide +kernel
  · decide +kernel
  · decide +kernel

end Attest.Artifact.Store
