import Attest.Proofs.Artifact.Manifest
import Attest.Proofs.Artifact.Store
import Attest.Proofs.Service.Verification

/-! The keys of a service that is visited again and again.

Between two visits anything may become of the disk, so a `Visit` has a disk of its own. A visit
fills the cell that it looks into if it is empty and its key can be loaded then
(`Server.held_visit`); so after a run a cell holds what the first such visit loaded
(`Server.held_keysAfter`), and what became of the other cells makes no difference to an answer
(`Server.visit_filter`). -/
namespace Attest.Service

/-- A request that reaches a service, with the disk as it is then. -/
structure Visit where
  files : Files
  entropy : Entropy
  stamp : Stamp
  request : Request

namespace Visit
variable (v : Visit) (p : Predicate)

/-- The visit asks for the predicate's verifying key. -/
def Shows : Prop :=
  v.request.method = "GET" ∧ ∃ name,
    Route.ofTarget? v.request.target = some (.verifyingKey (some name)) ∧ Server.named name = .ok p

/-- The visit asks for a verification of a proof of the predicate. -/
def Verifies : Prop :=
  v.request.method = "POST" ∧ ∃ name,
    Route.ofTarget? v.request.target = some (.verify (some name)) ∧ Server.named name = .ok p

/-- The visit asks for a proof of the predicate. -/
def Proves : Prop :=
  v.request.method = "POST" ∧ ∃ name,
    Route.ofTarget? v.request.target = some (.generate (some name)) ∧ Server.named name = .ok p

end Visit

/-! ### Loads -/

namespace Keyring
variable {PK VK : Type} {S : Scheme PK VK} {store : Artifact.Store} {depth : Nat} {fs : Files}
  {p : Predicate}

/-- A proving key is loaded past the manifest, and is what its file spells. -/
theorem loadProving_eq_ok_iff {key : PK} : loadProving S store depth fs p = .ok key ↔
    store.check fs p depth = .ok () ∧ store.provingKey S fs p = .ok key := by
  rw [loadProving, bind_eq_ok_iff]
  exact ⟨fun ⟨_, h⟩ => h, fun h => ⟨(), h⟩⟩

/-- A verifying key is loaded past the manifest, and kept with the bytes that spell it. -/
theorem loadVerifying_eq_ok_iff {stored : StoredKey VK} :
    loadVerifying S store depth fs p = .ok stored ↔
      store.check fs p depth = .ok () ∧ store.verifyingBytes fs p = .ok stored.bytes ∧
        S.readVerifyingKey stored.bytes = .ok stored.key := by
  rw [loadVerifying, bind_eq_ok_iff]
  constructor
  · rintro ⟨_, hcheck, h⟩
    obtain ⟨bytes, hbytes, h⟩ := bind_eq_ok_iff.mp h
    obtain ⟨key, hkey, ⟨⟩⟩ := bind_eq_ok_iff.mp h
    exact ⟨hcheck, hbytes, hkey⟩
  · rintro ⟨hcheck, hbytes, hkey⟩
    refine ⟨(), hcheck, ?_⟩
    exact bind_eq_ok_iff.mpr ⟨_, hbytes, bind_eq_ok_iff.mpr ⟨_, hkey, rfl⟩⟩

/-- **A key that is loaded depends on the manifest and on the cell's own file alone**, in whatever
place the store is. -/
theorem load_congr {store' : Artifact.Store} {fs' : Files} (hshown : store.shown = store'.shown)
    (hmanifest : fs.read (store.place Artifact.manifestFile) =
      fs'.read (store'.place Artifact.manifestFile)) {c : Cell}
    (hkey : fs.read (store.place c.file) = fs'.read (store'.place c.file)) :
    load S store depth fs c = load S store' depth fs' c := by
  have hcheck (p : Predicate) := Artifact.Store.check_congr hshown hmanifest p depth
  cases c with
  | proving p =>
    have hread : store.readKey fs p (Artifact.provingFile p) =
        store'.readKey fs' p (Artifact.provingFile p) :=
      Artifact.Store.readFile_congr hshown hkey
    rw [load, load, loadProving, loadProving, hcheck, Artifact.Store.provingKey,
      Artifact.Store.provingKey, hread]
  | verifying p =>
    have hread : store.verifyingBytes fs p = store'.verifyingBytes fs' p :=
      Artifact.Store.readFile_congr hshown hkey
    rw [load, load, loadVerifying, loadVerifying, hcheck, hread]

theorem load_congr_of_same {fs' : Files} (h : store.Same fs fs') (c : Cell) :
    load S store depth fs c = load S store depth fs' c :=
  load_congr rfl (h _) (h _)

end Keyring

/-! ### Answers -/

namespace Server
variable {PK VK : Type} (S : Scheme PK VK) (P : Poseidon.Params) (s : Server) (fs : Files)
  (entropy : Entropy) (stamp : Stamp) (keys : Keyring PK VK) {r : Request} {name : String}
  {p : Predicate}

/-- What comes of proving with a key as a request asks, unless that is not read. -/
def generated (key : PK) (p : Predicate) (r : Request) : Answer :=
  .ofResult (Answer.proved <$> do
    return s.attest S P entropy p key (← r.readJson Wire.generateRequest))

section
variable (hmethod : r.method = "GET")
  (hroute : Route.ofTarget? r.target = some (.verifyingKey (some name)))
  (hname : named name = .ok p)
include hmethod hroute hname

theorem errand_show : s.errand S P entropy r = .keyed (.verifying p) (showWith p) := by
  rw [errand_of_method S P s entropy hroute hmethod, errandOn, hname]
  rfl

/-- **A request for a verifying key is answered by the bytes of the key that there is.** -/
theorem exchange_show {stored : StoredKey VK}
    (hkey : keys.now S s.store s.settings.merkleDepth fs (.verifying p) = .ok stored) :
    ((s.exchange S P fs entropy stamp r).run keys).1 =
      ⟨200, .json (Wire.keyReply ⟨p, stored.bytes⟩)⟩ := by
  rw [exchange_run, errand_show S P s entropy hmethod hroute hname]
  dsimp only
  rw [Errand.run_keyed, hkey]
  rfl

end

section
variable (hmethod : r.method = "POST")
  (hroute : Route.ofTarget? r.target = some (.generate (some name))) (hname : named name = .ok p)
include hmethod hroute hname

theorem errand_generate : s.errand S P entropy r =
    match r.readJson Wire.generateRequest with
    | .ok request => .keyed (.proving p) (s.proveWith S P entropy p request)
    | .error e => .plain (.refused e) := by
  rw [errand_of_method S P s entropy hroute hmethod, errandOn]
  cases r.readJson Wire.generateRequest with
  | error e => rfl
  | ok request =>
    simp only [hname, bind, Except.bind]
    rfl

/-- **A request for a proof is answered by what is made with the key that there is.** -/
theorem exchange_generate {key : PK}
    (hkey : keys.now S s.store s.settings.merkleDepth fs (.proving p) = .ok key) :
    ((s.exchange S P fs entropy stamp r).run keys).1 =
      s.send stamp (s.generated S P entropy key p r) := by
  rw [exchange_run, errand_generate S P s entropy hmethod hroute hname, generated]
  cases r.readJson Wire.generateRequest with
  | error e => rfl
  | ok request =>
    dsimp only
    rw [Errand.run_keyed, hkey]
    rfl

end

/-! ### Runs -/

/-- The response to a visit; the keys that it loads are kept. -/
def visit (v : Visit) : StateM (Keyring PK VK) Response :=
  s.exchange S P v.files v.entropy v.stamp v.request

/-- The keyring after some visits. -/
def keysAfter (run : List Visit) : Keyring PK VK :=
  run.foldl (fun keys v => ((s.visit S P v).run keys).2) keys

/-- The cell that a visit looks into. -/
def cell? (v : Visit) : Option Cell := (s.errand S P v.entropy v.request).cell?

/-- The key that a visit finds on the disk for a cell that it looks into. -/
def loads (c : Cell) (v : Visit) : Option (c.Key PK VK) :=
  if s.cell? S P v = some c then
    (Keyring.load S s.store s.settings.merkleDepth v.files c).toOption
  else none

variable {S P s keys} {v w : Visit} {c : Cell} {past before after : List Visit}

theorem loads_eq_some_iff {key : c.Key PK VK} : s.loads S P c v = some key ↔
    s.cell? S P v = some c ∧
      Keyring.load S s.store s.settings.merkleDepth v.files c = .ok key := by
  unfold loads
  split
  · next h =>
    cases Keyring.load S s.store s.settings.merkleDepth v.files c <;> simp [h, Except.toOption]
  · next h => simp [h]

/-- **A visit fills the cell that it looks into**, if it is empty and its key can be loaded. -/
theorem held_visit : ((s.visit S P v).run keys).2.held c =
    (keys.held c).or (s.loads S P c v) := by
  rw [visit, exchange_run]
  exact Errand.held_run S s v.files _ keys c

/-- **After a run a cell holds what it held before, or else what was loaded first.** -/
theorem held_keysAfter : (s.keysAfter S P keys past).held c =
    (keys.held c).or (past.findSome? (s.loads S P c)) := by
  induction past generalizing keys with
  | nil => exact (Option.or_none).symm
  | cons v rest ih =>
    have hrest : s.keysAfter S P keys (v :: rest) =
        s.keysAfter S P ((s.visit S P v).run keys).2 rest := rfl
    rw [hrest, ih, held_visit, Option.or_assoc, List.findSome?_cons]
    cases s.loads S P c v <;> rfl

/-- A service that started without keys holds what was loaded first. -/
theorem held_keysAfter_empty :
    (s.keysAfter S P .empty past).held c = past.findSome? (s.loads S P c) := by
  rw [held_keysAfter, Keyring.held_empty, Option.none_or]

/-- Two keyrings that hold the same key for the cell that a visit looks into answer it the same. -/
theorem visit_congr {keys' : Keyring PK VK} (hlooks : ∀ d, s.cell? S P v = some d → d = c)
    (h : keys.held c = keys'.held c) :
    ((s.visit S P v).run keys).1 = ((s.visit S P v).run keys').1 := by
  rw [visit, exchange_run, exchange_run]
  refine congrArg (s.send v.stamp) (Errand.run_congr S s _ fun d hd => ?_)
  obtain rfl := hlooks d hd
  rw [Keyring.now, Keyring.now, h]

/-- **What visits to other cells did makes no difference.** -/
theorem visit_filter (hlooks : ∀ d, s.cell? S P v = some d → d = c) :
    ((s.visit S P v).run (s.keysAfter S P keys past)).1 =
      ((s.visit S P v).run
        (s.keysAfter S P keys (past.filter fun w => s.cell? S P w = some c))).1 := by
  refine visit_congr hlooks ?_
  rw [held_keysAfter, held_keysAfter]
  congr 1
  induction past with
  | nil => rfl
  | cons w rest ih =>
    rw [List.findSome?_cons, ih]
    by_cases hw : s.cell? S P w = some c
    · rw [List.filter_cons, if_pos (decide_eq_true hw), List.findSome?_cons]
    · have hnone : s.loads S P c w = none := if_neg hw
      rw [List.filter_cons, if_neg (by simpa using hw), hnone]

/-- A visit whose load fails leaves the keyring as it was. -/
theorem keys_of_failed (hlooks : ∀ d, s.cell? S P v = some d → d = c) {f : Failure}
    (hfails : Keyring.load S s.store s.settings.merkleDepth v.files c = .error f) :
    ((s.visit S P v).run keys).2 = keys := by
  refine Keyring.ext_held fun d => ?_
  rw [held_visit]
  cases hloads : s.loads S P d v with
  | none => exact Option.or_none
  | some key =>
    obtain ⟨hd, hload⟩ := loads_eq_some_iff.mp hloads
    obtain rfl := hlooks d hd
    rw [hfails] at hload
    exact nomatch hload

/-- The key of the first load of a run is there at the end of it. -/
theorem now_keysAfter {key : c.Key PK VK} (hrun : past ++ [v] = before ++ w :: after)
    (hbefore : ∀ u ∈ before, s.loads S P c u = none) (hfirst : s.loads S P c w = some key) :
    (s.keysAfter S P .empty past).now S s.store s.settings.merkleDepth v.files c = .ok key := by
  have hloaded : (past ++ [v]).findSome? (s.loads S P c) = some key := by
    rw [hrun, List.findSome?_append, List.findSome?_eq_none_iff.mpr hbefore, List.findSome?_cons,
      hfirst]
    rfl
  rw [List.findSome?_append] at hloaded
  have hheld : (s.keysAfter S P .empty past).held c = _ := held_keysAfter_empty
  cases hpast : past.findSome? (s.loads S P c) with
  | some key' =>
    rw [hpast] at hheld hloaded
    obtain rfl : key' = key := Option.some.inj hloaded
    exact Keyring.now_of_held _ _ _ _ hheld
  | none =>
    rw [hpast] at hheld hloaded
    have hv : s.loads S P c v = some key := by
      rw [Option.none_or, List.findSome?_singleton] at hloaded
      exact hloaded
    rw [Keyring.now_of_not_held _ _ _ _ hheld]
    exact (loads_eq_some_iff.mp hv).2

/-- **While the store is left as it is, the key that there is is the one that can be loaded.** -/
theorem now_unchanged {fs fs' : Files} (hpast : ∀ u ∈ past, s.store.Same fs u.files)
    (hnow : s.store.Same fs fs') :
    (s.keysAfter S P .empty past).now S s.store s.settings.merkleDepth fs' c =
      Keyring.load S s.store s.settings.merkleDepth fs c := by
  have hheld : (s.keysAfter S P .empty past).held c = _ := held_keysAfter_empty
  cases hloaded : past.findSome? (s.loads S P c) with
  | none =>
    rw [hloaded] at hheld
    rw [Keyring.now_of_not_held _ _ _ _ hheld, ← Keyring.load_congr_of_same hnow]
  | some key =>
    rw [hloaded] at hheld
    obtain ⟨u, hu, hloads⟩ := List.exists_of_findSome?_eq_some hloaded
    rw [Keyring.now_of_held _ _ _ _ hheld, Keyring.load_congr_of_same (hpast u hu),
      (loads_eq_some_iff.mp hloads).2]

/-- Until a cell is filled, whoever looks into it is answered as by a service that has just
started. -/
theorem visit_unloaded (hlooks : ∀ d, s.cell? S P v = some d → d = c)
    (hpast : ∀ w ∈ past, s.loads S P c w = none) :
    ((s.visit S P v).run (s.keysAfter S P .empty past)).1 = ((s.visit S P v).run .empty).1 := by
  refine visit_congr hlooks ?_
  rw [held_keysAfter_empty, List.findSome?_eq_none_iff.mpr hpast, Keyring.held_empty]

/-! ### Who looks where -/

theorem cell?_of_shows (h : v.Shows p) : s.cell? S P v = some (.verifying p) := by
  obtain ⟨hmethod, name, hroute, hname⟩ := h
  rw [cell?, errand_show S P s v.entropy hmethod hroute hname]
  rfl

/-- Who asks for a verifying key loads it if it can be loaded. -/
theorem loads_of_shows (h : v.Shows p) : s.loads S P (.verifying p) v =
    (Keyring.loadVerifying S s.store s.settings.merkleDepth v.files p).toOption :=
  if_pos (cell?_of_shows h)

theorem cell?_of_verifies (h : v.Verifies p) {d : Cell} (hd : s.cell? S P v = some d) :
    d = .verifying p := by
  obtain ⟨hmethod, name, hroute, hname⟩ := h
  rw [cell?, errand_verify S P s v.entropy hmethod hroute hname] at hd
  cases hasked : asked v.request with
  | error e =>
    rw [hasked] at hd
    exact nomatch hd
  | ok request =>
    rw [hasked] at hd
    exact (Option.some.inj hd).symm

/-- Who asks for a verifying key or for a verification looks for no other key. -/
theorem cell?_of_asks (h : v.Shows p ∨ v.Verifies p) {d : Cell} (hd : s.cell? S P v = some d) :
    d = .verifying p := by
  rcases h with hshows | hverifies
  · exact Option.some.inj (hd.symm.trans (cell?_of_shows hshows))
  · exact cell?_of_verifies hverifies hd

theorem cell?_of_proves (h : v.Proves p) {d : Cell} (hd : s.cell? S P v = some d) :
    d = .proving p := by
  obtain ⟨hmethod, name, hroute, hname⟩ := h
  rw [cell?, errand_generate S P s v.entropy hmethod hroute hname] at hd
  cases hread : v.request.readJson Wire.generateRequest with
  | error e =>
    rw [hread] at hd
    exact nomatch hd
  | ok request =>
    rw [hread] at hd
    exact (Option.some.inj hd).symm

end Server

/-- **The key that is loaded first is the one that is kept.** After any visits to a service, with
anything done to the disk between them: as long as none has loaded a predicate's verifying key, who
asks for it or for a verification is answered as by a service that has just started, and a load that
fails changes nothing. From the first load on the answers are the bytes that were read then and the
verdict of the key that they spell, whatever is on the disk; and they were read past the manifest.
The same goes for the proving key and for who asks for a proof. Visits that look for the other key,
or for a key of the other predicate, make no difference. -/
theorem first_load_kept {PK VK : Type} (S : Scheme PK VK) (P : Poseidon.Params) (s : Server)
    (p : Predicate) (past : List Visit) (v : Visit) :
    let depth := s.settings.merkleDepth
    let keys := s.keysAfter S P .empty past
    let only (c : Cell) := s.keysAfter S P .empty (past.filter fun w => s.cell? S P w = some c)
    (v.Shows p ∨ v.Verifies p →
      ((∀ w ∈ past, s.loads S P (.verifying p) w = none) →
        ((s.visit S P v).run keys).1 = ((s.visit S P v).run .empty).1) ∧
      (∀ f, Keyring.loadVerifying S s.store depth v.files p = .error f →
        ((s.visit S P v).run keys).2 = keys) ∧
      (∀ before w after stored, past ++ [v] = before ++ w :: after →
        (∀ u ∈ before, s.loads S P (.verifying p) u = none) →
        s.loads S P (.verifying p) w = some stored →
          s.store.check w.files p depth = .ok () ∧
          s.store.verifyingBytes w.files p = .ok stored.bytes ∧
          S.readVerifyingKey stored.bytes = .ok stored.key ∧
          (v.Shows p → ((s.visit S P v).run keys).1 =
            ⟨200, .json (Wire.keyReply ⟨p, stored.bytes⟩)⟩) ∧
          (v.Verifies p → ((s.visit S P v).run keys).1 =
            Server.verdictResponse (Server.verdict S stored v.request))) ∧
      ((s.visit S P v).run keys).1 = ((s.visit S P v).run (only (.verifying p))).1) ∧
    (v.Proves p →
      ((∀ w ∈ past, s.loads S P (.proving p) w = none) →
        ((s.visit S P v).run keys).1 = ((s.visit S P v).run .empty).1) ∧
      (∀ f, Keyring.loadProving S s.store depth v.files p = .error f →
        ((s.visit S P v).run keys).2 = keys) ∧
      (∀ before w after key, past ++ [v] = before ++ w :: after →
        (∀ u ∈ before, s.loads S P (.proving p) u = none) →
        s.loads S P (.proving p) w = some key →
          s.store.check w.files p depth = .ok () ∧
          s.store.provingKey S w.files p = .ok key ∧
          ((s.visit S P v).run keys).1 =
            s.send v.stamp (s.generated S P v.entropy key p v.request)) ∧
      ((s.visit S P v).run keys).1 = ((s.visit S P v).run (only (.proving p))).1) := by
  intro depth keys only
  constructor
  · intro hv
    have hlooks : ∀ d, s.cell? S P v = some d → d = .verifying p := fun d => Server.cell?_of_asks hv
    refine ⟨Server.visit_unloaded hlooks, fun f => Server.keys_of_failed hlooks, ?_,
      Server.visit_filter hlooks⟩
    intro before w after stored hrun hbefore hfirst
    have hnow := Server.now_keysAfter hrun hbefore hfirst
    obtain ⟨hcheck, hbytes, hkey⟩ :=
      Keyring.loadVerifying_eq_ok_iff.mp (Server.loads_eq_some_iff.mp hfirst).2
    refine ⟨hcheck, hbytes, hkey, ?_, ?_⟩
    · rintro ⟨hmethod, name, hroute, hname⟩
      exact s.exchange_show S P v.files v.entropy v.stamp keys hmethod hroute hname hnow
    · rintro ⟨hmethod, name, hroute, hname⟩
      exact s.exchange_verify S P v.files v.entropy v.stamp keys hmethod hroute hname hnow
  · intro hv
    have hlooks : ∀ d, s.cell? S P v = some d → d = .proving p := fun d => Server.cell?_of_proves hv
    refine ⟨Server.visit_unloaded hlooks, fun f => Server.keys_of_failed hlooks, ?_,
      Server.visit_filter hlooks⟩
    intro before w after key hrun hbefore hfirst
    have hnow := Server.now_keysAfter hrun hbefore hfirst
    obtain ⟨hcheck, hkey⟩ :=
      Keyring.loadProving_eq_ok_iff.mp (Server.loads_eq_some_iff.mp hfirst).2
    obtain ⟨hmethod, name, hroute, hname⟩ := hv
    exact ⟨hcheck, hkey,
      s.exchange_generate S P v.files v.entropy v.stamp keys hmethod hroute hname hnow⟩

/-- A key that is not there at first, and no more afterwards, is shown as it was in between. -/
theorem first_load_kept_between :
    let vk : Groth16.VerifyingKey := ⟨.generator, .generator, .generator, .generator,
      [.generator, .infinity]⟩
    let manifest := Artifact.Manifest.current Settings.defaultDepth Predicate.all
    let filled : Files := .ofEntries [(["claim_threshold.v1.vk.bin"], .file vk.toBytes),
      (["manifest.json"], .file (Bytes.ofText (Wire.manifest.write manifest).pretty.toList))]
    let s : Server := ⟨.fromLookup fun _ => none, ⟨⟨[.stay]⟩, "."⟩, 1⟩
    let ask (fs : Files) : Visit := ⟨fs, fun _ => 0, ⟨"", 0, 0, ""⟩,
      ⟨"GET", ⟨s!"/api/v1/circuits/{Predicate.threshold.name}/vk"⟩, none, []⟩⟩
    (ask .empty).Shows .threshold ∧ ∀ P : Poseidon.Params,
      s.loads groth16 P (.verifying .threshold) (ask .empty) = none ∧
      s.loads groth16 P (.verifying .threshold) (ask filled) = some ⟨vk.toBytes, vk⟩ ∧
      ((s.visit groth16 P (ask .empty)).run
        (s.keysAfter groth16 P .empty [ask .empty, ask filled])).1 =
          ⟨200, .json (Wire.keyReply ⟨.threshold, vk.toBytes⟩)⟩ := by
  intro vk manifest filled s ask
  have hshows (fs : Files) : (ask fs).Shows .threshold := by
    obtain ⟨hslash, hname⟩ := Route.segmentName_name .threshold
    refine ⟨rfl, Predicate.threshold.name, ?_, rfl⟩
    rw [← hname]
    exact Route.ofTarget?_verifyingKey hslash
  refine ⟨hshows .empty, fun P => ?_⟩
  have hnone : s.loads groth16 P (.verifying .threshold) (ask .empty) = none :=
    Server.loads_of_shows (hshows .empty)
  have hsome : s.loads groth16 P (.verifying .threshold) (ask filled) = some ⟨vk.toBytes, vk⟩ := by
    have hdecoded : (Groth16.VerifyingKey.ofBytes vk.toBytes).toOption = some vk := by
      decide +kernel
    have hcheck : s.store.check filled .threshold s.settings.merkleDepth = .ok () :=
      Artifact.Store.check_of_written (by decide) rfl .threshold
    have hload : Keyring.loadVerifying groth16 s.store s.settings.merkleDepth filled .threshold =
        .ok ⟨vk.toBytes, vk⟩ :=
      Keyring.loadVerifying_eq_ok_iff.mpr ⟨hcheck, rfl, eq_ok_of_toOption hdecoded⟩
    rw [Server.loads_of_shows (hshows filled)]
    show (Keyring.loadVerifying groth16 s.store s.settings.merkleDepth filled .threshold).toOption =
      _
    rw [hload]
    rfl
  obtain ⟨-, -, hkept, -⟩ := (first_load_kept groth16 P s .threshold [ask .empty, ask filled]
    (ask .empty)).1 (.inl (hshows .empty))
  obtain ⟨-, -, -, hanswer, -⟩ := hkept [ask .empty] (ask filled) [ask .empty] _ rfl
    (List.forall_mem_singleton.mpr hnone) hsome
  exact ⟨hnone, hsome, hanswer (hshows .empty)⟩

end Attest.Service
