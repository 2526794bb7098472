import Attest.Proofs.Proving.Scheme
import Attest.Proofs.Service.Issued

/-! What the files of a store have to do with the answers.

A visit looks into one cell, and a cell's key comes from the manifest and from one file. So a
service that only verifies needs no proving keys, and one that only proves no verifying keys: two
runs whose disks agree on the manifest and on the files of one kind give the same answers to all
visits that need that kind, whatever is in the files of the other and whatever is asked in between
(`key_files_apart`). -/
namespace Attest.Service
open Artifact

/-- The same service with its store in another place, shown under the same name. -/
def Server.movedTo (s : Server) (path : Path) : Server :=
  { s with store := { s.store with path } }

/-- Two visits ask the same of two services whose stores agree on the manifest and on one file of
each predicate. What else is on the disks, which secrets are drawn and how long it takes may
differ. -/
structure Visit.Alike (s s' : Server) (file : Predicate → String) (v v' : Visit) : Prop where
  request : v'.request = v.request
  manifest : v.files.read (s.store.place manifestFile) =
    v'.files.read (s'.store.place manifestFile)
  keys : ∀ p, v.files.read (s.store.place (file p)) = v'.files.read (s'.store.place (file p))

/-! ### Answers that need no secret -/

namespace Errand
variable {PK VK : Type}

/-- The answer is there as soon as it is known whether there is a verifying key: no proof is made
for it. -/
inductive Prompt : Errand PK VK → Prop
  | plain {a : Answer} (ready : ∃ r, a = .ready r) : Prompt (plain a)
  | keyed {p : Predicate} {use : Except Failure (StoredKey VK) → Answer}
    (ready : ∀ key, ∃ r, use key = .ready r) : Prompt (keyed (.verifying p) use)

theorem cell?_keyed (c : Cell) (use : Except Failure (c.Key PK VK) → Answer) :
    (keyed c use).cell? = some c := rfl

theorem cell?_map (f : Answer → Answer) (e : Errand PK VK) : (e.map f).cell? = e.cell? := by
  cases e <;> rfl

theorem prompt_refused (r : Refusal) : (plain (.refused r) : Errand PK VK).Prompt :=
  .plain ⟨_, rfl⟩

theorem Prompt.head {e : Errand PK VK} (h : e.Prompt) : (e.map Answer.head).Prompt := by
  cases h with
  | plain ready =>
    obtain ⟨r, rfl⟩ := ready
    exact .plain ⟨r.head, rfl⟩
  | keyed ready =>
    refine .keyed fun key => ?_
    obtain ⟨r, hr⟩ := ready key
    exact ⟨r.head, congrArg Answer.head hr⟩

end Errand

theorem Answer.ofResult_json {α : Type} (x : Except Refusal α) (write : α → Json) :
    ∃ r, Answer.ofResult ((fun a => Answer.json (write a)) <$> x) = .ready r := by
  cases x with
  | error e => exact ⟨_, rfl⟩
  | ok a => exact ⟨_, rfl⟩

namespace Server
variable {PK VK : Type} (S : Scheme PK VK) (P : Poseidon.Params) (s : Server) {r : Request}

theorem plainly_ready {α β : Type} (r : Request) (c : Json.Codec α) (act : α → Except Failure β)
    (write : β → Json) : ∃ response, plainly r c act write = .ready response := by
  unfold plainly
  cases r.readJson c with
  | error e => exact ⟨_, rfl⟩
  | ok request =>
    show ∃ response, Answer.ofResult
      (((act request).map fun x => Answer.json (write x)).mapError .ofFailure) = .ready response
    cases act request with
    | error f => exact ⟨_, rfl⟩
    | ok x => exact ⟨_, rfl⟩

/-- What a request for a proof comes to: a refusal, or a look for a proving key. -/
theorem errandOn_generate (entropy : Entropy) (name : String) :
    s.errandOn S P entropy r (.generate (some name)) =
      match r.readJson Wire.generateRequest, named name with
      | .error e, _ | .ok _, .error e => .plain (.refused e)
      | .ok request, .ok p => .keyed (.proving p) (s.proveWith S P entropy p request) := by
  rw [errandOn]
  cases r.readJson Wire.generateRequest with
  | error e => rfl
  | ok request => cases named name <;> rfl

section
variable {route : Route} (hroute : ∀ name p, route = .generate (some name) → named name ≠ .ok p)
include hroute

/-- **A route that asks for no proof is answered at once.** -/
theorem errandOn_prompt (entropy : Entropy) : (s.errandOn S P entropy r route).Prompt := by
  cases route with
  | health => exact .plain ⟨_, rfl⟩
  | commitment => exact .plain (plainly_ready r _ _ _)
  | allowListRoot => exact .plain (plainly_ready r _ _ _)
  | allowListProof => exact .plain (plainly_ready r _ _ _)
  | generate name =>
    cases name with
    | none => exact .plain ⟨_, rfl⟩
    | some name =>
      rw [errandOn_generate]
      cases hname : named name with
      | error e => cases r.readJson Wire.generateRequest <;> exact Errand.prompt_refused _
      | ok p => exact absurd hname (hroute name p rfl)
  | verify name =>
    cases name with
    | none => exact .plain ⟨_, rfl⟩
    | some name =>
      rw [errandOn]
      cases r.readJson Wire.verifyRequest with
      | error e => exact Errand.prompt_refused e
      | ok request =>
        cases named name with
        | error e => exact Errand.prompt_refused e
        | ok p =>
          simp only [bind, Except.bind]
          cases proofBytes request with
          | error e => exact Errand.prompt_refused e
          | ok proof => exact .keyed fun key => Answer.ofResult_json _ _
  | verifyingKey name =>
    cases name with
    | none => exact .plain ⟨_, rfl⟩
    | some name =>
      rw [errandOn]
      cases named name with
      | error e => exact Errand.prompt_refused e
      | ok p => exact .keyed fun key => Answer.ofResult_json _ _

/-- A route that asks for no proof draws no secrets. -/
theorem errandOn_entropy (entropy entropy' : Entropy) :
    s.errandOn S P entropy r route = s.errandOn S P entropy' r route := by
  cases route with
  | generate name =>
    cases name with
    | none => rfl
    | some name =>
      rw [errandOn_generate, errandOn_generate]
      cases hname : named name with
      | error e => cases r.readJson Wire.generateRequest <;> rfl
      | ok p => exact absurd hname (hroute name p rfl)
  | verify name => cases name <;> rfl
  | verifyingKey name => cases name <;> rfl
  | health => rfl
  | commitment => rfl
  | allowListRoot => rfl
  | allowListProof => rfl

end

/-- Which cell is looked into does not depend on the secrets. -/
theorem errandOn_cell? (entropy entropy' : Entropy) (route : Route) :
    (s.errandOn S P entropy r route).cell? = (s.errandOn S P entropy' r route).cell? := by
  by_cases hroute : ∃ name, route = .generate (some name)
  · obtain ⟨name, rfl⟩ := hroute
    rw [errandOn_generate, errandOn_generate]
    cases r.readJson Wire.generateRequest with
    | error e => rfl
    | ok request =>
      cases named name with
      | error e => rfl
      | ok p => exact (Errand.cell?_keyed _ _).trans (Errand.cell?_keyed _ _).symm
  · exact congrArg Errand.cell?
      (errandOn_entropy S P s (fun name _ h => absurd ⟨name, h⟩ hroute) entropy entropy')

theorem errand_cell? (entropy entropy' : Entropy) :
    (s.errand S P entropy r).cell? = (s.errand S P entropy' r).cell? := by
  unfold errand
  cases Route.ofTarget? r.target with
  | none => rfl
  | some route =>
    dsimp only
    split_ifs
    · rfl
    · exact errandOn_cell? S P s entropy entropy' route
    · rw [Errand.cell?_map, Errand.cell?_map]
      exact errandOn_cell? S P s entropy entropy' route
    · rfl

/-- **A visit that asks for no proof comes to one errand, whatever secrets are drawn**, and that one
is answered at once. -/
theorem errand_prompt {v : Visit} (hproves : ∀ p, ¬v.Proves p) (entropy entropy' : Entropy) :
    (s.errand S P entropy v.request).Prompt ∧
      s.errand S P entropy v.request = s.errand S P entropy' v.request := by
  unfold errand
  cases hroute : Route.ofTarget? v.request.target with
  | none => split_ifs <;> exact ⟨.plain ⟨_, rfl⟩, rfl⟩
  | some route =>
    dsimp only
    split_ifs with hoptions hmethod hhead
    · exact ⟨.plain ⟨_, rfl⟩, rfl⟩
    · have hother : ∀ name p, route = .generate (some name) → named name ≠ .ok p := by
        rintro name p rfl hname
        exact hproves p ⟨hmethod, name, hroute, hname⟩
      exact ⟨errandOn_prompt S P s hother entropy, errandOn_entropy S P s hother entropy entropy'⟩
    · have hother : ∀ name p, route = .generate (some name) → named name ≠ .ok p := by
        rintro name p rfl
        exact absurd hhead.2 (by simp [Route.method])
      exact ⟨(errandOn_prompt S P s hother entropy).head,
        congrArg (Errand.map Answer.head) (errandOn_entropy S P s hother entropy entropy')⟩
    · exact ⟨.plain ⟨_, rfl⟩, rfl⟩

theorem proveWith_movedTo (path : Path) (entropy : Entropy) (p : Predicate)
    (request : GenerateRequest) :
    (s.movedTo path).proveWith S P entropy p request = s.proveWith S P entropy p request := by
  have hattest (key : PK) :
      (s.movedTo path).attest S P entropy p key request = s.attest S P entropy p key request := by
    have hsettings : (s.movedTo path).settings = s.settings := rfl
    rw [attest, attest, hsettings]
    rfl
  unfold proveWith
  simp only [hattest]

/-- What a request comes to has nothing to do with where the store is. -/
theorem errandOn_movedTo (path : Path) (entropy : Entropy) (route : Route) :
    (s.movedTo path).errandOn S P entropy r route = s.errandOn S P entropy r route := by
  have hsettings : (s.movedTo path).settings = s.settings := rfl
  cases route with
  | generate name =>
    cases name with
    | none => rfl
    | some name => simp only [errandOn_generate, proveWith_movedTo]
  | verify name => cases name <;> rfl
  | verifyingKey name => cases name <;> rfl
  | health => rfl
  | commitment => rfl
  | allowListRoot => rw [errandOn, errandOn, hsettings]
  | allowListProof => rw [errandOn, errandOn, hsettings]

theorem errand_movedTo (path : Path) (entropy : Entropy) :
    (s.movedTo path).errand S P entropy r = s.errand S P entropy r := by
  unfold errand
  simp only [errandOn_movedTo]

/-! ### Runs -/

theorem send_ready (stamp : Stamp) (r : Response) : s.send stamp (.ready r) = r := rfl

theorem send_refused (stamp : Stamp) (e : Refusal) : s.send stamp (.refused e) = e.respond := rfl

theorem send_movedTo (path : Path) (stamp : Stamp) (a : Answer) :
    (s.movedTo path).send stamp a = s.send stamp a := by
  cases a <;> rfl

theorem response_visit (v : Visit) (keys : Keyring PK VK) : ((s.visit S P v).run keys).1 =
    s.send v.stamp (((s.errand S P v.entropy v.request).run S s v.files).run keys).1 := by
  rw [visit, exchange_run]

/-- The responses to some visits, in order. -/
def responses (keys : Keyring PK VK) : List Visit → List Response
  | [] => []
  | v :: rest => ((s.visit S P v).run keys).1 :: responses ((s.visit S P v).run keys).2 rest

variable {S P s}

/-- **The response to a visit is the one of a service with the keys that the visits before left.**
-/
theorem getElem?_responses {keys : Keyring PK VK} {run : List Visit} (i : Nat) :
    (s.responses S P keys run)[i]? =
      run[i]?.map fun v => ((s.visit S P v).run (s.keysAfter S P keys (run.take i))).1 := by
  induction run generalizing keys i with
  | nil => simp [responses]
  | cons v rest ih =>
    cases i with
    | zero => rfl
    | succ i => simpa [responses, keysAfter] using ih i

variable {path : Path} {v v' : Visit} {past past' : List Visit} {file : Predicate → String}
  {c : Cell}

/-- Alike visits look into the same cell. -/
theorem cell?_alike (h : v.Alike s (s.movedTo path) file v') :
    s.cell? S P v = (s.movedTo path).cell? S P v' := by
  rw [cell?, cell?, h.request, errand_movedTo]
  exact s.errand_cell? S P v.entropy v'.entropy

/-- Alike visits find the same key, if it comes from a file on which the stores agree. -/
theorem load_alike (h : v.Alike s (s.movedTo path) file v') (hfile : ∃ p, c.file = file p) :
    Keyring.load S s.store s.settings.merkleDepth v.files c =
      Keyring.load S (s.movedTo path).store s.settings.merkleDepth v'.files c := by
  obtain ⟨p, hp⟩ := hfile
  have hshown : s.store.shown = (s.movedTo path).store.shown := rfl
  refine Keyring.load_congr hshown h.manifest ?_
  rw [hp]
  exact h.keys p

/-- **After alike runs a cell of the kind on which the stores agree holds the same.** -/
theorem held_alike (hpast : List.Forall₂ (Visit.Alike s (s.movedTo path) file) past past')
    (hfile : ∃ p, c.file = file p) :
    (s.keysAfter S P .empty past).held c =
      ((s.movedTo path).keysAfter S P .empty past').held c := by
  rw [held_keysAfter_empty, held_keysAfter_empty]
  induction hpast with
  | nil => rfl
  | @cons u u' past past' hu _ ih =>
    have hloads : s.loads S P c u = (s.movedTo path).loads S P c u' := by
      rw [loads, loads, cell?_alike hu, load_alike hu hfile]
      rfl
    rw [List.findSome?_cons, List.findSome?_cons, hloads, ih]

/-- After alike runs alike visits find the same key in such a cell. -/
theorem now_alike (hpast : List.Forall₂ (Visit.Alike s (s.movedTo path) file) past past')
    (h : v.Alike s (s.movedTo path) file v') (hfile : ∃ p, c.file = file p) :
    (s.keysAfter S P .empty past).now S s.store s.settings.merkleDepth v.files c =
      ((s.movedTo path).keysAfter S P .empty past').now S (s.movedTo path).store
        s.settings.merkleDepth v'.files c := by
  rw [Keyring.now, Keyring.now, held_alike hpast hfile, load_alike h hfile]

/-- The key that a visit finds was loaded from the disk of some visit of the run. -/
theorem exists_load_of_now {key : c.Key PK VK}
    (h : (s.keysAfter S P .empty past).now S s.store s.settings.merkleDepth v.files c = .ok key) :
    ∃ u ∈ past ++ [v], Keyring.load S s.store s.settings.merkleDepth u.files c = .ok key := by
  cases hheld : (s.keysAfter S P .empty past).held c with
  | none =>
    rw [Keyring.now_of_not_held _ _ _ _ hheld] at h
    exact ⟨v, List.mem_append_right _ List.mem_cons_self, h⟩
  | some held =>
    rw [Keyring.now_of_held _ _ _ _ hheld] at h
    obtain rfl := Except.ok.inj h
    rw [held_keysAfter_empty] at hheld
    obtain ⟨u, hu, hloads⟩ := List.exists_of_findSome?_eq_some hheld
    exact ⟨u, List.mem_append_left _ hu, (loads_eq_some_iff.mp hloads).2⟩

/-- **Who asks for no proof is answered the same over stores that agree on the verifying keys.** -/
theorem visit_unproving
    (hpast : List.Forall₂ (Visit.Alike s (s.movedTo path) verifyingFile) past past')
    (h : v.Alike s (s.movedTo path) verifyingFile v') (hproves : ∀ p, ¬v.Proves p) :
    ((s.visit S P v).run (s.keysAfter S P .empty past)).1 =
      (((s.movedTo path).visit S P v').run ((s.movedTo path).keysAfter S P .empty past')).1 := by
  obtain ⟨hprompt, hsame⟩ := s.errand_prompt S P hproves v.entropy v'.entropy
  -- the errand is the same one, and its answer is sent as it is
  rw [response_visit, response_visit, h.request, errand_movedTo, ← hsame]
  generalize s.errand S P v.entropy v.request = e at hprompt
  cases hprompt with
  | plain ready =>
    obtain ⟨r, rfl⟩ := ready
    rw [Errand.run_plain, Errand.run_plain, send_ready, send_ready]
  | @keyed p use ready =>
    have hnow := now_alike (S := S) (P := P) (c := .verifying p) hpast h ⟨p, rfl⟩
    rw [Errand.run_keyed, Errand.run_keyed, hnow]
    obtain ⟨r, hr⟩ := ready (((s.movedTo path).keysAfter S P .empty past').now S
      (s.movedTo path).store s.settings.merkleDepth v'.files (.verifying p))
    have hdepth : (s.movedTo path).settings = s.settings := rfl
    rw [hdepth, hr, send_ready, send_ready]

/-! ### Answers that are proofs -/

theorem proveWith_error (entropy : Entropy) (p : Predicate) (request : GenerateRequest)
    (f : Failure) : s.proveWith S P entropy p request (.error f) = .refused (.ofFailure f) := rfl

theorem proveWith_ok (entropy : Entropy) (p : Predicate) (request : GenerateRequest) (key : PK) :
    s.proveWith S P entropy p request (.ok key) =
      .proved (s.attest S P entropy p key request) := rfl

/-- Who asks for a proof is refused for the body, or answered by what comes of the key that there
is. -/
theorem response_proves {p : Predicate} (h : v.Proves p) (keys : Keyring PK VK) :
    ((s.visit S P v).run keys).1 =
      match v.request.readJson Wire.generateRequest with
      | .error e => e.respond
      | .ok request => s.send v.stamp (s.proveWith S P v.entropy p request
          (keys.now S s.store s.settings.merkleDepth v.files (.proving p))) := by
  obtain ⟨hmethod, name, hroute, hname⟩ := h
  rw [response_visit, errand_generate S P s v.entropy hmethod hroute hname]
  cases v.request.readJson Wire.generateRequest with
  | error e => rfl
  | ok request =>
    dsimp only
    rw [Errand.run_keyed]

/-- **With the same secrets and in the same time, who asks for a proof is answered the same over
stores that agree on the proving keys.** -/
theorem visit_proving {p : Predicate}
    (hpast : List.Forall₂ (Visit.Alike s (s.movedTo path) provingFile) past past')
    (h : v.Alike s (s.movedTo path) provingFile v') (hproves : v.Proves p)
    (hentropy : v'.entropy = v.entropy) (hstamp : v'.stamp = v.stamp) :
    ((s.visit S P v).run (s.keysAfter S P .empty past)).1 =
      (((s.movedTo path).visit S P v').run ((s.movedTo path).keysAfter S P .empty past')).1 := by
  have hproves' : v'.Proves p := by
    unfold Visit.Proves
    rw [h.request]
    exact hproves
  have hnow := now_alike (S := S) (P := P) (c := .proving p) hpast h ⟨p, rfl⟩
  have hsettings : (s.movedTo path).settings = s.settings := rfl
  rw [response_proves hproves, response_proves hproves', h.request, hentropy, hstamp, hnow,
    hsettings]
  simp only [proveWith_movedTo, send_movedTo]

/-! ### Whatever secrets are drawn -/

/-- With the key every true statement of the predicate is proved, whatever secrets are drawn, and
the bytes of a proof spell points. -/
structure Reliable (S : Scheme PK VK) (P : Poseidon.Params) (p : Predicate) (depth : Nat)
    (key : PK) : Prop where
  complete : ∃ system, (Witness.blank depth p).synthesize P = .ok system ∧ S.Complete key system
  spells : ∀ mask system proof, S.prove key mask system = some proof →
    ∃ points, Groth16.Proof.ofBytes proof = .ok points

/-- Two responses to who asks for a proof: the same one, or two proofs of one statement. -/
def AlikeButProof (v v' : Visit) (r r' : Response) : Prop :=
  r = r' ∨ ∃ reply reply' : GenerateReply,
    r = ⟨200, .json (Wire.generateReply v.stamp reply)⟩ ∧
    r' = ⟨200, .json (Wire.generateReply v'.stamp reply')⟩ ∧
    reply.predicate = reply'.predicate ∧
    reply.attestation.publicSignals = reply'.attestation.publicSignals

section
variable {p : Predicate} {key : PK} {request : GenerateRequest} {w : Witness}

theorem attest_of_failure {f : Failure} (hpermits : s.permits ≠ 0) {entropy : Entropy}
    (h : (S.pipeline P p s.settings.merkleDepth key entropy).generate request.secret
      request.revealed = some (.error f)) :
    s.attest S P entropy p key request = .error (.ofFailure f) := by
  rw [attest, if_neg hpermits, h]

/-- With a reliable key a true statement is proved. -/
theorem attest_of_holds (hkey : Reliable S P p s.settings.merkleDepth key)
    (hpermits : s.permits ≠ 0) (hinputs : Witness.assemble p s.settings.merkleDepth request.secret
      request.revealed = .ok w) (hholds : w.Holds P) (entropy : Entropy) :
    ∃ reply, s.attest S P entropy p key request = .ok reply ∧ reply.predicate = p ∧
      reply.attestation.publicSignals = w.publicSignals := by
  obtain ⟨system, hsystem, hcomplete⟩ := hkey.complete
  obtain ⟨-, -, hshaped, -⟩ := Witness.assemble_eq_ok_iff.mp hinputs
  obtain ⟨proof, hprover, hverify⟩ :=
    Scheme.prover_of_holds hsystem hcomplete hshaped hholds entropy
  have hgenerate := Scheme.generate_of_verified hinputs hprover hverify
  obtain ⟨points, hpoints⟩ : ∃ points, Groth16.Proof.ofBytes proof = .ok points := by
    obtain ⟨t, -, hproof⟩ := Scheme.prove_of_prover hprover
    exact hkey.spells entropy t proof hproof
  have hcalldata : Calldata.ofBytes proof w.publicSignals =
      .ok (Calldata.ofProof points w.publicSignals) := by
    rw [Calldata.ofBytes, hpoints]
    rfl
  exact ⟨⟨p, ⟨proof, w.publicSignals⟩, _⟩,
    attest_eq_ok_iff.mpr ⟨hpermits, hgenerate, hcalldata, rfl⟩, rfl, rfl⟩

/-- **With a reliable key the secrets that are drawn decide nothing but the proof.** -/
theorem attest_alike (hkey : Reliable S P p s.settings.merkleDepth key)
    (request : GenerateRequest) (entropy entropy' : Entropy) :
    (∃ e, s.attest S P entropy p key request = .error e ∧
      s.attest S P entropy' p key request = .error e) ∨
    ∃ reply reply', s.attest S P entropy p key request = .ok reply ∧
      s.attest S P entropy' p key request = .ok reply' ∧ reply.predicate = reply'.predicate ∧
      reply.attestation.publicSignals = reply'.attestation.publicSignals := by
  by_cases hpermits : s.permits = 0
  · exact .inl ⟨.timeout, if_pos hpermits, if_pos hpermits⟩
  · cases hinputs : Witness.assemble p s.settings.merkleDepth request.secret request.revealed with
    | error e =>
      exact .inl ⟨_, attest_of_failure hpermits (Scheme.generate_of_malformed hinputs),
        attest_of_failure hpermits (Scheme.generate_of_malformed hinputs)⟩
    | ok w =>
      by_cases hholds : w.Holds P
      · obtain ⟨reply, hreply, hp, hsignals⟩ := attest_of_holds hkey hpermits hinputs hholds entropy
        obtain ⟨reply', hreply', hp', hsignals'⟩ :=
          attest_of_holds hkey hpermits hinputs hholds entropy'
        exact .inr ⟨reply, reply', hreply, hreply', hp.trans hp'.symm,
          hsignals.trans hsignals'.symm⟩
      · obtain ⟨-, -, hshaped, -⟩ := Witness.assemble_eq_ok_iff.mp hinputs
        have hrefused (entropy : Entropy) : s.attest S P entropy p key request = _ :=
          attest_of_failure hpermits (Scheme.generate_of_refused hinputs
            (Scheme.prover_of_not_holds S hshaped hholds key entropy))
        exact .inl ⟨_, hrefused entropy, hrefused entropy'⟩

end

/-- **With reliable keys, who asks for a proof is answered alike over stores that agree on the
proving keys**, whatever secrets are drawn. -/
theorem visit_proving_alike {p : Predicate}
    (hpast : List.Forall₂ (Visit.Alike s (s.movedTo path) provingFile) past past')
    (h : v.Alike s (s.movedTo path) provingFile v') (hproves : v.Proves p)
    (hkeys : ∀ u ∈ past ++ [v], ∀ key,
      Keyring.loadProving S s.store s.settings.merkleDepth u.files p = .ok key →
        Reliable S P p s.settings.merkleDepth key)
    (hlate : s.settings.timeoutMs < v.stamp.provingMs ↔
      s.settings.timeoutMs < v'.stamp.provingMs) :
    AlikeButProof v v' ((s.visit S P v).run (s.keysAfter S P .empty past)).1
      (((s.movedTo path).visit S P v').run
        ((s.movedTo path).keysAfter S P .empty past')).1 := by
  have hproves' : v'.Proves p := by
    unfold Visit.Proves
    rw [h.request]
    exact hproves
  have hnow := now_alike (S := S) (P := P) (c := .proving p) hpast h ⟨p, rfl⟩
  have hsettings : (s.movedTo path).settings = s.settings := rfl
  rw [response_proves hproves, response_proves hproves', h.request, hsettings, ← hnow]
  cases v.request.readJson Wire.generateRequest with
  | error e => exact .inl rfl
  | ok request =>
    simp only [proveWith_movedTo, send_movedTo]
    cases hfound : (s.keysAfter S P .empty past).now S s.store s.settings.merkleDepth v.files
        (.proving p) with
    | error f =>
      rw [proveWith_error, proveWith_error, send_refused, send_refused]
      exact .inl rfl
    | ok key =>
      obtain ⟨u, hu, hload⟩ := exists_load_of_now hfound
      rw [proveWith_ok, proveWith_ok, send, send]
      by_cases hlate' : s.settings.timeoutMs < v.stamp.provingMs
      · rw [if_pos hlate', if_pos (hlate.mp hlate')]
        exact .inl rfl
      · rw [if_neg hlate', if_neg (hlate'.imp hlate.mpr)]
        rcases attest_alike (hkeys u hu key hload) request v.entropy v'.entropy with
          ⟨e, he, he'⟩ | ⟨reply, reply', hreply, hreply', hpredicate, hsignals⟩
        · rw [he, he']
          exact .inl rfl
        · rw [hreply, hreply']
          exact .inr ⟨reply, reply', rfl, rfl, hpredicate, hsignals⟩

end Server

/-- Rows that are related item by item are so at each place, and before it. -/
theorem forall₂_at {α β : Type} {R : α → β → Prop} {as : List α} {bs : List β}
    (h : List.Forall₂ R as bs) {i : Nat} {a : α} (ha : as[i]? = some a) :
    ∃ b, bs[i]? = some b ∧ R a b ∧ List.Forall₂ R (as.take i) (bs.take i) := by
  obtain ⟨hi, rfl⟩ := List.getElem?_eq_some_iff.mp ha
  have hi' : i < bs.length := h.length_eq ▸ hi
  exact ⟨bs[i], List.getElem?_eq_getElem hi', h.get hi hi', List.forall₂_take i h⟩

/-- **The files of one kind of key have nothing to do with the answers that need the other kind.**
Take two runs of a service with the same requests, over stores that may be in different places and
change from visit to visit. If at each visit the stores agree on the manifest and on the verifying
keys, every visit that asks for no proof is answered the same in both runs, with whatever proving
keys and whatever requests for proofs in between. If they agree on the manifest and on the proving
keys, every visit that asks for a proof is answered the same in both, when it draws the same secrets
and takes the same time. And with keys that are reliable, when it is late in both or in none, it is
answered alike whatever secrets it draws: by the same refusal, or by two proofs of one statement. -/
theorem key_files_apart {PK VK : Type} (S : Scheme PK VK) (P : Poseidon.Params) (s : Server)
    (path : Path) (run run' : List Visit) :
    let s' := s.movedTo path
    let told := s.responses S P .empty run
    let told' := s'.responses S P .empty run'
    (List.Forall₂ (Visit.Alike s s' verifyingFile) run run' →
      ∀ (i : Nat) (v : Visit), run[i]? = some v → (∀ p, ¬v.Proves p) →
        ∃ r, told[i]? = some r ∧ told'[i]? = some r) ∧
    (List.Forall₂ (Visit.Alike s s' provingFile) run run' →
      ∀ (i : Nat) (v v' : Visit) (p : Predicate),
        run[i]? = some v → run'[i]? = some v' → v.Proves p →
        (v'.entropy = v.entropy → v'.stamp = v.stamp →
          ∃ r, told[i]? = some r ∧ told'[i]? = some r) ∧
        ((∀ u ∈ run, ∀ key,
            Keyring.loadProving S s.store s.settings.merkleDepth u.files p = .ok key →
              Server.Reliable S P p s.settings.merkleDepth key) →
          (s.settings.timeoutMs < v.stamp.provingMs ↔
            s.settings.timeoutMs < v'.stamp.provingMs) →
          ∃ r r', told[i]? = some r ∧ told'[i]? = some r' ∧ Server.AlikeButProof v v' r r')) := by
  intro s' told told'
  have htold {i : Nat} {v : Visit} (hv : run[i]? = some v) :
      told[i]? = some ((s.visit S P v).run (s.keysAfter S P .empty (run.take i))).1 := by
    rw [Server.getElem?_responses, hv, Option.map_some]
  have htold' {i : Nat} {v : Visit} (hv : run'[i]? = some v) :
      told'[i]? = some ((s'.visit S P v).run (s'.keysAfter S P .empty (run'.take i))).1 := by
    rw [Server.getElem?_responses, hv, Option.map_some]
  constructor
  · intro hrun i v hv hproves
    obtain ⟨v', hv', halike, hpast⟩ := forall₂_at hrun hv
    refine ⟨_, htold hv, (htold' hv').trans ?_⟩
    exact congrArg some (Server.visit_unproving hpast halike hproves).symm
  · intro hrun i v v' p hv hv' hproves
    obtain ⟨w, hw, halike, hpast⟩ := forall₂_at hrun hv
    obtain rfl : w = v' := Option.some.inj (hw.symm.trans hv')
    constructor
    · intro hentropy hstamp
      refine ⟨_, htold hv, (htold' hv').trans ?_⟩
      exact congrArg some (Server.visit_proving hpast halike hproves hentropy hstamp).symm
    · intro hkeys hlate
      have hpart : ∀ u ∈ run.take i ++ [v], u ∈ run := by
        intro u hu
        rcases List.mem_append.mp hu with hu | hu
        · exact List.mem_of_mem_take hu
        · rw [List.mem_singleton.mp hu]
          exact List.mem_of_getElem? hv
      exact ⟨_, _, htold hv, htold' hv', Server.visit_proving_alike hpast halike hproves
        (fun u hu => hkeys u (hpart u hu)) hlate⟩

/-- With the sealing scheme every true statement is proved. -/
theorem sealing_reliable (P : Poseidon.Params) (p : Predicate) (depth : Nat) :
    Server.Reliable sealing P p depth [7] := by
  obtain ⟨system, hsystem, -⟩ := (Witness.blank_shaped depth p).synthesizes P
  have hcomplete : sealing.Complete [7] system := by
    refine ⟨fun t _ _ _ => ⟨_, rfl⟩, fun t _ _ mask proof hproof => ?_⟩
    obtain rfl := Option.some.inj hproof
    exact congrArg Except.ok (beq_self_eq_true _)
  have hdecoded : (Groth16.Proof.ofBytes (sealed [7])).toOption =
      some ⟨.infinity, .infinity, .infinity⟩ := by decide +kernel
  refine ⟨⟨system, hsystem, hcomplete⟩, fun mask t proof hproof => ?_⟩
  obtain rfl := Option.some.inj hproof
  exact ⟨_, eq_ok_of_toOption hdecoded⟩

/-- A service without a proving key shows the key that one with a wrong proving key shows, after
both were asked for a proof; and one without a verifying key proves what one with a wrong verifying
key does. -/
theorem key_files_apart_elsewhere :
    let s : Server := ⟨.fromLookup fun _ => none, ⟨⟨[.stay]⟩, "."⟩, 1⟩
    let s' := s.movedTo ⟨[.into "keys"]⟩
    let manifest := Bytes.ofText
      (Wire.manifest.write (.current Settings.defaultDepth Predicate.all)).pretty.toList
    let generate : GenerateRequest :=
      ⟨.ofList [("value", .scalar 25), ("document_hash", .scalar 1)],
        .ofList [("commitment", .scalar (Poseidon.standard.hash [25, 1])),
          ("threshold", .scalar 18)]⟩
    let prove (mask : Scalar) (fs : Files) : Visit :=
      ⟨fs, fun _ => mask, ⟨"", 0, 0, ""⟩, generate.toRequest .threshold⟩
    let ask (fs : Files) : Visit := ⟨fs, fun _ => 0, ⟨"", 0, 0, ""⟩,
      ⟨"GET", ⟨s!"/api/v1/circuits/{Predicate.threshold.name}/vk"⟩, none, []⟩⟩
    let verifyOnly : Files := .ofEntries [(["claim_threshold.v1.vk.bin"], .file [7]),
      (["manifest.json"], .file manifest)]
    let wrongProving : Files := .ofEntries [(["keys", "claim_threshold.v1.vk.bin"], .file [7]),
      (["keys", "claim_threshold.v1.pk.bin"], .file [9]),
      (["keys", "manifest.json"], .file manifest), (["keys"], .directory)]
    let proveOnly : Files := .ofEntries [(["claim_threshold.v1.pk.bin"], .file [7]),
      (["manifest.json"], .file manifest)]
    let wrongVerifying : Files := .ofEntries [(["keys", "claim_threshold.v1.pk.bin"], .file [7]),
      (["keys", "claim_threshold.v1.vk.bin"], .file [9]),
      (["keys", "manifest.json"], .file manifest), (["keys"], .directory)]
    let told (s : Server) (run : List Visit) :=
      s.responses sealing Poseidon.standard .empty run
    (told s [prove 0 verifyOnly, ask verifyOnly])[1]? =
        some ⟨200, .json (Wire.keyReply ⟨.threshold, [7]⟩)⟩ ∧
      (told s' [prove 0 wrongProving, ask wrongProving])[1]? =
        some ⟨200, .json (Wire.keyReply ⟨.threshold, [7]⟩)⟩ ∧
      ∃ r r', (told s [prove 1 proveOnly])[0]? = some r ∧
        (told s' [prove 2 wrongVerifying])[0]? = some r' ∧
        Server.AlikeButProof (prove 1 proveOnly) (prove 2 wrongVerifying) r r' := by
  generalize Poseidon.standard = P
  intro s s' manifest generate prove ask verifyOnly wrongProving proveOnly wrongVerifying told
  have hshows (fs : Files) : (ask fs).Shows .threshold := by
    obtain ⟨hslash, hname⟩ := Route.segmentName_name .threshold
    refine ⟨rfl, Predicate.threshold.name, ?_, rfl⟩
    rw [← hname]
    exact Route.ofTarget?_verifyingKey hslash
  have hproves (mask : Scalar) (fs : Files) : (prove mask fs).Proves .threshold :=
    ⟨rfl, _, generate.toRequest_route .threshold, rfl⟩
  -- the first service shows its key
  have hload : Keyring.load sealing s.store s.settings.merkleDepth verifyOnly
      (.verifying .threshold) = .ok ⟨[7], [7]⟩ :=
    Keyring.loadVerifying_eq_ok_iff.mpr
      ⟨Store.check_of_written (by decide) rfl .threshold, rfl, rfl⟩
  have hfirst : (told s [prove 0 verifyOnly, ask verifyOnly])[1]? =
      some ⟨200, .json (Wire.keyReply ⟨.threshold, [7]⟩)⟩ := by
    have hpast : ∀ u ∈ [prove 0 verifyOnly], s.store.Same verifyOnly u.files :=
      List.forall_mem_singleton.mpr fun _ => rfl
    have hnow : (s.keysAfter sealing P .empty [prove 0 verifyOnly]).now sealing s.store
        s.settings.merkleDepth verifyOnly (.verifying .threshold) = .ok ⟨[7], [7]⟩ :=
      (Server.now_unchanged hpast fun _ => rfl).trans hload
    obtain ⟨hmethod, name, hroute, hname⟩ := hshows verifyOnly
    rw [Server.getElem?_responses]
    exact congrArg some (s.exchange_show sealing P verifyOnly _ _ _ hmethod hroute hname hnow)
  -- so does the other one
  have hverifying : List.Forall₂ (Visit.Alike s s' verifyingFile)
      [prove 0 verifyOnly, ask verifyOnly] [prove 0 wrongProving, ask wrongProving] := by
    have hkeys (p : Predicate) : verifyOnly.read (s.store.place (verifyingFile p)) =
        wrongProving.read (s'.store.place (verifyingFile p)) := by
      cases p <;> rfl
    exact .cons ⟨rfl, rfl, hkeys⟩ (.cons ⟨rfl, rfl, hkeys⟩ .nil)
  obtain ⟨r, hr, hr'⟩ := (key_files_apart sealing P s ⟨[.into "keys"]⟩ _ _).1 hverifying 1
    (ask verifyOnly) rfl fun p h => absurd (h.1 : "GET" = "POST") (by decide)
  obtain rfl := Option.some.inj (hr.symm.trans hfirst)
  refine ⟨hfirst, hr', ?_⟩
  -- and what the one proves the other does
  have hproving : List.Forall₂ (Visit.Alike s s' provingFile) [prove 1 proveOnly]
      [prove 2 wrongVerifying] := by
    have hkeys (p : Predicate) : proveOnly.read (s.store.place (provingFile p)) =
        wrongVerifying.read (s'.store.place (provingFile p)) := by
      cases p <;> rfl
    exact .cons ⟨rfl, rfl, hkeys⟩ .nil
  refine ((key_files_apart sealing P s ⟨[.into "keys"]⟩ _ _).2 hproving 0 _ _ .threshold rfl rfl
    (hproves 1 proveOnly)).2 ?_ Iff.rfl
  intro u hu key hkey
  obtain rfl := List.mem_singleton.mp hu
  have hread : s.store.provingKey sealing proveOnly .threshold = .ok [7] := rfl
  obtain rfl : [7] = key :=
    Except.ok.inj (hread.symm.trans (Keyring.loadProving_eq_ok_iff.mp hkey).2)
  exact sealing_reliable P .threshold s.settings.merkleDepth

end Attest.Service
