import Attest.Proofs.Artifact.Gate
import Attest.Proofs.Calldata
import Attest.Proofs.Curve.Taken
import Attest.Proofs.Service.Isolation

/-! Whose fault it is that there is no key.

A key is loaded, or what it needs of the disk is wanting, or that is spoilt (`Keyring.load_cases`).
It is fair to tell who seeks the key that what is wanting is not found and that what is spoilt is a
fault of the service's own, and to blame nobody (`Fair`). Who asks for a proof is treated so
whatever is on the disk. A verifying key that is misread is blamed on who seeks it, and one for
another number of scalars on who asks for a verification; nothing else is unfair (`faults_owned`).
-/
namespace Attest.Service
open Artifact

/-! ### Loads that fail -/

namespace Cell

def predicate : Cell → Predicate
  | proving p => p
  | verifying p => p

/-- What the bytes of a cell's file spell. -/
def decode {PK VK : Type} (S : Scheme PK VK) : (c : Cell) → Bytes → Except Failure (c.Key PK VK)
  | proving _, bytes => S.readProvingKey bytes
  | verifying _, bytes => (S.readVerifyingKey bytes).map (StoredKey.mk bytes)

theorem decode_verifying_eq_error_iff {PK VK : Type} {S : Scheme PK VK} {p : Predicate}
    {bytes : Bytes} {f : Failure} :
    (verifying p).decode S bytes = .error f ↔ S.readVerifyingKey bytes = .error f := by
  show (S.readVerifyingKey bytes).map (StoredKey.mk bytes) = .error f ↔ _
  cases S.readVerifyingKey bytes <;> simp [Except.map]

/-- The bytes of a key, cut anywhere, spell none. -/
theorem decode_cut {c : Cell} {bytes : Bytes}
    {key : c.Key Groth16.ProvingKey Groth16.VerifyingKey} (h : c.decode groth16 bytes = .ok key) :
    ∃ used, used <+: bytes ∧
      ∀ short, short <+: used → short ≠ used → ∃ f, c.decode groth16 short = .error f := by
  cases c with
  | proving p =>
    obtain ⟨used, hused, -, hcut⟩ := Groth16.ProvingKey.ofBytes_cut h
    exact ⟨used, hused, fun short hshort hne => ⟨_, hcut short hshort hne⟩⟩
  | verifying p =>
    cases hkey : Groth16.VerifyingKey.ofBytes bytes with
    | error f => exact nomatch (decode_verifying_eq_error_iff.mpr hkey).symm.trans h
    | ok k =>
      obtain ⟨used, hused, -, hcut⟩ := Groth16.VerifyingKey.ofBytes_cut hkey
      exact ⟨used, hused,
        fun short hshort hne => ⟨_, decode_verifying_eq_error_iff.mpr (hcut short hshort hne)⟩⟩

end Cell

namespace Keyring

section
variable (store : Store) (depth : Nat) (fs : Files) (c : Cell)

/-- What a cell's key needs is not there, or is there for another configuration. -/
inductive Wanting : Prop
  | manifest (h : fs.read (store.place manifestFile) = .error .missing)
  | configuration {m : Manifest} (hm : store.Records fs m) (h : ¬m.Admits c.predicate depth)
  | key (hcheck : store.check fs c.predicate depth = .ok ())
    (h : fs.read (store.place c.file) = .error .missing)

/-- What a cell's key needs is there, and is not what it should be. -/
inductive Spoilt {PK VK : Type} (S : Scheme PK VK) : Prop
  | manifest {e : FileError} (h : fs.read (store.place manifestFile) = .error e)
    (he : e ≠ .missing)
  | manifestText {bytes : Bytes} (h : fs.read (store.place manifestFile) = .ok bytes)
    (hnone : ∀ m, ¬Wire.ManifestText bytes m)
  | key {e : FileError} (hcheck : store.check fs c.predicate depth = .ok ())
    (h : fs.read (store.place c.file) = .error e) (he : e ≠ .missing)
  | keyBytes {bytes : Bytes} {f : Failure} (hcheck : store.check fs c.predicate depth = .ok ())
    (h : fs.read (store.place c.file) = .ok bytes) (hdecode : c.decode S bytes = .error f)

end

variable {PK VK : Type} {S : Scheme PK VK} {store : Store} {depth : Nat} {fs : Files} {c : Cell}

/-- A key is loaded past the manifest from its file's bytes. -/
theorem load_eq (S : Scheme PK VK) (store : Store) (depth : Nat) (fs : Files) (c : Cell) :
    load S store depth fs c = (do
      store.check fs c.predicate depth
      c.decode S (← store.readKey fs c.predicate c.file)) := by
  cases c with
  | proving p => rfl
  | verifying p =>
    refine bind_congr fun _ => bind_congr fun bytes => ?_
    show (S.readVerifyingKey bytes >>= fun key => .ok ⟨bytes, key⟩) =
      (S.readVerifyingKey bytes).map (StoredKey.mk bytes)
    cases S.readVerifyingKey bytes <;> rfl

theorem load_of_check_error {f : Failure} (h : store.check fs c.predicate depth = .error f) :
    load S store depth fs c = .error f := by
  rw [load_eq, h]
  rfl

theorem load_of_file_error {f : Failure} (hcheck : store.check fs c.predicate depth = .ok ())
    (h : store.readKey fs c.predicate c.file = .error f) : load S store depth fs c = .error f := by
  rw [load_eq, hcheck, h]
  rfl

theorem load_of_bytes {bytes : Bytes} (hcheck : store.check fs c.predicate depth = .ok ())
    (h : fs.read (store.place c.file) = .ok bytes) :
    load S store depth fs c = c.decode S bytes := by
  rw [load_eq, hcheck, Store.readKey, Store.readFile_of_read h]
  rfl

/-- What is wanting is told as a circuit that is not there. -/
theorem Wanting.load (h : Wanting store depth fs c) :
    ∃ reason, load S store depth fs c = .error (.circuitNotFound reason) := by
  cases h with
  | manifest h => exact ⟨_, load_of_check_error (Store.check_of_missing _ _ h)⟩
  | configuration hm h =>
    obtain ⟨reason, hcheck⟩ := hm.check_of_not_admits h
    exact ⟨reason, load_of_check_error hcheck⟩
  | key hcheck h => exact ⟨_, load_of_file_error hcheck (Store.readFile_of_read_missing h)⟩

/-- What is spoilt is told as a fault of the disk or of serialization, or as the decoder of the key
tells it. -/
theorem Spoilt.load (h : Spoilt store depth fs c S) : ∃ f, load S store depth fs c = .error f ∧
    ((Refusal.ofFailure f).status = 500 ∨ store.check fs c.predicate depth = .ok () ∧
      ∃ bytes, fs.read (store.place c.file) = .ok bytes ∧ c.decode S bytes = .error f) := by
  cases h with
  | manifest h he => exact ⟨_, load_of_check_error (Store.check_of_error _ _ he h), .inl rfl⟩
  | manifestText h hnone =>
    obtain ⟨reason, hcheck⟩ := Store.check_of_not_text c.predicate depth h hnone
    exact ⟨_, load_of_check_error hcheck, .inl rfl⟩
  | key hcheck h he =>
    exact ⟨_, load_of_file_error hcheck (Store.readFile_of_error he h), .inl rfl⟩
  | keyBytes hcheck h hdecode =>
    exact ⟨_, (load_of_bytes hcheck h).trans hdecode, .inr ⟨hcheck, _, h, hdecode⟩⟩

/-- **A key is loaded, or what it needs is wanting, or it is spoilt**, whatever is on the disk. -/
theorem load_cases (S : Scheme PK VK) (store : Store) (depth : Nat) (fs : Files) (c : Cell) :
    (∃ key, Keyring.load S store depth fs c = .ok key) ∨ Wanting store depth fs c ∨
      Spoilt store depth fs c S := by
  cases hmanifest : fs.read (store.place manifestFile) with
  | error e =>
    by_cases he : e = .missing
    · exact .inr (.inl (.manifest (he ▸ hmanifest)))
    · exact .inr (.inr (.manifest hmanifest he))
  | ok text =>
    by_cases htext : ∃ m, Wire.ManifestText text m
    · obtain ⟨m, hm⟩ := htext
      have hrecords : store.Records fs m := ⟨text, hmanifest, hm⟩
      by_cases hadmits : m.Admits c.predicate depth
      · have hcheck := Store.check_eq_ok_iff.mpr ⟨m, hrecords, hadmits⟩
        cases hkey : fs.read (store.place c.file) with
        | error e =>
          by_cases he : e = .missing
          · exact .inr (.inl (.key hcheck (he ▸ hkey)))
          · exact .inr (.inr (.key hcheck hkey he))
        | ok bytes =>
          cases hdecode : c.decode S bytes with
          | error f => exact .inr (.inr (.keyBytes hcheck hkey hdecode))
          | ok key => exact .inl ⟨key, (load_of_bytes hcheck hkey).trans hdecode⟩
      · exact .inr (.inl (.configuration hrecords hadmits))
    · exact .inr (.inr (.manifestText hmanifest (not_exists.mp htext)))

end Keyring

/-! ### Who seeks a key -/

/-- The visit is put to the cell's key, if there is one. -/
def Visit.Seeks (v : Visit) : Cell → Prop
  | .proving p => v.Proves p ∧ ∃ request, v.request.readJson Wire.generateRequest = .ok request
  | .verifying p =>
    v.Shows p ∨ v.Verifies p ∧ ∃ proof signals, Server.Puts v.request proof signals

/-- Whoever seeks a key is not to blame: unless the key is held already, what is wanting is answered
with status 404, and what is spoilt with status 500. -/
structure Fair {PK VK : Type} (S : Scheme PK VK) (s : Server) (keys : Keyring PK VK) (fs : Files)
    (c : Cell) (response : Response) : Prop where
  blameless : response.status ≠ 400
  wanting : keys.held c = none → Keyring.Wanting s.store s.settings.merkleDepth fs c →
    response.status = 404
  spoilt : keys.held c = none → Keyring.Spoilt s.store s.settings.merkleDepth fs c S →
    response.status = 500

namespace Server
variable {PK VK : Type} {S : Scheme PK VK} {P : Poseidon.Params} {s : Server}
  {keys : Keyring PK VK} {v : Visit} {c : Cell} {p : Predicate}

/-- **Who seeks a key that there is not is told why not.** -/
theorem visit_of_error (h : v.Seeks c) {f : Failure}
    (hnow : keys.now S s.store s.settings.merkleDepth v.files c = .error f) :
    ((s.visit S P v).run keys).1 = (Refusal.ofFailure f).respond := by
  cases c with
  | proving p =>
    obtain ⟨hproves, request, hread⟩ := h
    rw [response_proves hproves, hread]
    dsimp only
    rw [hnow, proveWith_error, send_refused]
  | verifying p =>
    rw [response_visit]
    obtain ⟨hmethod, name, hroute, hname⟩ | ⟨hverifies, proof, signals, hputs⟩ := h
    · rw [errand_show S P s v.entropy hmethod hroute hname, Errand.run_keyed, hnow]
      rfl
    · obtain ⟨hmethod, name, hroute, hname⟩ := hverifies
      rw [errand_verify S P s v.entropy hmethod hroute hname, asked_eq_ok_iff.mpr hputs]
      dsimp only
      rw [Errand.run_keyed, hnow]
      rfl

/-- It is fair to be told of a fault that is the service's own, or of a key that there is, unless
that is to blame the caller. -/
theorem fair_of_load (h : v.Seeks c)
    (hdecode : ∀ bytes f, keys.held c = none →
      s.store.check v.files c.predicate s.settings.merkleDepth = .ok () →
      v.files.read (s.store.place c.file) = .ok bytes → c.decode S bytes = .error f →
      (Refusal.ofFailure f).status = 500)
    (hkey : ∀ key, keys.now S s.store s.settings.merkleDepth v.files c = .ok key →
      ((s.visit S P v).run keys).1.status ≠ 400) :
    Fair S s keys v.files c ((s.visit S P v).run keys).1 := by
  have hwanting (hheld : keys.held c = none)
      (hwanting : Keyring.Wanting s.store s.settings.merkleDepth v.files c) :
      ((s.visit S P v).run keys).1.status = 404 := by
    obtain ⟨reason, hload⟩ := hwanting.load (S := S)
    rw [visit_of_error h ((Keyring.now_of_not_held _ _ _ _ hheld).trans hload)]
    rfl
  have hspoilt (hheld : keys.held c = none)
      (hspoilt : Keyring.Spoilt s.store s.settings.merkleDepth v.files c S) :
      ((s.visit S P v).run keys).1.status = 500 := by
    obtain ⟨f, hload, hf⟩ := hspoilt.load
    rw [visit_of_error h ((Keyring.now_of_not_held _ _ _ _ hheld).trans hload)]
    obtain hf | ⟨hcheck, bytes, hread, hf⟩ := hf
    · exact hf
    · exact hdecode bytes f hheld hcheck hread hf
  refine ⟨?_, hwanting, hspoilt⟩
  cases hheld : keys.held c with
  | some key => exact hkey key (Keyring.now_of_held _ _ _ _ hheld)
  | none =>
    obtain ⟨key, hload⟩ | h404 | h500 :=
      Keyring.load_cases S s.store s.settings.merkleDepth v.files c
    · exact hkey key ((Keyring.now_of_not_held _ _ _ _ hheld).trans hload)
    · rw [hwanting hheld h404]
      decide
    · rw [hspoilt hheld h500]
      decide

end Server

/-! ### Groth16 keys -/

namespace Server
variable {P : Poseidon.Params} {s : Server}
  {keys : Keyring Groth16.ProvingKey Groth16.VerifyingKey} {v : Visit} {p : Predicate}

/-- Every failure to make a proof is the statement's or the service's, and none is the caller's
manner of asking. -/
theorem attest_blameless {entropy : Entropy} {key : Groth16.ProvingKey} {request : GenerateRequest}
    {e : Refusal} (h : s.attest groth16 P entropy p key request = .error e) : e.status ≠ 400 := by
  unfold attest at h
  split at h
  · cases h
    decide
  · split at h
    · cases h
      decide
    · next f hgenerate =>
      cases h
      obtain ⟨reason, rfl⟩ := Scheme.generate_eq_error hgenerate
      exact fun h => nomatch h
    · next a hgenerate =>
      -- a proof that was verified has been read
      have hverify := Scheme.verify_of_generate hgenerate
      obtain ⟨-, points, hpoints, -⟩ := Groth16.VerifyingKey.verify_eq_ok_iff.mp hverify
      rw [Calldata.ofBytes_eq_ok_iff.mpr ⟨points, hpoints, rfl⟩] at h
      exact nomatch h

/-- **Who asks for a proof is treated fairly**, whatever is on the disk. -/
theorem fair_of_proves (hproves : v.Proves p) {request : GenerateRequest}
    (hread : v.request.readJson Wire.generateRequest = .ok request) :
    Fair groth16 s keys v.files (.proving p) ((s.visit groth16 P v).run keys).1 := by
  refine fair_of_load ⟨hproves, request, hread⟩ (fun bytes f _ _ _ hdecode => ?_) fun key hnow => ?_
  · obtain rfl | ⟨e, rfl⟩ := Groth16.ProvingKey.ofBytes_eq_error hdecode <;> rfl
  · rw [response_proves hproves, hread]
    dsimp only
    rw [hnow, proveWith_ok, send]
    split
    · show (504 : Nat) ≠ 400
      decide
    · cases hattest : s.attest groth16 P v.entropy p key request with
      | error e => exact attest_blameless hattest
      | ok reply =>
        show (200 : Nat) ≠ 400
        decide

/-- The file of a verifying key that is not held is there for this configuration and spells none. -/
structure Misread (s : Server) (keys : Keyring Groth16.ProvingKey Groth16.VerifyingKey)
    (fs : Files) (p : Predicate) : Prop where
  held : keys.held (.verifying p) = none
  check : s.store.check fs p s.settings.merkleDepth = .ok ()
  file : ∃ bytes reason, fs.read (s.store.place (verifyingFile p)) = .ok bytes ∧
    Groth16.VerifyingKey.ofBytes bytes = .error (.malformedProof reason)

/-- A verifying key that is misread is blamed on who seeks it. -/
theorem Misread.blamed (h : Misread s keys v.files p) (hseeks : v.Seeks (.verifying p)) :
    ((s.visit groth16 P v).run keys).1.status = 400 := by
  obtain ⟨bytes, reason, hread, hdecode⟩ := h.file
  have hload : Keyring.load groth16 s.store s.settings.merkleDepth v.files (.verifying p) = _ :=
    Keyring.load_of_bytes h.check hread
  have hcell : (Cell.verifying p).decode groth16 bytes = .error (.malformedProof reason) :=
    Cell.decode_verifying_eq_error_iff.mpr hdecode
  rw [visit_of_error hseeks
    ((Keyring.now_of_not_held _ _ _ _ h.held).trans (hload.trans hcell))]
  rfl

/-- Who seeks a verifying key is treated fairly, if it is not misread and nobody is blamed for one
that is there. -/
theorem fair_of_not_misread (hseeks : v.Seeks (.verifying p)) (h : ¬Misread s keys v.files p)
    (hkey : ∀ stored, keys.now groth16 s.store s.settings.merkleDepth v.files (.verifying p) =
      .ok stored → ((s.visit groth16 P v).run keys).1.status ≠ 400) :
    Fair groth16 s keys v.files (.verifying p) ((s.visit groth16 P v).run keys).1 := by
  refine fair_of_load hseeks (fun bytes f hheld hcheck hread hcell => ?_) hkey
  have hdecode := Cell.decode_verifying_eq_error_iff.mp hcell
  obtain rfl | ⟨e, rfl⟩ := Groth16.VerifyingKey.ofBytes_eq_error hdecode
  · rfl
  · exact absurd ⟨hheld, hcheck, bytes, _, hread, hdecode⟩ h

/-- With a key that is there, who asks for a verification is blamed exactly when the key is for
another number of scalars. -/
theorem visit_verifies_blamed_iff {proof : Bytes} {signals : List Scalar} {points : Groth16.Proof}
    (hverifies : v.Verifies p) (hputs : Puts v.request proof signals)
    (hproof : Groth16.Proof.ofBytes proof = .ok points)
    {stored : StoredKey Groth16.VerifyingKey}
    (hnow : keys.now groth16 s.store s.settings.merkleDepth v.files (.verifying p) = .ok stored) :
    ((s.visit groth16 P v).run keys).1.status = 400 ↔
      stored.key.inputs.length ≠ signals.length + 1 := by
  obtain ⟨hmethod, name, hroute, hname⟩ := hverifies
  rw [visit, s.exchange_verify groth16 P v.files v.entropy v.stamp keys hmethod hroute hname hnow,
    verdict_of_asked groth16 (asked_eq_ok_iff.mpr hputs)]
  show (verdictResponse ((stored.key.verify proof signals).mapError .ofFailure)).status = 400 ↔ _
  by_cases hlength : stored.key.inputs.length = signals.length + 1
  · rw [Groth16.VerifyingKey.verify_eq_ok_iff.mpr ⟨hlength, points, hproof, rfl⟩]
    have hstatus : (200 : Nat) ≠ 400 := by decide
    exact iff_of_false hstatus (not_not.mpr hlength)
  · cases hverify : stored.key.verify proof signals with
    | ok b => exact absurd (Groth16.VerifyingKey.verify_eq_ok_iff.mp hverify).1 hlength
    | error f =>
      obtain ⟨reason, rfl⟩ := Groth16.VerifyingKey.verify_eq_error hverify
      exact iff_of_true rfl hlength

end Server

/-- **Who is blamed for what is on the disk**, whatever it is and whatever keys are held. A cell's
key can be loaded, or what it needs is wanting or spoilt; and the bytes of a key, cut anywhere, are
none. Who asks for a proof, in a body that is read, is treated fairly. So is who asks for a
verifying key, exactly unless it is misread, and is blamed then. So is who asks for a verification,
with a proof that is read and as many scalars as the predicate has, exactly unless the key is
misread or is for another number of scalars, and is blamed then. -/
theorem faults_owned (P : Poseidon.Params) (s : Server)
    (keys : Keyring Groth16.ProvingKey Groth16.VerifyingKey) (v : Visit) (p : Predicate) :
    let response := ((s.visit groth16 P v).run keys).1
    let depth := s.settings.merkleDepth
    (∀ c : Cell, (∃ key, Keyring.load groth16 s.store depth v.files c = .ok key) ∨
      Keyring.Wanting s.store depth v.files c ∨ Keyring.Spoilt s.store depth v.files c groth16) ∧
    (∀ (c : Cell) bytes key, c.decode groth16 bytes = .ok key → ∃ used, used <+: bytes ∧
      ∀ short, short <+: used → short ≠ used → ∃ f, c.decode groth16 short = .error f) ∧
    (v.Proves p → ∀ request, v.request.readJson Wire.generateRequest = .ok request →
      Fair groth16 s keys v.files (.proving p) response) ∧
    (v.Shows p →
      (Fair groth16 s keys v.files (.verifying p) response ↔ ¬Server.Misread s keys v.files p) ∧
      (Server.Misread s keys v.files p → response.status = 400)) ∧
    (v.Verifies p → ∀ proof signals points, Server.Puts v.request proof signals →
      signals.length = p.publicCount → Groth16.Proof.ofBytes proof = .ok points →
      let miscounted := ∃ stored, keys.now groth16 s.store depth v.files (.verifying p) =
        .ok stored ∧ stored.key.inputs.length ≠ p.publicCount + 1
      (Fair groth16 s keys v.files (.verifying p) response ↔
        ¬(Server.Misread s keys v.files p ∨ miscounted)) ∧
      (Server.Misread s keys v.files p ∨ miscounted → response.status = 400)) := by
  intro response depth
  refine ⟨Keyring.load_cases groth16 s.store depth v.files, fun c bytes key => Cell.decode_cut,
    fun hproves request hread => Server.fair_of_proves hproves hread, fun hshows => ?_,
    fun hverifies proof signals points hputs hcount hproof => ?_⟩
  · have hseeks : v.Seeks (.verifying p) := .inl hshows
    have hblamed (h : Server.Misread s keys v.files p) : response.status = 400 := h.blamed hseeks
    refine ⟨⟨fun h hmisread => h.blameless (hblamed hmisread), fun h => ?_⟩, hblamed⟩
    refine Server.fair_of_not_misread hseeks h fun stored hnow => ?_
    obtain ⟨hmethod, name, hroute, hname⟩ := hshows
    rw [Server.visit,
      s.exchange_show groth16 P v.files v.entropy v.stamp keys hmethod hroute hname hnow]
    show (200 : Nat) ≠ 400
    decide
  · intro miscounted
    have hseeks : v.Seeks (.verifying p) := .inr ⟨hverifies, proof, signals, hputs⟩
    have hblamed : Server.Misread s keys v.files p ∨ miscounted → response.status = 400 := by
      rintro (h | ⟨stored, hnow, hlength⟩)
      · exact h.blamed hseeks
      · exact (Server.visit_verifies_blamed_iff hverifies hputs hproof hnow).mpr (hcount ▸ hlength)
    refine ⟨⟨fun h hcase => h.blameless (hblamed hcase), fun h => ?_⟩, hblamed⟩
    refine Server.fair_of_not_misread hseeks (fun hread => h (.inl hread)) fun stored hnow => ?_
    rw [Ne, Server.visit_verifies_blamed_iff hverifies hputs hproof hnow, hcount]
    exact fun hlength => h (.inr ⟨stored, hnow, hlength⟩)

/-- With key files of one byte, who asks for the verifying key is blamed and who asks for a proof is
not. -/
theorem misread_key_blamed :
    let manifest := Manifest.current Settings.defaultDepth Predicate.all
    let files : Files := .ofEntries [([provingFile .threshold], .file [0]),
      ([verifyingFile .threshold], .file [0]),
      ([manifestFile], .file (Bytes.ofText (Wire.manifest.write manifest).pretty.toList))]
    let s : Server := ⟨.fromLookup fun _ => none, ⟨⟨[.stay]⟩, "."⟩, 1⟩
    let visit (r : Request) : Visit := ⟨files, fun _ => 0, ⟨"", 0, 0, ""⟩, r⟩
    let ask := visit ⟨"GET", ⟨s!"/api/v1/circuits/{Predicate.threshold.name}/vk"⟩, none, []⟩
    let generate : GenerateRequest :=
      ⟨.ofList [("value", .scalar 25), ("document_hash", .scalar 1)],
        .ofList [("commitment", .scalar 7), ("threshold", .scalar 18)]⟩
    let prove := visit (generate.toRequest .threshold)
    ask.Shows .threshold ∧ prove.Proves .threshold ∧
      ∀ P : Poseidon.Params,
        ((s.visit groth16 P prove).run .empty).1.status = 500 ∧
        ((s.visit groth16 P ask).run .empty).1.status = 400 ∧
        ¬Fair groth16 s .empty files (.verifying .threshold)
          ((s.visit groth16 P ask).run .empty).1 := by
  intro manifest files s visit ask generate prove
  have hshows : ask.Shows .threshold := by
    obtain ⟨hslash, hname⟩ := Route.segmentName_name .threshold
    refine ⟨rfl, Predicate.threshold.name, ?_, rfl⟩
    rw [← hname]
    exact Route.ofTarget?_verifyingKey hslash
  have hproves : prove.Proves .threshold := ⟨rfl, _, generate.toRequest_route .threshold, rfl⟩
  have hread : prove.request.readJson Wire.generateRequest = .ok generate := by
    have hsecret : generate.secret.entries =
        [("document_hash", .scalar 1), ("value", .scalar 25)] := by cbv
    have hrevealed : generate.revealed.entries =
        [("commitment", .scalar 7), ("threshold", .scalar 18)] := by cbv
    exact generate.readJson_toRequest .threshold
      (generate.length_toRequest_threshold .threshold hsecret hrevealed)
  have hcheck : s.store.check files .threshold s.settings.merkleDepth = .ok () :=
    Store.check_of_written (by decide) rfl .threshold
  refine ⟨hshows, hproves, fun P => ?_⟩
  have hmisread : Server.Misread s .empty files .threshold := ⟨rfl, hcheck, [0], _, rfl, rfl⟩
  have hblamed := hmisread.blamed (P := P) (v := ask) (.inl hshows)
  refine ⟨(Server.fair_of_proves hproves hread).spoilt rfl (.keyBytes hcheck rfl rfl), hblamed,
    fun h => h.blameless hblamed⟩

end Attest.Service
