import Attest.Proofs.Artifact.Sealing
import Attest.Proofs.Service.Visit

/-! Proofs that a service issues.

A proof is answered only when it was verified with the key that made it (`Server.attest_verified`).
A store that was filled by a set-up has, beside that key, the verifying key that belongs to it
(`Keyring.loadVerifying_of_loadProving`), and while the store is left as it is the service has no others; so what
it issues it verifies, and every service on the same store does (`issued_verifies`). -/
namespace Attest.Service

/-- A refusal is no success. -/
theorem Refusal.status_ne (r : Refusal) : r.status ≠ 200 := by
  cases r <;> exact fun h => nomatch h

namespace Server
variable {PK VK : Type} {S : Scheme PK VK} {P : Poseidon.Params} {s : Server}
  {keys : Keyring PK VK} {p : Predicate} {v : Visit}

/-- A proof is handed out when it could be made, and its bytes spell points. -/
theorem attest_eq_ok_iff {entropy : Entropy} {key : PK} {request : GenerateRequest}
    {reply : GenerateReply} : s.attest S P entropy p key request = .ok reply ↔
      s.permits ≠ 0 ∧ (S.pipeline P p s.settings.merkleDepth key entropy).generate request.secret
          request.revealed = some (.ok reply.attestation) ∧
        Calldata.ofBytes reply.attestation.proof reply.attestation.publicSignals =
          .ok reply.calldata ∧
        reply.predicate = p := by
  unfold attest
  by_cases hpermits : s.permits = 0
  · rw [if_pos hpermits]
    exact iff_of_false (fun h => nomatch h) fun h => h.1 hpermits
  · rw [if_neg hpermits]
    cases (S.pipeline P p s.settings.merkleDepth key entropy).generate request.secret
        request.revealed with
    | none => exact iff_of_false (fun h => nomatch h) fun h => nomatch h.2.1
    | some answer =>
      cases answer with
      | error f => exact iff_of_false (fun h => nomatch h) fun h => nomatch h.2.1
      | ok a =>
        dsimp only
        rw [mapError_eq_ok_iff]
        constructor
        · intro h
          cases hcalldata : Calldata.ofBytes a.proof a.publicSignals with
          | error f =>
            rw [hcalldata] at h
            exact nomatch h
          | ok calldata =>
            rw [hcalldata] at h
            obtain rfl := Except.ok.inj h
            exact ⟨hpermits, rfl, hcalldata, rfl⟩
        · obtain ⟨predicate, attestation, calldata⟩ := reply
          rintro ⟨-, ha, hcalldata, rfl⟩
          obtain rfl := Except.ok.inj (Option.some.inj ha)
          rw [hcalldata]
          rfl

/-- **What is handed out was verified with the key that made it.** -/
theorem attest_verified {entropy : Entropy} {key : PK} {request : GenerateRequest}
    {reply : GenerateReply} (h : s.attest S P entropy p key request = .ok reply) :
    S.verify (S.verifyingKey key) reply.attestation.proof reply.attestation.publicSignals =
      .ok true :=
  Scheme.verify_of_generate (attest_eq_ok_iff.mp h).2.1

/-- **Only a proof is answered with success**, and it was made with the key that there is. -/
theorem visit_proves {body : Body} (hproves : v.Proves p)
    (hanswer : ((s.visit S P v).run keys).1 = ⟨200, body⟩) :
    ∃ key request reply,
      keys.now S s.store s.settings.merkleDepth v.files (.proving p) = .ok key ∧
      s.attest S P v.entropy p key request = .ok reply ∧
      body = .json (Wire.generateReply v.stamp reply) := by
  obtain ⟨hmethod, name, hroute, hname⟩ := hproves
  rw [visit, exchange_run, errand_generate S P s v.entropy hmethod hroute hname] at hanswer
  cases hread : v.request.readJson Wire.generateRequest with
  | error e =>
    rw [hread] at hanswer
    exact absurd (congrArg Response.status hanswer) e.status_ne
  | ok request =>
    rw [hread] at hanswer
    dsimp only at hanswer
    rw [Errand.run_keyed] at hanswer
    cases hkey : keys.now S s.store s.settings.merkleDepth v.files (.proving p) with
    | error f =>
      rw [hkey] at hanswer
      exact absurd (congrArg Response.status hanswer) (Refusal.ofFailure f).status_ne
    | ok key =>
      rw [hkey] at hanswer
      have hsent : (if s.settings.timeoutMs < v.stamp.provingMs then Refusal.timeout.respond
          else proofResponse v.stamp (s.attest S P v.entropy p key request)) = ⟨200, body⟩ := hanswer
      split at hsent
      · exact absurd (congrArg Response.status hsent) Refusal.timeout.status_ne
      · cases hattest : s.attest S P v.entropy p key request with
        | error e =>
          rw [hattest] at hsent
          exact absurd (congrArg Response.status hsent) e.status_ne
        | ok reply =>
          rw [hattest] at hsent
          exact ⟨key, request, reply, rfl, hattest, (congrArg Response.body hsent).symm⟩

end Server

/-! ### Keys from one set-up -/

namespace Keyring
variable {PK VK : Type} {S : Scheme PK VK} {P : Poseidon.Params} {store : Artifact.Store}
  {entropy : Predicate → Entropy} {depth : Nat} {fs : Files} {p : Predicate}

/-- **With the key that a proof is made with there is the one that it is verified with.** -/
theorem loadVerifying_of_loadProving {key : PK} (hmade : store.Made S P entropy depth fs p)
    (hcodec : ∀ key, S.setupPredicate P p depth (entropy p) = .ok key → RestoresKeys S key)
    (hkey : loadProving S store depth fs p = .ok key) :
    ∃ bytes, loadVerifying S store depth fs p = .ok ⟨bytes, S.verifyingKey key⟩ := by
  obtain ⟨pk, hsetup, hproving, hverifying⟩ := hmade
  obtain ⟨hcheck, hread⟩ := loadProving_eq_ok_iff.mp hkey
  obtain rfl : pk = key := by
    rw [Artifact.Store.provingKey, Artifact.Store.readKey,
      Artifact.Store.readFile_of_read hproving] at hread
    exact Except.ok.inj ((hcodec pk hsetup).proving.symm.trans hread)
  have hbytes : store.verifyingBytes fs p = .ok (S.writeVerifyingKey (S.verifyingKey pk)) :=
    Artifact.Store.readFile_of_read hverifying
  exact ⟨_, loadVerifying_eq_ok_iff.mpr ⟨hcheck, hbytes, (hcodec pk hsetup).verifying⟩⟩

end Keyring

/-- **What a service issues, it verifies.** Let a set-up have filled the store of a service at the
service's depth, and let nobody touch the store from then on. Whenever a request for a proof is
answered with status 200, whatever visits came before, a request for a verification whose body gives
the proof's text and the public signals of that answer is answered that the proof holds. The service
that is asked may be the same one later on or another on the same store, and it may have had any
visits, so that its keys were loaded in any order or are not loaded yet. -/
theorem issued_verifies {PK VK : Type} {S : Scheme PK VK} {P : Poseidon.Params} {s : Server}
    {entropy : Predicate → Entropy} {force : Bool} {before fs : Files} {m : Artifact.Manifest}
    (hsetup : (s.store.setup S P entropy s.settings.merkleDepth force).run.run before =
      (.ok m, fs))
    (hcodec : ∀ p key, S.setupPredicate P p s.settings.merkleDepth (entropy p) = .ok key →
      RestoresKeys S key)
    {p : Predicate} {past : List Visit} {v : Visit} (hproves : v.Proves p)
    (hstore : ∀ u ∈ past ++ [v], s.store.Same fs u.files) {reply signals : Json} {proof : String}
    (hanswer : ((s.visit S P v).run (s.keysAfter S P .empty past)).1 = ⟨200, .json reply⟩)
    (hproof : reply.member? "proof" = some (.text proof))
    (hsignals : reply.member? "publicSignals" = some signals) :
    ∀ (s' : Server) (past' : List Visit) (w : Visit), s'.store = s.store →
      s'.settings.merkleDepth = s.settings.merkleDepth →
      (∀ u ∈ past' ++ [w], s.store.Same fs u.files) → w.Verifies p →
      w.request.contentType.any MediaType.isJson → w.request.body.length ≤ maxBody →
      Gives (Json.Reading.ofBytes w.request.body).1 proof (Json.Reading.ofJson signals) →
        ((s'.visit S P w).run (s'.keysAfter S P .empty past')).1 =
          ⟨200, .json (Wire.verifyReply true)⟩ := by
  intro s' past' w hsame hdepth hstore' hverifies htype hlength hgives
  obtain ⟨key, request, made, hkey, hattest, hbody⟩ := Server.visit_proves hproves hanswer
  obtain rfl : reply = Wire.generateReply v.stamp made := Body.json.inj hbody
  -- what the answer holds
  obtain rfl : String.ofList (Text.Base64.encode made.attestation.proof) = proof :=
    Json.text.inj (Option.some.inj hproof)
  obtain rfl : Wire.scalars made.attestation.publicSignals = signals := Option.some.inj hsignals
  -- the keys of both services are those on the disk
  have hpast : ∀ u ∈ past, s.store.Same fs u.files :=
    fun u hu => hstore u (List.mem_append_left _ hu)
  have hv : s.store.Same fs v.files := hstore v (List.mem_append_right _ List.mem_cons_self)
  have hpast' : ∀ u ∈ past', s'.store.Same fs u.files :=
    fun u hu => hsame ▸ hstore' u (List.mem_append_left _ hu)
  have hw : s'.store.Same fs w.files :=
    hsame ▸ hstore' w (List.mem_append_right _ List.mem_cons_self)
  rw [Server.now_unchanged hpast hv] at hkey
  obtain ⟨-, -, hmade⟩ := Artifact.Store.setup_made hsetup
  obtain ⟨bytes, hload⟩ := Keyring.loadVerifying_of_loadProving (hmade p) (hcodec p) hkey
  have hstored : (s'.keysAfter S P .empty past').now S s'.store s'.settings.merkleDepth w.files
      (.verifying p) = .ok ⟨bytes, S.verifyingKey key⟩ := by
    rw [Server.now_unchanged hpast' hw, hsame, hdepth]
    exact hload
  -- the proof that was issued is put to that key
  have hread := readJson_of_gives htype hlength hgives
  have hputs := Server.puts_of_readJson hread
  have hverdict : Server.verdict S ⟨bytes, S.verifyingKey key⟩ w.request = .ok true :=
    (Server.verdict_eq_ok_iff S).mpr ⟨_, _, hputs, Server.attest_verified hattest⟩
  obtain ⟨hmethod, name, hroute, hname⟩ := hverifies
  rw [Server.visit, s'.exchange_verify S P w.files w.entropy w.stamp _ hmethod hroute hname hstored,
    hverdict]
  rfl

/-- Twenty-five is at least eighteen: it is proved, and the proof holds, with keys that were made on
an empty disk. -/
theorem issued_verifies_years :
    let s : Server := ⟨.fromLookup fun _ => none, ⟨⟨[.stay]⟩, "."⟩, 1⟩
    let commitment := Poseidon.standard.hash [25, 1]
    let generate : GenerateRequest :=
      ⟨.ofList [("value", .scalar 25), ("document_hash", .scalar 1)],
        .ofList [("commitment", .scalar commitment), ("threshold", .scalar 18)]⟩
    let proof := String.ofList (Text.Base64.encode (sealed [7]))
    let verify : VerifyRequest := ⟨proof, [commitment, 18]⟩
    ∃ fs m, (s.store.setup sealing Poseidon.standard (fun _ _ => 0) Settings.defaultDepth
        true).run.run .empty = (.ok m, fs) ∧
      let visit (r : Request) : Visit := ⟨fs, fun _ => 0, ⟨"", 0, 0, ""⟩, r⟩
      ∃ reply : Json,
        ((s.visit sealing Poseidon.standard (visit (generate.toRequest .threshold))).run .empty).1 =
          ⟨200, .json reply⟩ ∧
        reply.member? "proof" = some (.text proof) ∧
        reply.member? "publicSignals" = some (Wire.scalars [commitment, 18]) ∧
        ((s.visit sealing Poseidon.standard (visit (verify.toRequest .threshold))).run .empty).1 =
          ⟨200, .json (Wire.verifyReply true)⟩ := by
  generalize Poseidon.standard = P
  intro s commitment generate proof verify
  obtain ⟨fs, hsetup⟩ := sealing_setup P "."
  refine ⟨fs, _, hsetup, ?_⟩
  intro visit
  have hcodec (p : Predicate) (key : Bytes) : RestoresKeys sealing key := ⟨rfl, rfl⟩
  -- the keys that the service finds on the disk
  obtain ⟨-, hmanifest, hmade⟩ := Artifact.Store.setup_made hsetup
  have hcheck : s.store.check fs .threshold s.settings.merkleDepth = .ok () :=
    Artifact.Store.check_of_written (by decide) (Artifact.Store.readFile_of_read hmanifest)
      .threshold
  have hkey : Keyring.loadProving sealing s.store s.settings.merkleDepth fs .threshold =
      .ok [7] := by
    obtain ⟨key, hkey, hproving, -⟩ := hmade .threshold
    obtain rfl := Except.ok.inj ((sealing_setupPredicate P .threshold).symm.trans hkey)
    refine Keyring.loadProving_eq_ok_iff.mpr ⟨hcheck, ?_⟩
    exact bind_eq_ok_iff.mpr ⟨_, Artifact.Store.readFile_of_read hproving, rfl⟩
  -- the proof
  have hinputs : Witness.assemble .threshold Settings.defaultDepth generate.secret
      generate.revealed = .ok (.threshold ⟨25, 1, commitment, 18⟩) := by
    clear_value commitment
    cbv
  have hholds : (Witness.threshold ⟨25, 1, commitment, 18⟩).Holds P := by
    have hreached : (25 : Scalar).val < 2 ^ 64 ∧ (18 : Scalar).val < 2 ^ 64 ∧
        (18 : Scalar).val ≤ (25 : Scalar).val := by decide
    exact ⟨rfl, hreached⟩
  have hdecoded : (Groth16.Proof.ofBytes (sealed [7])).toOption =
      some ⟨.infinity, .infinity, .infinity⟩ := by decide +kernel
  let calldata := Calldata.ofProof ⟨.infinity, .infinity, .infinity⟩ [commitment, 18]
  have hcalldata : Calldata.ofBytes (sealed [7]) [commitment, 18] = .ok calldata := by
    rw [Calldata.ofBytes, eq_ok_of_toOption hdecoded]
    rfl
  have hattest : s.attest sealing P (fun _ => 0) .threshold [7] generate =
      .ok ⟨.threshold, ⟨sealed [7], [commitment, 18]⟩, calldata⟩ :=
    Server.attest_eq_ok_iff.mpr
      ⟨Nat.one_ne_zero, sealing_generate hinputs hholds _, hcalldata, rfl⟩
  -- the answer
  have hproves : (visit (generate.toRequest .threshold)).Proves .threshold :=
    ⟨rfl, _, generate.toRequest_route .threshold, rfl⟩
  have hread : (generate.toRequest .threshold).readJson Wire.generateRequest = .ok generate := by
    have hsecret : generate.secret.entries =
        [("document_hash", .scalar 1), ("value", .scalar 25)] := by cbv
    have hrevealed : generate.revealed.entries =
        [("commitment", .scalar commitment), ("threshold", .scalar 18)] := by
      clear_value commitment
      cbv
    exact generate.readJson_toRequest .threshold
      (generate.length_toRequest_threshold .threshold hsecret hrevealed)
  have hanswer : ((s.visit sealing P (visit (generate.toRequest .threshold))).run .empty).1 =
      ⟨200, .json (Wire.generateReply ⟨"", 0, 0, ""⟩
        ⟨.threshold, ⟨sealed [7], [commitment, 18]⟩, calldata⟩)⟩ := by
    have hnow : (Keyring.empty : Keyring Bytes Bytes).now sealing s.store s.settings.merkleDepth fs
        (.proving .threshold) = .ok [7] := hkey
    obtain ⟨hmethod, name, hroute, hname⟩ := hproves
    refine (s.exchange_generate sealing P fs _ _ _ hmethod hroute hname hnow).trans ?_
    rw [Server.generated, hread]
    show s.send _ (.proved (s.attest sealing P (fun _ => 0) .threshold [7] generate)) = _
    rw [hattest]
    rfl
  refine ⟨_, hanswer, rfl, rfl, ?_⟩
  have hlength : (verify.toRequest .threshold).body.length ≤ maxBody := by
    have hproof : proof.toList.length = 172 := by
      rw [String.toList_ofList]
      decide +kernel
    have hbody := verify.length_toRequest_le .threshold
    have hsignals : verify.publicSignals.length = 2 := rfl
    rw [hproof, hsignals] at hbody
    exact hbody.trans (by decide)
  have hsame (r : Request) : ∀ u ∈ ([] : List Visit) ++ [visit r], s.store.Same fs u.files :=
    List.forall_mem_singleton.mpr fun _ => rfl
  exact issued_verifies (s := s) hsetup (fun p key _ => hcodec p key) hproves (hsame _) hanswer rfl
    rfl s [] (visit (verify.toRequest .threshold)) rfl rfl (hsame _)
    ⟨rfl, _, verify.toRequest_route .threshold, rfl⟩ rfl hlength
    (verify.gives_toRequest .threshold)

end Attest.Service
