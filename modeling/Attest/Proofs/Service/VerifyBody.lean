import Attest.Proofs.Service.Errand
import Attest.Proofs.Service.Route
import Attest.Proofs.Wire.Signals

/-! Bodies that ask for a verification.

A body gives a text for the proof and a value for the public signals, by name or in order
(`Gives`); it is read exactly when that value is a list of canonical scalars
(`verifyRequest_read_eq_ok_iff`). With any other value there the request is refused before a key is
looked for (`respond_of_rejected`). So no integer but a scalar's own is verified as that scalar, the
order and twenty not as twenty (`signals_unaliased`). -/
namespace Attest.Service
open Json Json.Reading Attest.Wire

/-- The body gives this text for the proof and this value for the public signals: each once under
its name, or both in a list. Members under other names only have to be JSON. -/
inductive Gives : Reading → String → Reading → Prop
  | object {members proof signals} (hproof : named "proof" members = [.text proof])
      (hsignals : named "publicSignals" members = [signals])
      (hothers : ∀ m ∈ others "publicSignals" (others "proof" members),
        (∃ key, m.1 = .text key) ∧ m.2.isWhole) : Gives (.object members) proof signals
  | list (proof signals) : Gives (.array [.text proof, signals]) proof signals

/-- The body has this value where public signals are looked for, whatever else it has. -/
inductive Offers : Reading → Reading → Prop
  | object {members signals} : (.text "publicSignals", signals) ∈ members →
      Offers (.object members) signals
  | list {proof signals rest} : Offers (.array (proof :: signals :: rest)) signals

variable {body signals : Reading} {proof : String} {v : VerifyRequest}

theorem Gives.offers (h : Gives body proof signals) : Offers body signals := by
  cases h with
  | object _ hsignals _ => exact .object (mem_named_iff.mp (hsignals ▸ List.mem_cons_self))
  | list => exact .list

/-- What is looked for in a body that gives it is what it gives. -/
theorem Gives.eq_of_offers {signals' : Reading} (h : Gives body proof signals)
    (h' : Offers body signals') : signals' = signals := by
  cases h with
  | object _ hsignals _ =>
    cases h' with
    | object hmem =>
      rw [← mem_named_iff, hsignals] at hmem
      exact List.mem_singleton.mp hmem
  | list =>
    cases h' with
    | list => rfl

/-! ### Reading the body -/

section
open Codec (Fields)

/-- The fields of a body, in order. -/
def verifyFields : Fields [String, List Scalar] :=
  .cons "proof" .text none <| .cons "publicSignals" (.list canonicalScalar) none .nil

theorem verifyFields_gathered_iff {members : List (Reading × Reading)} {xs : List Scalar} :
    verifyFields.Gathered members (proof, xs, ()) ↔
      ∃ signals, Gives (.object members) proof signals ∧
        canonicalScalar.list.read signals = .ok xs := by
  simp only [verifyFields, Fields.Gathered, Fields.given_none_iff]
  rw [named_others (by decide)]
  constructor
  · rintro ⟨⟨r, hproof, hr⟩, ⟨signals, hsignals, hread⟩, hothers⟩
    obtain rfl := Codec.text_read_eq_ok_iff.mp hr
    exact ⟨signals, .object hproof hsignals hothers, hread⟩
  · rintro ⟨signals, h, hread⟩
    cases h with
    | object hproof hsignals hothers =>
      exact ⟨⟨_, hproof, rfl⟩, ⟨signals, hsignals, hread⟩, hothers⟩

theorem verifyFields_ordered_iff {items : List Reading} {xs : List Scalar} :
    verifyFields.Ordered items (proof, xs, ()) ↔
      ∃ signals, Gives (.array items) proof signals ∧
        canonicalScalar.list.read signals = .ok xs := by
  constructor
  · rintro ⟨r, _, rfl, hr, signals, _, rfl, hread, rfl⟩
    obtain rfl := Codec.text_read_eq_ok_iff.mp hr
    exact ⟨signals, .list proof signals, hread⟩
  · rintro ⟨signals, h, hread⟩
    cases h with
    | list => exact ⟨_, _, rfl, rfl, signals, _, rfl, hread, rfl⟩

end

/-- **A body is read exactly when it gives a text and a list of canonical scalars**, and then as
these. -/
theorem verifyRequest_read_eq_ok_iff : Wire.verifyRequest.read body = .ok v ↔
    ∃ signals, Gives body v.proof signals ∧
      canonicalScalar.list.read signals = .ok v.publicSignals := by
  obtain ⟨proof, xs⟩ := v
  refine Codec.record_read_eq_ok_iff.trans ?_
  constructor
  · rintro ⟨⟨_, _, ⟨⟩⟩, h, ⟨members, rfl, hgathered⟩ | ⟨items, rfl, hordered⟩⟩
    · cases h
      exact verifyFields_gathered_iff.mp hgathered
    · cases h
      exact verifyFields_ordered_iff.mp hordered
  · rintro ⟨signals, h, hread⟩
    refine ⟨(proof, xs, ()), rfl, ?_⟩
    cases body with
    | object members => exact .inl ⟨_, rfl, verifyFields_gathered_iff.mpr ⟨signals, h, hread⟩⟩
    | array items => exact .inr ⟨_, rfl, verifyFields_ordered_iff.mpr ⟨signals, h, hread⟩⟩
    | _ => exact nomatch h

/-- What is written to ask for a verification gives what is asked about. -/
theorem gives_write (v : VerifyRequest) : Gives (ofJson (Wire.verifyRequest.write v)) v.proof
    (ofJson (scalar.list.write v.publicSignals)) :=
  .object rfl rfl fun _ hm => nomatch hm

theorem verifyRequest_restores (v : VerifyRequest) : Wire.verifyRequest.Restores v :=
  .record _ (by decide) rfl ⟨.text _, canonicalScalars_restores _, trivial⟩

/-! ### Requests for a verification -/

section
variable {r : Request}

/-- What a body offers is as much in range as the body. -/
theorem Offers.inRange (h : Offers body signals) (hbody : body.InRange) : signals.InRange := by
  cases h with
  | object hmem => exact hbody.of_member hmem
  | list => exact hbody.of_mem (by simp)

/-- **A request for a verification is read exactly when its body gives a list of items that mean
their integers outright**, and the scalars that it asks about are these integers. -/
theorem readJson_verifyRequest_iff : r.readJson Wire.verifyRequest = .ok v ↔
    r.contentType.any MediaType.isJson ∧ r.body.length ≤ maxBody ∧
      ∃ items, Gives (ofBytes r.body).1 v.proof (.array items) ∧ (∀ item ∈ items, Signal item) ∧
        List.Forall₂ (fun item x => Denotes item x.val) items v.publicSignals := by
  rw [r.readJson_eq_ok_iff, Codec.ofPrefix, verifyRequest_read_eq_ok_iff]
  refine and_congr_right' (and_congr_right' ?_)
  have hrange := ofBytes_inRange r.body
  constructor
  · rintro ⟨signals, hgives, hread⟩
    obtain ⟨items, rfl, -⟩ := Codec.list_read_eq_ok_iff.mp hread
    have hitems := hgives.offers.inRange hrange
    exact ⟨items, hgives, (canonicalScalars_read_iff hitems).mp hread⟩
  · rintro ⟨items, hgives, hitems⟩
    have hread := (canonicalScalars_read_iff (hgives.offers.inRange hrange)).mpr hitems
    exact ⟨_, hgives, hread⟩

/-- A body that gives a proof's text and the value that scalars are written as asks about these. -/
theorem readJson_of_gives {xs : List Scalar} (htype : r.contentType.any MediaType.isJson)
    (hlength : r.body.length ≤ maxBody)
    (hgives : Gives (ofBytes r.body).1 proof (ofJson (scalar.list.write xs))) :
    r.readJson Wire.verifyRequest = .ok ⟨proof, xs⟩ := by
  refine r.readJson_eq_ok_iff.mpr ⟨htype, hlength, ?_⟩
  exact verifyRequest_read_eq_ok_iff.mpr ⟨_, hgives, canonicalScalars_read_write xs⟩

/-- **A list that is not taken is answered before anything else is looked at**: the answer is the
same whatever verifies, whatever is on the disk and whatever keys were loaded, and no key is. -/
theorem respond_of_rejected {name : NameSegment} (hmethod : r.method = "POST")
    (hroute : Route.ofTarget? r.target = some (.verify name))
    (hoffers : Offers (ofBytes r.body).1 signals)
    (hrejected : ∀ xs, canonicalScalar.list.read signals ≠ .ok xs) :
    ∃ response : Response, response.status = 400 ∧
      ∀ {PK VK : Type} (S : Scheme PK VK) (P : Poseidon.Params) (s : Server) (fs : Files)
        (entropy : Entropy) (keys : Keyring PK VK),
          (s.respond S P fs entropy r).run keys = (.ready response, keys) := by
  cases name with
  | none =>
    refine ⟨.badName, rfl, fun S P s fs entropy keys => ?_⟩
    rw [s.respond_eq_errand, s.errand_of_method S P entropy hroute hmethod]
    rfl
  | some name =>
    cases hread : r.readJson Wire.verifyRequest with
    | error e =>
      refine ⟨e.respond, r.status_of_readJson hread, fun S P s fs entropy keys => ?_⟩
      rw [s.respond_eq_errand, s.errand_of_method S P entropy hroute hmethod, Server.errandOn,
        hread]
      rfl
    | ok v =>
      have hbody := (r.readJson_eq_ok_iff.mp hread).2.2
      obtain ⟨given, hgives, hgiven⟩ := verifyRequest_read_eq_ok_iff.mp hbody
      obtain rfl := hgives.eq_of_offers hoffers
      exact absurd hgiven (hrejected _)

/-- **Public signals cannot alias.** A list of items is taken exactly when each is a whole number of
64 bits without a sign or a text of a canonical scalar, and then as the scalars that are exactly the
integers that the items mean; so two lists are the same scalars exactly when they mean the same
integers item by item, reduction would change nothing, and the text that scalars are written as is
taken as these scalars. A request for a verification asks about the scalars of such a list, and
with any other list it is refused with status 400 whatever would verify it. -/
theorem signals_unaliased :
    (∀ items, (Reading.array items).InRange →
      ((∃ xs, canonicalScalar.list.read (.array items) = .ok xs) ↔ ∀ item ∈ items, Signal item) ∧
      ∀ xs, canonicalScalar.list.read (.array items) = .ok xs →
        List.Forall₂ (fun item x => Denotes item x.val) items xs ∧
        scalar.list.read (.array items) = .ok xs ∧
        ∀ items' ys, (Reading.array items').InRange →
          canonicalScalar.list.read (.array items') = .ok ys →
            (xs = ys ↔
              List.Forall₂ (fun item item' => ∃ n, Denotes item n ∧ Denotes item' n)
                items items')) ∧
    (∀ xs, canonicalScalar.list.ofText (scalar.list.write xs).render = .ok xs) ∧
    ∀ r : Request,
      (∀ v, r.readJson Wire.verifyRequest = .ok v ↔
        r.contentType.any MediaType.isJson ∧ r.body.length ≤ maxBody ∧
          ∃ items, Gives (ofBytes r.body).1 v.proof (.array items) ∧
            (∀ item ∈ items, Signal item) ∧
            List.Forall₂ (fun item x => Denotes item x.val) items v.publicSignals) ∧
      ∀ name signals, r.method = "POST" → Route.ofTarget? r.target = some (.verify name) →
        Offers (ofBytes r.body).1 signals →
        (∀ xs, canonicalScalar.list.read signals ≠ .ok xs) →
          ∃ response : Response, response.status = 400 ∧
            ∀ {PK VK : Type} (S : Scheme PK VK) (P : Poseidon.Params) (s : Server) (fs : Files)
              (entropy : Entropy) (keys : Keyring PK VK),
                (s.respond S P fs entropy r).run keys = (.ready response, keys) := by
  refine ⟨fun items hitems => ⟨exists_canonicalScalars_read_iff hitems, fun xs hxs => ?_⟩,
    canonicalScalars_ofText_render, fun r => ⟨fun v => readJson_verifyRequest_iff,
      fun name signals => respond_of_rejected⟩⟩
  have hdenotes := ((canonicalScalars_read_iff hitems).mp hxs).2
  refine ⟨hdenotes, scalars_read_of_canonical hxs, fun items' ys hitems' hys => ?_⟩
  exact denotes_eq_iff hdenotes ((canonicalScalars_read_iff hitems').mp hys).2

/-- Twenty has several spellings; the order and twenty more, which reduces to it, is none. -/
theorem signals_unaliased_wrapped :
    let items := [Reading.text " 0X14 ", .natural 7]
    let items' := [Reading.natural 20, .text "007"]
    let wrapped := Json.array
      [.text "0x30644e72e131a029b85045b68181585d2833e84879b9709143e1f593f0000015"]
    let r : Request := ⟨"POST", ⟨s!"/api/v1/proofs/{Predicate.threshold.name}/verify"⟩,
      some "application/json",
      Bytes.ofText (Json.object [("proof", .text ""), ("publicSignals", wrapped)]).render.toList⟩
    ((Reading.array items).InRange ∧ canonicalScalar.list.read (.array items) = .ok [20, 7] ∧
      (Reading.array items').InRange ∧ canonicalScalar.list.read (.array items') = .ok [20, 7] ∧
      List.Forall₂ (fun item item' => ∃ n, Denotes item n ∧ Denotes item' n) items items') ∧
    r.method = "POST" ∧ Route.ofTarget? r.target = some (.verify (some "claim_threshold")) ∧
      Offers (ofBytes r.body).1 (ofJson wrapped) ∧ scalar.list.read (ofJson wrapped) = .ok [20] ∧
      (∀ xs, canonicalScalar.list.read (ofJson wrapped) ≠ .ok xs) ∧
      ∃ response : Response, response.status = 400 ∧
        ∀ {PK VK : Type} (S : Scheme PK VK) (P : Poseidon.Params) (s : Server) (fs : Files)
          (entropy : Entropy) (keys : Keyring PK VK),
            (s.respond S P fs entropy r).run keys = (.ready response, keys) := by
  intro items items' wrapped r
  obtain ⟨hlists, -, hrequests⟩ := signals_unaliased
  have hitems : (Reading.array items).InRange := by
    refine .array fun item hitem => ?_
    rcases List.mem_pair.mp hitem with rfl | rfl
    · exact .text _
    · exact .natural (by decide)
  have hitems' : (Reading.array items').InRange := by
    refine .array fun item hitem => ?_
    rcases List.mem_pair.mp hitem with rfl | rfl
    · exact .natural (by decide)
    · exact .text _
  have hread : canonicalScalar.list.read (.array items) = .ok [20, 7] := rfl
  have hread' : canonicalScalar.list.read (.array items') = .ok [20, 7] := rfl
  have hsame := (((hlists items hitems).2 _ hread).2.2 items' _ hitems' hread').mp rfl
  have hroute : Route.ofTarget? r.target = some (.verify (some "claim_threshold")) := by
    obtain ⟨hslash, hname⟩ := Route.segmentName_name .threshold
    rw [Route.ofTarget?_verify hslash, hname]
    rfl
  have hoffers : Offers (ofBytes r.body).1 (ofJson wrapped) := by
    have hwrapped : (ofJson wrapped).InRange :=
      ofJson_array_inRange (List.forall_mem_singleton.mpr (.text _))
    rw [ofBytes_render]
    · exact .object (by simp [ofJson, ofMembers])
    · refine ofJson_object_inRange fun m hm => ?_
      rcases List.mem_pair.mp hm with rfl | rfl
      · exact .text _
      · exact hwrapped
  have hrefused : ∀ xs, canonicalScalar.list.read (ofJson wrapped) ≠ .ok xs := by
    intro xs hxs
    have hnone : (canonicalScalar.list.read (ofJson wrapped)).toOption = none := rfl
    rw [hxs] at hnone
    cases hnone
  exact ⟨⟨hitems, hread, hitems', hread', hsame⟩, rfl, hroute, hoffers, rfl, hrefused,
    (hrequests r).2 _ _ rfl hroute hoffers hrefused⟩

end

end Attest.Service
