import Attest.Groth16.Scheme
import Attest.Proofs.Merkle.Completeness
import Attest.Proofs.Merkle.Root
import Attest.Proofs.Service.Plain
import Attest.Proofs.Wire.Denoted
import Attest.Proofs.Wire.Material

/-! What the service says about allow lists.

A body gives integers in any notation, a target among them, and perhaps a depth (`AsksRoot`,
`AsksProof`). Root and proof are answered from the tree over the leaves of these integers' residues,
each answer from a tree of its own; as the tree depends on the set of the leaves alone, both say the
same root, and they say it whatever the order, the repetitions and the notation of the values
(`allowLists_agree`). -/
namespace Attest.Service
open Json Json.Reading Attest.Wire

/-! ### Bodies -/

/-- The depth that is given under its name: none, `null`, or a number of 64 bits. -/
inductive GivesDepth : List Reading → Option Nat → Prop
  | absent : GivesDepth [] none
  | null : GivesDepth [.null] none
  | natural {n : Nat} : n < UInt64.size → GivesDepth [.natural n] (some n)

/-- The body asks for the root over these integers: by name, members under other names having only
to be JSON, or in a list. -/
inductive AsksRoot : Reading → List Int → Option Nat → Prop
  | object {members items values depth} (hitems : named "values" members = [.array items])
      (hvalues : List.Forall₂ Denotes items values)
      (hdepth : GivesDepth (named "depth" members) depth)
      (hothers : ∀ m ∈ others "depth" (others "values" members),
        (∃ key, m.1 = .text key) ∧ m.2.isWhole) : AsksRoot (.object members) values depth
  | list {items values r depth} (hvalues : List.Forall₂ Denotes items values)
      (hdepth : GivesDepth [r] depth) : AsksRoot (.array [.array items, r]) values depth

/-- The body asks for the proof of an integer among these integers, by name or in a list. -/
inductive AsksProof : Reading → List Int → Int → Option Nat → Prop
  | object {members items values item target depth}
      (hitems : named "values" members = [.array items])
      (hvalues : List.Forall₂ Denotes items values)
      (hitem : named "target" members = [item]) (htarget : Denotes item target)
      (hdepth : GivesDepth (named "depth" members) depth)
      (hothers : ∀ m ∈ others "depth" (others "target" (others "values" members)),
        (∃ key, m.1 = .text key) ∧ m.2.isWhole) : AsksProof (.object members) values target depth
  | list {items values item target r depth} (hvalues : List.Forall₂ Denotes items values)
      (htarget : Denotes item target) (hdepth : GivesDepth [r] depth) :
      AsksProof (.array [.array items, item, r]) values target depth

section
open Codec (Fields)
variable {body : Reading} {values : List Int} {target : Int} {depth : Option Nat}

theorem depth_read_eq_ok_iff {r : Reading} :
    Wire.depth.read r = .ok depth ↔ GivesDepth [r] depth := by
  rw [Wire.depth, Codec.optional_read_eq_ok_iff, size]
  simp only [Codec.natural_read_eq_ok_iff]
  constructor
  · rintro (⟨rfl, rfl⟩ | ⟨-, n, ⟨rfl, hn⟩, rfl⟩)
    · exact .null
    · exact .natural hn
  · intro h
    cases h with
    | null => exact .inl ⟨rfl, rfl⟩
    | natural hn => exact .inr ⟨(nomatch ·), _, ⟨rfl, hn⟩, rfl⟩

theorem given_depth_iff {given : List Reading} :
    Fields.Given Wire.depth (some none) given depth ↔ GivesDepth given depth := by
  match given with
  | [] =>
    constructor
    · rintro ⟨⟩
      exact .absent
    · rintro ⟨⟩
      rfl
  | [r] => exact depth_read_eq_ok_iff
  | _ :: _ :: _ => exact iff_of_false (fun h => h) fun h => nomatch h

/-- **A body is read exactly when it asks for a root**, and then for that of the residues. -/
theorem rootRequest_read_eq_ok_iff {q : RootRequest} : Wire.rootRequest.read body = .ok q ↔
    ∃ values, AsksRoot body values q.depth ∧ values.map Scalar.ofInt = q.values := by
  obtain ⟨xs, depth⟩ := q
  refine Codec.record_read_eq_ok_iff.trans ?_
  constructor
  · rintro ⟨⟨_, _, ⟨⟩⟩, h, ⟨members, rfl, hgathered⟩ | ⟨items, rfl, hordered⟩⟩
    · cases h
      obtain ⟨hgiven, hdepth, hothers⟩ := hgathered
      obtain ⟨r, hitems, hscalars⟩ := Fields.given_none_iff.mp hgiven
      obtain ⟨items, values, rfl, hvalues, rfl⟩ := scalars_read_eq_ok_iff.mp hscalars
      rw [given_depth_iff, named_others (by decide)] at hdepth
      exact ⟨values, .object hitems hvalues hdepth hothers, rfl⟩
    · cases h
      obtain ⟨_, _, rfl, hscalars, _, _, rfl, hdepth, rfl⟩ := hordered
      obtain ⟨items, values, rfl, hvalues, rfl⟩ := scalars_read_eq_ok_iff.mp hscalars
      exact ⟨values, .list hvalues (depth_read_eq_ok_iff.mp hdepth), rfl⟩
  · rintro ⟨values, h, rfl⟩
    refine ⟨(values.map Scalar.ofInt, depth, ()), rfl, ?_⟩
    cases h with
    | object hitems hvalues hdepth hothers =>
      have hread := scalars_read_eq_ok_iff.mpr ⟨_, _, rfl, hvalues, rfl⟩
      refine .inl ⟨_, rfl, Fields.given_none_iff.mpr ⟨_, hitems, hread⟩, ?_, hothers⟩
      rw [given_depth_iff, named_others (by decide)]
      exact hdepth
    | list hvalues hdepth =>
      have hread := scalars_read_eq_ok_iff.mpr ⟨_, _, rfl, hvalues, rfl⟩
      exact .inr ⟨_, rfl, _, _, rfl, hread, _, _, rfl, depth_read_eq_ok_iff.mpr hdepth, rfl⟩

/-- **A body is read exactly when it asks for a proof**, and then for that of the residues. -/
theorem inclusionRequest_read_eq_ok_iff {q : InclusionRequest} :
    Wire.inclusionRequest.read body = .ok q ↔
      ∃ values target, AsksProof body values target q.depth ∧
        values.map Scalar.ofInt = q.values ∧ Scalar.ofInt target = q.target := by
  obtain ⟨xs, x, depth⟩ := q
  refine Codec.record_read_eq_ok_iff.trans ?_
  constructor
  · rintro ⟨⟨_, _, _, ⟨⟩⟩, h, ⟨members, rfl, hgathered⟩ | ⟨items, rfl, hordered⟩⟩
    · cases h
      obtain ⟨hgiven, hgiven', hdepth, hothers⟩ := hgathered
      obtain ⟨r, hitems, hscalars⟩ := Fields.given_none_iff.mp hgiven
      obtain ⟨items, values, rfl, hvalues, rfl⟩ := scalars_read_eq_ok_iff.mp hscalars
      obtain ⟨item, hitem, hscalar⟩ := Fields.given_none_iff.mp hgiven'
      obtain ⟨target, htarget, rfl⟩ := scalar_read_eq_ok_iff.mp hscalar
      rw [given_depth_iff, named_others (by decide), named_others (by decide)] at hdepth
      rw [named_others (by decide)] at hitem
      exact ⟨values, target, .object hitems hvalues hitem htarget hdepth hothers, rfl, rfl⟩
    · cases h
      obtain ⟨_, _, rfl, hscalars, _, _, rfl, hscalar, _, _, rfl, hdepth, rfl⟩ := hordered
      obtain ⟨items, values, rfl, hvalues, rfl⟩ := scalars_read_eq_ok_iff.mp hscalars
      obtain ⟨target, htarget, rfl⟩ := scalar_read_eq_ok_iff.mp hscalar
      exact ⟨values, target, .list hvalues htarget (depth_read_eq_ok_iff.mp hdepth), rfl, rfl⟩
  · rintro ⟨values, target, h, rfl, rfl⟩
    refine ⟨(values.map Scalar.ofInt, Scalar.ofInt target, depth, ()), rfl, ?_⟩
    cases h with
    | object hitems hvalues hitem htarget hdepth hothers =>
      have hread := scalars_read_eq_ok_iff.mpr ⟨_, _, rfl, hvalues, rfl⟩
      have hread' := scalar_read_eq_ok_iff.mpr ⟨_, htarget, rfl⟩
      refine .inl ⟨_, rfl, Fields.given_none_iff.mpr ⟨_, hitems, hread⟩,
        Fields.given_none_iff.mpr ⟨_, ?_, hread'⟩, ?_, hothers⟩
      · rw [named_others (by decide)]
        exact hitem
      · rw [given_depth_iff, named_others (by decide), named_others (by decide)]
        exact hdepth
    | list hvalues htarget hdepth =>
      have hread := scalars_read_eq_ok_iff.mpr ⟨_, _, rfl, hvalues, rfl⟩
      have hread' := scalar_read_eq_ok_iff.mpr ⟨_, htarget, rfl⟩
      exact .inr ⟨_, rfl, _, _, rfl, hread, _, _, rfl, hread',
        _, _, rfl, depth_read_eq_ok_iff.mpr hdepth, rfl⟩

end

/-! ### Outcomes -/

/-- The lists have the same integers, up to multiples of the order. -/
def SameResidues (ms ns : List Int) : Prop :=
  (∀ m ∈ ms, ∃ n ∈ ns, m ≡ n [ZMOD Bn254.order]) ∧ ∀ n ∈ ns, ∃ m ∈ ms, m ≡ n [ZMOD Bn254.order]

section
variable (P : Poseidon.Params)

/-- The leaf of an integer's residue. -/
def leafOf (n : Int) : Scalar := attributeLeaf P (Scalar.ofInt n)

theorem leafOf_congr {m n : Int} (h : m ≡ n [ZMOD Bn254.order]) : leafOf P m = leafOf P n :=
  congrArg (attributeLeaf P) (Scalar.ofInt_eq_iff.mpr h)

theorem mem_leaves_iff {ms ns : List Int} (h : SameResidues ms ns) (x : Scalar) :
    x ∈ ms.map (leafOf P) ↔ x ∈ ns.map (leafOf P) := by
  simp only [List.mem_map]
  constructor
  · rintro ⟨m, hm, rfl⟩
    obtain ⟨n, hn, hmn⟩ := h.1 m hm
    exact ⟨n, hn, (leafOf_congr P hmn).symm⟩
  · rintro ⟨n, hn, rfl⟩
    obtain ⟨m, hm, hmn⟩ := h.2 n hn
    exact ⟨m, hm, leafOf_congr P hmn⟩

/-- The tree over the leaves of some integers. -/
def listTree (depth : Nat) (values : List Int) : Except Failure Merkle.Tree :=
  Merkle.Tree.build P depth (values.map (leafOf P))

/-- What is said to a request for a root. -/
def rootOutcome (depth : Nat) (values : List Int) : Except Failure Json :=
  (listTree P depth values).map fun t => Wire.rootReply ⟨t.root, t.depth, t.leaves.length⟩

/-- What is said to a request for a proof. -/
def proofOutcome (depth : Nat) (values : List Int) (target : Int) : Except Failure Json := do
  let t ← listTree P depth values
  (t.prove (leafOf P target)).map fun proof => Wire.inclusionReply ⟨t.root, proof⟩

variable {PK VK : Type} {S : Scheme PK VK} {P} {s : Server} {r : Request} {values : List Int}
  {target : Int} {depth : Option Nat}

/-- **A request for a root is answered from the tree over the leaves.** -/
theorem answers_root (hr : r.Posts .allowListRoot (AsksRoot · values depth)) :
    s.Answers S P r (.ofOutcome (rootOutcome P (depth.getD s.settings.merkleDepth) values)) := by
  have hread : Wire.rootRequest.read (ofBytes r.body).1 =
      .ok ⟨values.map Scalar.ofInt, depth⟩ :=
    rootRequest_read_eq_ok_iff.mpr ⟨values, hr.asks, rfl⟩
  have houtcome : (allowListRoot P s.settings.merkleDepth ⟨values.map Scalar.ofInt, depth⟩).map
      Wire.rootReply = rootOutcome P (depth.getD s.settings.merkleDepth) values := by
    rw [allowListRoot, allowList, List.map_map, rootOutcome, listTree]
    show (Merkle.Tree.build _ _ (values.map (leafOf P)) >>= _).map _ = _
    cases Merkle.Tree.build P (depth.getD s.settings.merkleDepth) (values.map (leafOf P)) <;> rfl
  rw [← houtcome]
  exact Server.answers_outcome (s.allowListRoot_plain S P) hr hread

/-- **A request for a proof is answered from the tree over the leaves.** -/
theorem answers_proof (hr : r.Posts .allowListProof (AsksProof · values target depth)) :
    s.Answers S P r
      (.ofOutcome (proofOutcome P (depth.getD s.settings.merkleDepth) values target)) := by
  have hread : Wire.inclusionRequest.read (ofBytes r.body).1 =
      .ok ⟨values.map Scalar.ofInt, Scalar.ofInt target, depth⟩ :=
    inclusionRequest_read_eq_ok_iff.mpr ⟨values, target, hr.asks, rfl, rfl⟩
  have houtcome : (allowListProof P s.settings.merkleDepth
      ⟨values.map Scalar.ofInt, Scalar.ofInt target, depth⟩).map Wire.inclusionReply =
        proofOutcome P (depth.getD s.settings.merkleDepth) values target := by
    rw [allowListProof, allowList, List.map_map, proofOutcome, listTree]
    show (Merkle.Tree.build _ _ (values.map (leafOf P)) >>= _).map _ = _
    cases Merkle.Tree.build P (depth.getD s.settings.merkleDepth) (values.map (leafOf P)) with
    | error f => rfl
    | ok t =>
      show (t.prove (leafOf P target) >>= _).map _ = (t.prove (leafOf P target)).map _
      cases t.prove (leafOf P target) <;> rfl
  rw [← houtcome]
  exact Server.answers_outcome (s.allowListProof_plain S P) hr hread

/-- Values of the same residues make the same tree, or fail alike. -/
theorem listTree_congr {ms ns : List Int} (h : SameResidues ms ns) (depth : Nat) :
    listTree P depth ms = listTree P depth ns :=
  Merkle.Tree.build_congr P (mem_leaves_iff P h) depth

end

/-! ### Replies -/

/-- The fields of a proof, in order. -/
def inclusionFields : Codec.Fields [Scalar, List Scalar, List Bool] :=
  .cons "leaf" scalar none <| .cons "siblings" (.list scalar) none <|
    .cons "pathBits" (.list .bool) none .nil

/-- **A proof is read back from the answer that holds it**, beside the root. -/
theorem inclusionReply_read (root : Scalar) (proof : Merkle.InclusionProof) :
    inclusionProof.ofText (Wire.inclusionReply ⟨root, proof⟩).render = .ok proof := by
  have hfields : inclusionFields.Restores (proof.leaf, proof.siblings, proof.pathBits, ()) :=
    ⟨scalar_restores proof.leaf, .list fun x _ => scalar_restores x, .list fun b _ => .bool b,
      trivial⟩
  have hrange : (ofJson (Wire.inclusionReply ⟨root, proof⟩)).InRange := by
    refine ofJson_object_inRange (List.forall_mem_cons.mpr ⟨(scalar_restores root).inRange, ?_⟩)
    exact fun m hm => (Codec.Fields.mem_write hfields m hm).2
  have hgathered := Codec.Fields.gathered_write (by decide) hfields
  rw [Codec.ofText_render _ hrange]
  exact Codec.record_read_eq_ok_iff.mpr
    ⟨_, rfl, .inl ⟨_, rfl, hgathered.passing (by decide) rfl⟩⟩

/-! ### Allow lists -/

/-- What is answered about the root over some values and about the proof of a target, in trees of
one depth. -/
structure ListAnswers (P : Poseidon.Params) (depth : Nat) (values : List Int) (target : Int)
    (a b : Response) : Prop where
  /-- No tree is of that depth. -/
  badDepth : ¬(1 ≤ depth ∧ depth ≤ 32) → a.status = 400 ∧ b.status = 400
  /-- There are more distinct leaves than there is room for. -/
  crowded : 1 ≤ depth ∧ depth ≤ 32 → 2 ^ depth < (values.map (leafOf P)).toFinset.card →
    a.status = 422 ∧ b.status = 422
  /-- The root is told with the number of distinct leaves, and the target is proved against it if
  its leaf is among them. -/
  built : 1 ≤ depth ∧ depth ≤ 32 → (values.map (leafOf P)).toFinset.card ≤ 2 ^ depth →
    ∃ t, Merkle.Tree.build P depth (values.map (leafOf P)) = .ok t ∧
      a = ⟨200, .json (Wire.rootReply ⟨t.root, depth, (values.map (leafOf P)).toFinset.card⟩)⟩ ∧
      (leafOf P target ∉ values.map (leafOf P) → b.status = 404) ∧
      (leafOf P target ∈ values.map (leafOf P) →
        ∃ proof, b = ⟨200, .json (Wire.inclusionReply ⟨t.root, proof⟩)⟩ ∧
          inclusionProof.ofText (Wire.inclusionReply ⟨t.root, proof⟩).render = .ok proof ∧
          proof.leaf = leafOf P target ∧ proof.verify P t.root depth = true)

/-- **The two outcomes are of one tree**, or of one reason why there is none. -/
theorem listAnswers_outcome (P : Poseidon.Params) (depth : Nat) (values : List Int) (target : Int) :
    ListAnswers P depth values target (.ofOutcome (rootOutcome P depth values))
      (.ofOutcome (proofOutcome P depth values target)) := by
  have hbuild := Merkle.Tree.build_eq P depth (values.map (leafOf P))
  rw [Merkle.length_canonical] at hbuild
  refine ⟨fun hdepth => ?_, fun hdepth hroom => ?_, fun hdepth hroom => ?_⟩
  · rw [if_pos (by unfold Merkle.maxDepth; omega)] at hbuild
    rw [rootOutcome, proofOutcome, listTree, hbuild]
    exact ⟨rfl, rfl⟩
  · rw [if_neg (by unfold Merkle.maxDepth; omega), if_pos hroom] at hbuild
    rw [rootOutcome, proofOutcome, listTree, hbuild]
    exact ⟨rfl, rfl⟩
  · obtain ⟨t, ht⟩ := Merkle.Tree.exists_build P hdepth hroom
    refine ⟨t, ht, ?_, fun habsent => ?_, fun hpresent => ?_⟩
    · rw [rootOutcome, listTree, ht, ← Merkle.Tree.length_leaves P ht,
        ← (Merkle.Tree.isPadded_of_build P ht).depth_eq]
      rfl
    · rw [proofOutcome, listTree, ht]
      show (Response.ofOutcome ((t.prove (leafOf P target)).map _)).status = 404
      rw [Merkle.Tree.prove_absent ht habsent]
      rfl
    · obtain ⟨proof, hprove, hleaf, hverify⟩ := Merkle.Tree.exists_prove ht hpresent
      refine ⟨proof, ?_, inclusionReply_read t.root proof, hleaf, hverify⟩
      rw [proofOutcome, listTree, ht]
      show Response.ofOutcome ((t.prove (leafOf P target)).map _) = _
      rw [hprove]
      rfl

/-- **Root and proof of an allow list agree, with the library and with each other.** Requests that
ask for both are answered from one tree over the leaves of the values, or refused for one reason
(`ListAnswers`), and requests for values of the same residues, in whatever order, number and
notation, are answered alike. A request that asks for nothing of the kind is the caller's fault. -/
theorem allowLists_agree {PK VK : Type} (S : Scheme PK VK) (P : Poseidon.Params) (s : Server) :
    (∀ values target given (r q : Request), r.Posts .allowListRoot (AsksRoot · values given) →
      q.Posts .allowListProof (AsksProof · values target given) →
        ∃ a b, s.Answers S P r a ∧ s.Answers S P q b ∧
          ListAnswers P (given.getD s.settings.merkleDepth) values target a b ∧
          ∀ values' target' given' (r' q' : Request), SameResidues values values' →
            target ≡ target' [ZMOD Bn254.order] →
            given.getD s.settings.merkleDepth = given'.getD s.settings.merkleDepth →
              (r'.Posts .allowListRoot (AsksRoot · values' given') → s.Answers S P r' a) ∧
              (q'.Posts .allowListProof (AsksProof · values' target' given') →
                s.Answers S P q' b)) ∧
    ∀ r : Request, r.method = "POST" →
      (Route.ofTarget? r.target = some .allowListRoot ∧
          (∀ values given, ¬r.Posts .allowListRoot (AsksRoot · values given)) ∨
        Route.ofTarget? r.target = some .allowListProof ∧
          ∀ values target given, ¬r.Posts .allowListProof (AsksProof · values target given)) →
        ∃ a : Response, a.status = 400 ∧ s.Answers S P r a := by
  refine ⟨fun values target given r q hr hq => ?_, fun r hmethod hasks => ?_⟩
  · refine ⟨_, _, answers_root hr, answers_proof hq, listAnswers_outcome P _ values target,
      fun values' target' given' r' q' hsame htarget hgiven => ?_⟩
    rw [hgiven, rootOutcome, proofOutcome, listTree_congr hsame, leafOf_congr P htarget]
    exact ⟨answers_root, answers_proof⟩
  · rcases hasks with ⟨hroute, hasks⟩ | ⟨hroute, hasks⟩
    · refine Server.answers_refused (s.allowListRoot_plain S P) hmethod hroute fun x hx => ?_
      obtain ⟨htype, hlength, hread⟩ := r.readJson_eq_ok_iff.mp hx
      obtain ⟨values, hbody, -⟩ := rootRequest_read_eq_ok_iff.mp hread
      exact hasks values x.depth ⟨hmethod, hroute, htype, hlength, hbody⟩
    · refine Server.answers_refused (s.allowListProof_plain S P) hmethod hroute fun x hx => ?_
      obtain ⟨htype, hlength, hread⟩ := r.readJson_eq_ok_iff.mp hx
      obtain ⟨values, target, hbody, -⟩ := inclusionRequest_read_eq_ok_iff.mp hread
      exact hasks values target x.depth ⟨hmethod, hroute, htype, hlength, hbody⟩

/-- Three spellings of the residue of five, with no depth given; a proof of a fourth; and five
alone, in a list with its depth. -/
theorem allowLists_agree_spellings :
    let texts : List Json := [.natural 5, .text " 0x05",
      .text "21888242871839275222246405745257275088548364400416034343698204186575808495622"]
    let target : Json :=
      .text "-21888242871839275222246405745257275088548364400416034343698204186575808495612"
    let values : List Int := [5, 5, Bn254.order + 5]
    let r := Request.posting "/api/v1/allowlists/root" (.object [("values", .array texts)])
    let q := Request.posting "/api/v1/allowlists/proof"
      (.object [("values", .array texts), ("target", target)])
    let alone := Request.posting "/api/v1/allowlists/root"
      (.array [.array [.natural 5], .natural 20])
    r.Posts .allowListRoot (AsksRoot · values none) ∧
      q.Posts .allowListProof (AsksProof · values (5 - Bn254.order) none) ∧
      ∀ (P : Poseidon.Params) (s : Server), s.settings.merkleDepth = 20 →
        ∃ root proof, s.Answers groth16 P r ⟨200, .json (Wire.rootReply ⟨root, 20, 1⟩)⟩ ∧
          s.Answers groth16 P q ⟨200, .json (Wire.inclusionReply ⟨root, proof⟩)⟩ ∧
          proof.leaf = leafOf P 5 ∧ proof.verify P root 20 = true ∧
          s.Answers groth16 P alone ⟨200, .json (Wire.rootReply ⟨root, 20, 1⟩)⟩ := by
  intro texts target values r q alone
  have hfive : Denotes (.natural 5) 5 := .natural 5
  have hvalues : List.Forall₂ Denotes (ofItems texts) values :=
    .cons hfive (.cons (denotes_of_toOption (n := ⟨false, 5⟩) (by decide +kernel))
      (.cons (denotes_of_toOption (n := ⟨false, Bn254.order + 5⟩) (by decide +kernel)) .nil))
  have htarget : Denotes (ofJson target) (5 - Bn254.order) :=
    denotes_of_toOption (n := ⟨true, Bn254.order - 5⟩) (by decide +kernel)
  have htexts : (ofJson (.array texts)).InRange := by
    refine ofJson_array_inRange fun j hj => ?_
    simp only [texts, List.mem_cons, List.not_mem_nil, or_false] at hj
    rcases hj with rfl | rfl | rfl
    · exact ofJson_natural_inRange (by decide)
    · exact .text _
    · exact .text _
  have hr : r.Posts .allowListRoot (AsksRoot · values none) := by
    refine Request.posts_posting Route.ofTarget?_allowListRoot ?_ (by decide +kernel) ?_
    · exact ofJson_object_inRange (List.forall_mem_singleton.mpr htexts)
    · exact .object rfl hvalues .absent fun m hm => nomatch hm
  have hq : q.Posts .allowListProof (AsksProof · values (5 - Bn254.order) none) := by
    refine Request.posts_posting Route.ofTarget?_allowListProof ?_ (by decide +kernel) ?_
    · exact ofJson_object_inRange (List.forall_mem_cons.mpr
        ⟨htexts, List.forall_mem_singleton.mpr (.text _)⟩)
    · exact .object rfl hvalues rfl htarget .absent fun m hm => nomatch hm
  have halone : alone.Posts .allowListRoot (AsksRoot · [5] (some 20)) := by
    refine Request.posts_posting Route.ofTarget?_allowListRoot ?_ (by decide +kernel) ?_
    · exact ofJson_array_inRange (List.forall_mem_cons.mpr
        ⟨ofJson_array_inRange (List.forall_mem_singleton.mpr (ofJson_natural_inRange (by decide))),
          List.forall_mem_singleton.mpr (ofJson_natural_inRange (by decide))⟩)
    · exact .list (.cons hfive .nil) (.natural (by decide))
  have hwrapped : (Bn254.order + 5 : Int) ≡ 5 [ZMOD Bn254.order] := Int.add_modEq_left
  have hsame : SameResidues values [5] := by
    refine ⟨fun m hm => ⟨5, List.mem_singleton_self 5, ?_⟩, fun n hn => ?_⟩
    · simp only [values, List.mem_cons, List.not_mem_nil, or_false] at hm
      rcases hm with rfl | rfl | rfl
      · rfl
      · rfl
      · exact hwrapped
    · obtain rfl := List.mem_singleton.mp hn
      exact ⟨5, List.mem_cons_self, rfl⟩
  refine ⟨hr, hq, fun P s hdepth => ?_⟩
  have htargets : leafOf P (5 - Bn254.order) = leafOf P 5 :=
    leafOf_congr P (Int.modEq_iff_dvd.mpr ⟨1, by ring⟩)
  have hmem : leafOf P 5 ∈ values.map (leafOf P) := List.mem_map_of_mem List.mem_cons_self
  have hcard : (values.map (leafOf P)).toFinset.card = 1 := by
    simp [values, leafOf_congr P hwrapped]
  obtain ⟨a, b, ha, hb, hanswers, hothers⟩ :=
    (allowLists_agree groth16 P s).1 values _ none r q hr hq
  have hbuilt := hanswers.built
  simp only [Option.getD_none, hdepth, hcard, htargets] at hbuilt
  obtain ⟨t, -, rfl, -, hproof⟩ := hbuilt (by decide) (by decide)
  obtain ⟨proof, rfl, -, hleaf, hverify⟩ := hproof hmem
  exact ⟨t.root, proof, ha, hb, hleaf, hverify,
    (hothers [5] _ (some 20) alone q hsame rfl hdepth).1 halone⟩

/-- A number of more than 64 bits that is no text is refused, though it is congruent to one that is
taken: only texts spell numbers of any size. -/
theorem large_number_refused :
    let ask (n : Nat) : Request := .posting "/api/v1/allowlists/root"
      (.object [("values", .array [.natural n]), ("depth", .natural 2)])
    (Bn254.order + 5 : Nat) ≡ 5 [MOD Bn254.order] ∧
      ∀ (P : Poseidon.Params) (s : Server), ∃ a b, s.Answers groth16 P (ask 5) a ∧
        s.Answers groth16 P (ask (Bn254.order + 5)) b ∧ a.status = 200 ∧ b.status = 400 := by
  intro ask
  refine ⟨Nat.add_modEq_left, fun P s => ?_⟩
  have hposts : (ask 5).Posts .allowListRoot (AsksRoot · [5] (some 2)) := by
    have hfive : Denotes (.natural 5) 5 := .natural 5
    refine Request.posts_posting Route.ofTarget?_allowListRoot ?_ (by decide +kernel) ?_
    · exact ofJson_object_inRange (List.forall_mem_cons.mpr
        ⟨ofJson_array_inRange (List.forall_mem_singleton.mpr (ofJson_natural_inRange (by decide))),
          List.forall_mem_singleton.mpr (ofJson_natural_inRange (by decide))⟩)
    · exact .object rfl (.cons hfive .nil) (.natural (by decide)) fun m hm => nomatch hm
  obtain ⟨t, ht⟩ : ∃ t, listTree P 2 [5] = .ok t :=
    Merkle.Tree.exists_build P (by decide) (by simp)
  have hnone : (Wire.rootRequest.read (ofChars (Json.object [("values",
      .array [.natural (Bn254.order + 5)]), ("depth", .natural 2)]).renderChars).1).toOption =
        none := by
    decide +kernel
  have hrefused : ∀ x, (ask (Bn254.order + 5)).readJson Wire.rootRequest ≠ .ok x :=
    Request.readJson_posting_ne_ok _ fun x hx => by
      rw [hx] at hnone
      cases hnone
  obtain ⟨b, hstatus, hb⟩ := Server.answers_refused (s.allowListRoot_plain groth16 P) rfl
    Route.ofTarget?_allowListRoot hrefused
  refine ⟨_, b, answers_root hposts, hb, ?_, hstatus⟩
  rw [rootOutcome, Option.getD_some, ht]
  rfl

end Attest.Service
