import Attest.Proofs.Artifact.Manifest
import Attest.Proofs.Artifact.Store
import Attest.Proofs.Json.Record

/-! What the manifest of a store lets in.

A file is read as a manifest exactly when it is a JSON text of one (`Wire.manifest_ofBytes_iff`).
Keys are let in by what the manifest says of its version, its predicates and, for membership, its
depth; the curve and the proof system that it names are read and not looked at, so keys of another
kind are let in when the rest agrees, and only then is more let in than was made for this library
(`Artifact.Store.check_gates`). -/
namespace Attest
open Json Json.Reading

namespace Wire

/-! ### Texts of a manifest -/

/-- A predicate's name, or an object of it and nothing. -/
inductive Names : Reading → Predicate → Prop
  | text (p : Predicate) : Names (.text p.name) p
  | object (p : Predicate) : Names (.object [(.text p.name, .null)]) p

/-- The values say what the manifest says, and its numbers fit their types. -/
structure Says (version curve proofSystem merkleDepth circuits : Reading)
    (m : Artifact.Manifest) : Prop where
  version : version = .natural m.version ∧ m.version < UInt32.size
  curve : curve = .text m.curve
  proofSystem : proofSystem = .text m.proofSystem
  merkleDepth : merkleDepth = .natural m.merkleDepth ∧ m.merkleDepth < UInt64.size
  circuits : ∃ items, circuits = .array items ∧ List.Forall₂ Names items m.circuits

/-- The value says what the manifest says: each of its fields once under its name, or all of them in
a list. Members under other names only have to be JSON. -/
inductive Describes : Reading → Artifact.Manifest → Prop
  | object {members a b c d e m} (hversion : named "version" members = [a])
      (hcurve : named "curve" members = [b]) (hproofSystem : named "proofSystem" members = [c])
      (hmerkleDepth : named "merkleDepth" members = [d])
      (hcircuits : named "circuits" members = [e])
      (hothers : ∀ x ∈ others "circuits" (others "merkleDepth" (others "proofSystem"
        (others "curve" (others "version" members)))), (∃ key, x.1 = .text key) ∧ x.2.isWhole)
      (h : Says a b c d e m) : Describes (.object members) m
  | list {a b c d e m} (h : Says a b c d e m) : Describes (.array [a, b, c, d, e]) m

/-- The bytes are a JSON text of the manifest, with blanks around it. -/
structure ManifestText (bytes : Bytes) (m : Artifact.Manifest) : Prop where
  describes : Describes (ofBytes bytes).1 m
  ends : ∃ rest, (ofBytes bytes).2 = some rest ∧ skipSpace rest = []

variable {r : Reading} {p : Predicate} {m : Artifact.Manifest}

theorem ofName?_eq_some_iff {s : String} : Predicate.ofName? s = some p ↔ s = p.name := by
  unfold Predicate.ofName?
  constructor
  · intro h
    have hname := List.find?_some h
    exact (beq_iff_eq.mp hname).symm
  · rintro rfl
    cases p <;> decide

theorem namedPredicate_eq_ok_iff {s : String} : namedPredicate s = .ok p ↔ s = p.name := by
  rw [← ofName?_eq_some_iff, namedPredicate]
  cases Predicate.ofName? s <;> simp

theorem predicate_read_eq_ok_iff : predicate.read r = .ok p ↔ Names r p := by
  constructor
  · intro h
    unfold predicate at h
    dsimp only at h
    split at h
    · obtain rfl := namedPredicate_eq_ok_iff.mp h
      exact .text p
    · next name value rest =>
      obtain ⟨q, hq, hvalue⟩ := bind_eq_ok_iff.mp h
      obtain rfl := namedPredicate_eq_ok_iff.mp hq
      split at hvalue
      · split at hvalue
        · next hrest =>
          obtain rfl := List.isEmpty_iff.mp hrest
          obtain rfl := Except.ok.inj hvalue
          exact .object q
        · cases hvalue
      · exact absurd hvalue (Codec.wrongType_ne_ok _ _ _)
    · cases h
  · intro h
    cases h with
    | text => exact namedPredicate_eq_ok_iff.mpr rfl
    | object => exact bind_eq_ok_iff.mpr ⟨p, namedPredicate_eq_ok_iff.mpr rfl, rfl⟩

section
open Codec (Fields)

/-- The fields of a manifest, in order. -/
def manifestFields : Fields [Nat, String, String, Nat, List Predicate] :=
  .cons "version" (.natural UInt32.size "u32") none <| .cons "curve" .text none <|
    .cons "proofSystem" .text none <| .cons "merkleDepth" size none <|
    .cons "circuits" (.list predicate) none .nil

/-- The codecs of the fields take the values that say what the manifest says. -/
theorem says_iff {a b c d e : Reading} : Says a b c d e m ↔
    (Codec.natural UInt32.size "u32").read a = .ok m.version ∧ Codec.text.read b = .ok m.curve ∧
      Codec.text.read c = .ok m.proofSystem ∧ size.read d = .ok m.merkleDepth ∧
      predicate.list.read e = .ok m.circuits := by
  simp only [size, sizeBound, Codec.natural_read_eq_ok_iff, Codec.text_read_eq_ok_iff,
    Codec.list_read_eq_ok_iff, predicate_read_eq_ok_iff]
  constructor
  · exact fun h => ⟨h.version, h.curve, h.proofSystem, h.merkleDepth, h.circuits⟩
  · rintro ⟨ha, hb, hc, hd, he⟩
    exact ⟨ha, hb, hc, hd, he⟩

theorem manifestFields_gathered_iff {members : List (Reading × Reading)} :
    manifestFields.Gathered members
        (m.version, m.curve, m.proofSystem, m.merkleDepth, m.circuits, ()) ↔
      Describes (.object members) m := by
  simp only [manifestFields, Fields.Gathered, Fields.given_none_iff]
  -- no field is looked for under the name of another
  simp only [named_others, ne_eq, String.reduceEq, not_false_eq_true]
  constructor
  · rintro ⟨⟨a, ha, hra⟩, ⟨b, hb, hrb⟩, ⟨c, hc, hrc⟩, ⟨d, hd, hrd⟩, ⟨e, he, hre⟩, hothers⟩
    exact .object ha hb hc hd he hothers (says_iff.mpr ⟨hra, hrb, hrc, hrd, hre⟩)
  · intro h
    cases h with
    | object ha hb hc hd he hothers hsays =>
      obtain ⟨hra, hrb, hrc, hrd, hre⟩ := says_iff.mp hsays
      exact ⟨⟨_, ha, hra⟩, ⟨_, hb, hrb⟩, ⟨_, hc, hrc⟩, ⟨_, hd, hrd⟩, ⟨_, he, hre⟩, hothers⟩

theorem manifestFields_ordered_iff {items : List Reading} :
    manifestFields.Ordered items
        (m.version, m.curve, m.proofSystem, m.merkleDepth, m.circuits, ()) ↔
      Describes (.array items) m := by
  constructor
  · rintro ⟨a, _, rfl, hra, b, _, rfl, hrb, c, _, rfl, hrc, d, _, rfl, hrd, e, _, rfl, hre, rfl⟩
    exact .list (says_iff.mpr ⟨hra, hrb, hrc, hrd, hre⟩)
  · intro h
    cases h with
    | list hsays =>
      obtain ⟨hra, hrb, hrc, hrd, hre⟩ := says_iff.mp hsays
      exact ⟨_, _, rfl, hra, _, _, rfl, hrb, _, _, rfl, hrc, _, _, rfl, hrd, _, _, rfl, hre, rfl⟩

end

theorem manifest_read_eq_ok_iff : manifest.read r = .ok m ↔ Describes r m := by
  refine Codec.record_read_eq_ok_iff.trans ?_
  constructor
  · rintro ⟨⟨version, curve, proofSystem, merkleDepth, circuits, _⟩, rfl, h⟩
    obtain ⟨members, rfl, hgathered⟩ | ⟨items, rfl, hordered⟩ := h
    · exact manifestFields_gathered_iff.mp hgathered
    · exact manifestFields_ordered_iff.mp hordered
  · intro h
    refine ⟨(m.version, m.curve, m.proofSystem, m.merkleDepth, m.circuits, ()), rfl, ?_⟩
    cases r with
    | object members => exact .inl ⟨_, rfl, manifestFields_gathered_iff.mpr h⟩
    | array items => exact .inr ⟨_, rfl, manifestFields_ordered_iff.mpr h⟩
    | _ => exact nomatch h

/-- **A file is read as a manifest exactly when it is a JSON text of it.** -/
theorem manifest_ofBytes_iff {bytes : Bytes} :
    manifest.ofBytes bytes = .ok m ↔ ManifestText bytes m := by
  rw [Codec.ofBytes_eq_ok_iff, manifest_read_eq_ok_iff]
  exact ⟨fun ⟨h, hends⟩ => ⟨h, hends⟩, fun h => ⟨h.describes, h.ends⟩⟩

end Wire

namespace Artifact

/-! ### What is let in -/

namespace Manifest
variable {m : Manifest} {p : Predicate} {depth : Nat}

/-- The manifest is of this version and has the predicate, and at the configured depth if the
predicate has one. -/
structure Admits (m : Manifest) (p : Predicate) (depth : Nat) : Prop where
  version : m.version = Predicate.version
  circuits : p ∈ m.circuits
  merkleDepth : p = .membership → m.merkleDepth = depth

/-- The manifest is of keys over the library's curve and for its proof system. -/
structure Native (m : Manifest) : Prop where
  curve : m.curve = Artifact.curve
  proofSystem : m.proofSystem = Artifact.proofSystem

/-- What agrees is let in, and whatever disagrees is told as a circuit that is not there. -/
theorem check_cases (m : Manifest) (p : Predicate) (depth : Nat) :
    m.Admits p depth ∧ m.check p depth = .ok () ∨
      ¬m.Admits p depth ∧ ∃ reason, m.check p depth = .error (.circuitNotFound reason) := by
  dsimp only [check]
  by_cases hversion : m.version = Predicate.version
  · rw [if_neg (not_not.mpr hversion)]
    by_cases hcircuits : p ∈ m.circuits
    · rw [if_neg (not_not.mpr hcircuits)]
      by_cases hdepth : p = .membership ∧ m.merkleDepth ≠ depth
      · rw [if_pos hdepth]
        exact .inr ⟨fun h => hdepth.2 (h.merkleDepth hdepth.1), _, rfl⟩
      · rw [if_neg hdepth]
        refine .inl ⟨⟨hversion, hcircuits, fun hp => ?_⟩, rfl⟩
        exact not_not.mp fun hne => hdepth ⟨hp, hne⟩
    · rw [if_pos hcircuits]
      exact .inr ⟨fun h => hcircuits h.circuits, _, rfl⟩
  · rw [if_pos hversion]
    exact .inr ⟨fun h => hversion h.version, _, rfl⟩

theorem check_eq_ok_iff : m.check p depth = .ok () ↔ m.Admits p depth := by
  obtain ⟨hadmits, hcheck⟩ | ⟨hnot, reason, hcheck⟩ := m.check_cases p depth
  · exact iff_of_true hcheck hadmits
  · exact iff_of_false (by simp [hcheck]) hnot

end Manifest

namespace Store
variable {s : Store} {fs : Files} {m : Manifest} {p : Predicate} {depth : Nat}

/-- The store's manifest file is a text of the manifest. -/
def Records (s : Store) (fs : Files) (m : Manifest) : Prop :=
  ∃ bytes, fs.read (s.place manifestFile) = .ok bytes ∧ Wire.ManifestText bytes m

theorem decodeManifest_eq_ok_iff {bytes : Bytes} :
    decodeManifest bytes = .ok m ↔ Wire.ManifestText bytes m :=
  mapError_eq_ok_iff.trans Wire.manifest_ofBytes_iff

theorem decodeManifest_of_not_text {bytes : Bytes} (h : ∀ m, ¬Wire.ManifestText bytes m) :
    ∃ reason, decodeManifest bytes = .error (.serialization reason) := by
  rw [decodeManifest]
  cases hread : Wire.manifest.ofBytes bytes with
  | ok m => exact absurd (Wire.manifest_ofBytes_iff.mp hread) (h m)
  | error fault => cases fault <;> exact ⟨_, rfl⟩

theorem manifest_eq_ok_iff : s.manifest fs = .ok m ↔ s.Records fs m := by
  rw [manifest, bind_eq_ok_iff]
  simp only [readFile_eq_ok_iff, decodeManifest_eq_ok_iff]
  rfl

/-- A store records one manifest at most. -/
theorem Records.unique {m' : Manifest} (h : s.Records fs m) (h' : s.Records fs m') : m = m' := by
  rw [← manifest_eq_ok_iff] at h h'
  exact Except.ok.inj (h.symm.trans h')

/-- What is recorded decides. -/
theorem Records.check (h : s.Records fs m) (p : Predicate) (depth : Nat) :
    s.check fs p depth = m.check p depth := by
  rw [Store.check, manifest_eq_ok_iff.mpr h]
  rfl

/-- Keys are let in by the manifest that is recorded. -/
theorem check_eq_ok_iff :
    s.check fs p depth = .ok () ↔ ∃ m, s.Records fs m ∧ m.Admits p depth := by
  rw [check, bind_eq_ok_iff]
  simp only [manifest_eq_ok_iff, Manifest.check_eq_ok_iff]

/-- A recorded manifest that disagrees is told as a circuit that is not there. -/
theorem Records.check_of_not_admits (h : s.Records fs m) (hnot : ¬m.Admits p depth) :
    ∃ reason, s.check fs p depth = .error (.circuitNotFound reason) := by
  obtain ⟨hadmits, -⟩ | ⟨-, reason, hcheck⟩ := m.check_cases p depth
  · exact absurd hadmits hnot
  · exact ⟨reason, (h.check p depth).trans hcheck⟩

section
variable (p : Predicate) (depth : Nat)

theorem check_of_missing (h : fs.read (s.place manifestFile) = .error .missing) :
    s.check fs p depth = .error (.circuitNotFound (s.absence manifestFile)) := by
  rw [check, manifest, readFile_of_read_missing h]
  rfl

theorem check_of_error {e : FileError} (he : e ≠ .missing)
    (h : fs.read (s.place manifestFile) = .error e) :
    s.check fs p depth = .error (.io e.message) := by
  rw [check, manifest, readFile_of_error he h]
  rfl

theorem check_of_not_text {bytes : Bytes} (h : fs.read (s.place manifestFile) = .ok bytes)
    (hnone : ∀ m, ¬Wire.ManifestText bytes m) :
    ∃ reason, s.check fs p depth = .error (.serialization reason) := by
  obtain ⟨reason, hreason⟩ := decodeManifest_of_not_text hnone
  refine ⟨reason, ?_⟩
  rw [check, manifest, readFile_of_read h]
  show decodeManifest bytes >>= _ = _
  rw [hreason]
  rfl

end

/-- The store lets in what was made for this library and this configuration, and nothing else: what
is not there or disagrees is a circuit that is not there, and what is no manifest is told so. -/
structure Gated (s : Store) (fs : Files) (p : Predicate) (depth : Nat) : Prop where
  admitted : s.check fs p depth = .ok () ↔ ∃ m, s.Records fs m ∧ m.Admits p depth ∧ m.Native
  missing : fs.read (s.place manifestFile) = .error .missing →
    s.check fs p depth = .error (.circuitNotFound (s.absence manifestFile))
  disagreeing : ∀ m, s.Records fs m → ¬(m.Admits p depth ∧ m.Native) →
    ∃ reason, s.check fs p depth = .error (.circuitNotFound reason)
  unreadable : ∀ e, fs.read (s.place manifestFile) = .error e → e ≠ .missing →
    s.check fs p depth = .error (.io e.message)
  undecodable : ∀ bytes, fs.read (s.place manifestFile) = .ok bytes →
    (∀ m, ¬Wire.ManifestText bytes m) →
    ∃ reason, s.check fs p depth = .error (.serialization reason)

/-- **What the gate looks at.** Keys are let in exactly when the manifest file is a text of a
manifest of this version that has the predicate, and for membership at the configured depth; any
other manifest is told as a circuit that is not there. Nothing else is asked of it. So only what was
made for this library and configuration is let in, exactly as long as no manifest that agrees in all
this is of another curve or proof system. -/
theorem check_gates (s : Store) (fs : Files) (p : Predicate) (depth : Nat) :
    (s.check fs p depth = .ok () ↔ ∃ m, s.Records fs m ∧ m.Admits p depth) ∧
      (∀ m, s.Records fs m → ¬m.Admits p depth →
        ∃ reason, s.check fs p depth = .error (.circuitNotFound reason)) ∧
      (s.Gated fs p depth ↔ ∀ m, s.Records fs m → m.Admits p depth → m.Native) := by
  refine ⟨check_eq_ok_iff, fun m hm hnot => hm.check_of_not_admits hnot, fun h m hm hadmits => ?_,
    fun h => ?_⟩
  · obtain ⟨m', hm', -, hnative⟩ := h.admitted.mp (check_eq_ok_iff.mpr ⟨m, hm, hadmits⟩)
    rwa [hm.unique hm']
  · constructor
    case admitted =>
      rw [check_eq_ok_iff]
      exact ⟨fun ⟨m, hm, hadmits⟩ => ⟨m, hm, hadmits, h m hm hadmits⟩,
        fun ⟨m, hm, hadmits, _⟩ => ⟨m, hm, hadmits⟩⟩
    case missing => exact check_of_missing p depth
    case disagreeing =>
      intro m hm hnot
      exact hm.check_of_not_admits fun hadmits => hnot ⟨hadmits, h m hm hadmits⟩
    case unreadable => exact fun e hread he => check_of_error p depth he hread
    case undecodable => exact fun bytes hread => check_of_not_text p depth hread

/-- Keys over another curve are let in. -/
theorem foreign_curve_admitted :
    let s : Store := ⟨⟨[.stay]⟩, "keys"⟩
    let m : Manifest := ⟨1, "bls12_381", "groth16", 16, Predicate.all⟩
    let text := Bytes.ofText (Wire.manifest.write m).pretty.toList
    let fs : Files := .ofEntries [([manifestFile], .file text)]
    s.Records fs m ∧ m.curve ≠ curve ∧ s.check fs .threshold 16 = .ok () ∧
      ¬s.Gated fs .threshold 16 := by
  intro s m text fs
  have hrecords : s.Records fs m := by
    refine ⟨_, rfl, Wire.manifest_ofBytes_iff.mp ?_⟩
    exact (Wire.manifest_restores (by decide) (by decide)).ofBytes_pretty
  have hadmits : m.Admits .threshold 16 := ⟨rfl, by decide, fun h => nomatch h⟩
  have hcurve : m.curve ≠ curve := by decide
  refine ⟨hrecords, hcurve, check_eq_ok_iff.mpr ⟨m, hrecords, hadmits⟩, fun h => ?_⟩
  obtain ⟨m', hm', -, hnative⟩ := h.admitted.mp (check_eq_ok_iff.mpr ⟨m, hrecords, hadmits⟩)
  rw [← hrecords.unique hm'] at hnative
  exact hcurve hnative.curve

end Store

end Artifact

end Attest
