import Attest.Proofs.Artifact.Manifest
import Attest.Proofs.Artifact.Sealing

/-! Stores that a set-up has filled.

What a set-up that succeeds leaves can be used: of each predicate the store shows the two keys of
one set-up, and admits them under the depth that they were made for. And it is protected: no set-up
that is not forced writes to a store in which any key file is (`Store.setup_usable`). -/
namespace Attest.Artifact.Store
open Service (RestoresKeys sealing sealing_setup sealing_setupPredicate)

variable {PK VK : Type} {s : Store} {S : Scheme PK VK} {P : Poseidon.Params}
  {entropy : Predicate → Entropy} {depth : Nat} {fs fs' : Files} {p : Predicate}

/-- Keys that were made and are read back are shown as they were saved. -/
theorem Made.seen (h : s.Made S P entropy depth fs p)
    (hcodec : ∀ key, S.setupPredicate P p depth (entropy p) = .ok key → RestoresKeys S key) :
    ∃ pk, S.setupPredicate P p depth (entropy p) = .ok pk ∧
      s.seen S fs p = .saved S pk (S.verifyingKey pk) := by
  obtain ⟨pk, hpk, hproving, hverifying⟩ := h
  obtain ⟨hrestored, hrestored'⟩ := hcodec pk hpk
  exact ⟨pk, hpk, seen_of_files hrestored hrestored' (Files.read_eq_ok_iff.mp hproving)
    (Files.read_eq_ok_iff.mp hverifying)⟩

/-- A depth that there are keys for is a number of 64 bits. -/
theorem depth_lt {e : Entropy} {pk : PK} (h : S.setupPredicate P .membership depth e = .ok pk) :
    depth < UInt64.size := by
  obtain ⟨hroom, -⟩ := Scheme.setupPredicate_eq_ok_iff.mp h
  have hbytes : depth * 32 < UInt64.size / 2 := of_decide_eq_true hroom
  have hhalf : UInt64.size / 2 ≤ UInt64.size := Nat.div_le_self _ _
  omega

/-- **A set-up that succeeds leaves keys that can be used, and that no other set-up replaces unless
it is forced.** Let keys be read back from what they are written as. When a set-up has succeeded, of
every predicate both files are there, and they are read as one proving key and its verifying key;
they are admitted under the depth that they were made for, and those of a predicate that knows no
depth under every depth; and a set-up that is not forced is refused from then on and leaves the
tree. So is one that finds anything, a file or a directory, at any of the paths of key files. -/
theorem setup_usable (hcodec : ∀ p key, S.setupPredicate P p depth (entropy p) = .ok key →
      RestoresKeys S key) (fs : Files) :
    (∀ force m fs', (s.setup S P entropy depth force).run.run fs = (.ok m, fs') →
      (∀ p, (∃ pk, S.setupPredicate P p depth (entropy p) = .ok pk ∧
          s.seen S fs' p = .saved S pk (S.verifyingKey pk)) ∧
        ∀ configured, s.check fs' p configured = .ok () ↔ p = .threshold ∨ configured = depth) ∧
      ∀ entropy' depth', ∃ reason, (s.setup S P entropy' depth' false).run.run fs' =
        (.error (.invalidInput reason), fs')) ∧
    ∀ p place e, fs.find (s.place (provingFile p)) = .ok (place, e) ∨
        fs.find (s.place (verifyingFile p)) = .ok (place, e) →
      ∃ reason, (s.setup S P entropy depth false).run.run fs =
        (.error (.invalidInput reason), fs) := by
  constructor
  · intro force m fs' h
    obtain ⟨rfl, hmanifest, hmade⟩ := setup_made h
    refine ⟨fun p => ⟨(hmade p).seen (hcodec p), fun configured => ?_⟩, fun entropy' depth' => ?_⟩
    · obtain ⟨_, hpk, -⟩ := hmade .membership
      exact check_of_written_iff (depth_lt hpk) (readFile_of_read hmanifest)
    · exact setup_refused entropy' depth' (hmade .threshold).hasAny
  · intro p place e hfound
    apply setup_refused (p := p)
    have hexists {path : Path} (h : fs.find path = .ok (place, e)) : fs.exists? path := by
      rw [Files.exists?, h]
      rfl
    exact hasAny_iff.mpr (hfound.imp hexists hexists)

/-- A store that was filled on an empty disk. -/
theorem setup_usable_here :
    let s : Store := ⟨⟨[.stay]⟩, "."⟩
    let depth := Service.Settings.defaultDepth
    ∃ fs, (s.setup sealing Poseidon.standard (fun _ _ => 0) depth true).run.run .empty =
        (.ok (.current depth Predicate.all), fs) ∧
      s.seen sealing fs .membership = .saved sealing [7] [7] ∧
      s.check fs .membership depth = .ok () ∧ s.check fs .membership (depth + 1) ≠ .ok () ∧
      s.check fs .threshold (depth + 1) = .ok () ∧
      ∃ reason, (s.setup sealing Poseidon.standard (fun _ _ => 0) 4 false).run.run fs =
        (.error (.invalidInput reason), fs) := by
  generalize Poseidon.standard = P
  intro s depth
  have hcodec (p : Predicate) (key : Bytes) (_ : sealing.setupPredicate P p depth
      ((fun _ _ => 0 : Predicate → Entropy) p) = .ok key) : RestoresKeys sealing key := ⟨rfl, rfl⟩
  obtain ⟨fs, hsetup⟩ := sealing_setup P "."
  obtain ⟨hkeys, hrefused⟩ := (setup_usable hcodec .empty).1 true _ fs hsetup
  obtain ⟨⟨pk, hpk, hseen⟩, hcheck⟩ := hkeys .membership
  obtain rfl : [7] = pk := Except.ok.inj ((sealing_setupPredicate P .membership).symm.trans hpk)
  refine ⟨fs, hsetup, hseen, (hcheck depth).mpr (.inr rfl), ?_,
    ((hkeys .threshold).2 _).mpr (.inl rfl), hrefused _ 4⟩
  intro h
  rcases (hcheck (depth + 1)).mp h with h | h
  · cases h
  · exact absurd h (Nat.succ_ne_self depth)

end Attest.Artifact.Store
