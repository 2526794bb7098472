import Attest.Groth16.Scheme
import Attest.Proofs.Claim
import Attest.Proofs.Service.Plain
import Attest.Proofs.Wire.Denoted

/-! What the service says about a claim.

A body gives a value in any notation, and a digest (`AsksCommitment`). The service reads the value
with the body and the digest after it, `Claim.commitText` reads the two texts one after the other;
both come to the commitment of one claim (`commitText_eq`), which depends on no more than the
residues of what the two denote (`commitment_agrees`). -/
namespace Attest.Service
open Json Json.Reading Attest.Wire

/-! ### Bodies -/

/-- The body asks for the commitment to an item and to a digest: by name, members under other names
having only to be JSON, or in a list. -/
inductive AsksCommitment : Reading → Reading → String → Prop
  | object {members item digest} (hitem : named "value" members = [item])
      (hdigest : named "documentHash" members = [.text digest])
      (hothers : ∀ m ∈ others "documentHash" (others "value" members),
        (∃ key, m.1 = .text key) ∧ m.2.isWhole) : AsksCommitment (.object members) item digest
  | list {item digest} : AsksCommitment (.array [item, .text digest]) item digest

section
open Codec (Fields)
variable {body item : Reading} {digest : String}

/-- **A body is read exactly when its item is a scalar**: the digest is taken as it stands. -/
theorem commitmentRequest_read_iff (h : AsksCommitment body item digest) {q : CommitmentRequest} :
    Wire.commitmentRequest.read body = .ok q ↔
      scalar.read item = .ok q.value ∧ q.documentHash = digest := by
  obtain ⟨x, text⟩ := q
  refine Codec.record_read_eq_ok_iff.trans ?_
  cases h with
  | object hitem hdigest hothers =>
    constructor
    · rintro ⟨⟨_, _, ⟨⟩⟩, h, ⟨_, ⟨⟩, hgiven, hgiven', -⟩ | ⟨_, ⟨⟩, _⟩⟩
      cases h
      rw [hitem] at hgiven
      rw [named_others (by decide), hdigest] at hgiven'
      exact ⟨hgiven, (Except.ok.inj hgiven').symm⟩
    · rintro ⟨hscalar, rfl⟩
      refine ⟨(x, _, ()), rfl, .inl ⟨_, rfl, ?_, ?_, hothers⟩⟩
      · rw [hitem]
        exact hscalar
      · rw [named_others (by decide), hdigest]
        rfl
  | list =>
    constructor
    · rintro ⟨⟨_, _, ⟨⟩⟩, h, ⟨_, ⟨⟩, _⟩ | ⟨_, ⟨⟩, _, _, ⟨⟩, hscalar, _, _, ⟨⟩, htext, -⟩⟩
      cases h
      exact ⟨hscalar, (Except.ok.inj htext).symm⟩
    · rintro ⟨hscalar, rfl⟩
      exact ⟨(x, _, ()), rfl, .inr ⟨_, rfl, _, _, rfl, hscalar, _, _, rfl, rfl, rfl⟩⟩

end

/-! ### Bodies as they are written -/

/-- The characters of an item: a text in quotes, or the decimal digits of a whole number of
64 bits. -/
inductive SpelledItem : Reading → List Char → Prop
  | text (s : String) : SpelledItem (.text s) (quote s)
  | number {n : Int} : -(UInt64.size / 2 : Nat) ≤ n → n < UInt64.size →
      SpelledItem (.ofInt n) (toString n).toList

/-- The characters of a body with an item and a digest. -/
def claimChars (item : List Char) (digest : String) : List Char :=
  '\x7b' :: (quote "value" ++ ':' :: (item ++ ',' ::
    (quote "documentHash" ++ ':' :: (quote digest ++ ['\x7d']))))

/-- The request that posts an item and a digest. -/
def Request.claiming (item : List Char) (digest : String) : Request where
  method := "POST"
  target := ⟨"/api/v1/claims/commitment"⟩
  contentType := some "application/json"
  body := Bytes.ofText (claimChars item digest)

section
variable {item : Reading} {cs : List Char}

theorem value_spelledItem (h : SpelledItem item cs) (fuel : Nat) {rest : List Char}
    (hrest : Ends rest) : value none (fuel + 1) (cs ++ rest) = (item, some rest) := by
  cases h with
  | text s => exact value_quote s fuel rest
  | number hlow hhigh => exact value_toString hlow hhigh fuel hrest

theorem ofChars_claimChars (h : SpelledItem item cs) (digest : String) :
    ofChars (claimChars cs digest) =
      (.object [(.text "value", item), (.text "documentHash", .text digest)], some []) := by
  obtain ⟨fuel, hfuel⟩ : ∃ fuel, (claimChars cs digest).length = fuel + 3 := by
    refine ⟨(claimChars cs digest).length - 3, ?_⟩
    simp only [claimChars, quote, List.length_cons, List.length_append]
    omega
  rw [ofChars, hfuel, claimChars, value_object]
  · rw [members_more (value_quote "value" (fuel + 1) _) rfl
        (value_spelledItem h (fuel + 1) (ends_cons (by decide) _)) rfl,
      members_last (value_quote "documentHash" fuel _) rfl (value_quote digest fuel _) rfl]
  · exact ⟨_, _, rfl, by decide⟩

/-- **Any text and any whole number of 64 bits can be asked for**, with any digest. -/
theorem Request.posts_claiming (h : SpelledItem item cs) {digest : String}
    (hlength : (Bytes.ofText (claimChars cs digest)).length ≤ maxBody) :
    (claiming cs digest).Posts .commitment (AsksCommitment · item digest) := by
  refine ⟨rfl, Route.ofTarget?_commitment, rfl, hlength, ?_⟩
  have hread : Reading.ofBytes (claiming cs digest).body = _ :=
    (ofBytes_ofText _).trans (ofChars_claimChars h digest)
  rw [hread]
  exact .object rfl rfl fun m hm => nomatch hm

end

/-! ### Answers -/

section
variable {PK VK : Type} {S : Scheme PK VK} {P : Poseidon.Params} {s : Server} {r : Request}
  {item : Reading} {v digest : String} {x : Scalar} {d : Digest} {n : Int}

theorem answers_commitment (hr : r.Posts .commitment (AsksCommitment · item digest))
    (hx : scalar.read item = .ok x) :
    s.Answers S P r (.ofOutcome ((commitment P ⟨x, digest⟩).map Wire.commitmentReply)) :=
  Server.answers_outcome (s.commitment_plain S P) hr
    ((commitmentRequest_read_iff hr.asks).mpr ⟨hx, rfl⟩)

/-- An item that is no scalar is refused with the body, before the digest is looked at. -/
theorem refuses_commitment (hr : r.Posts .commitment (AsksCommitment · item digest))
    (hx : ∀ x, scalar.read item ≠ .ok x) : ∃ a : Response, a.status = 400 ∧ s.Answers S P r a := by
  apply Server.answers_refused (s.commitment_plain S P) hr.method hr.route
  intro q hq
  have hread := (r.readJson_eq_ok_iff.mp hq).2.2
  exact hx q.value ((commitmentRequest_read_iff hr.asks).mp hread).1

theorem commitment_of_digest (hd : Digest.parse digest = .ok d) :
    commitment P ⟨x, digest⟩ = .ok (Claim.commit P ⟨x, d.reduce⟩) := by
  rw [commitment, hd]
  rfl

/-- **The two ways to a commitment meet** where the value's text is read. -/
theorem commitText_eq (hx : Scalar.parse v = .ok x) :
    Claim.commitText P v digest = (commitment P ⟨x, digest⟩).map Scalar.toHex := by
  rw [Claim.commitText, Claim.parse, hx, commitment]
  cases Digest.parse digest <;> rfl

theorem commitText_of_denotes (hv : Denotes (.text v) n) (hd : Digest.parse digest = .ok d) :
    Claim.commitText P v digest = .ok (Claim.commit P ⟨.ofInt n, d.reduce⟩).toHex := by
  rw [commitText_eq (parse_eq_ok_iff.mpr ⟨n, hv, rfl⟩), commitment_of_digest hd]
  rfl

theorem commitText_error {e : Numeral.Error} (hv : Scalar.parse v = .error e) :
    Claim.commitText P v digest = .error (.invalidInput e.message) := by
  rw [Claim.commitText, Claim.parse, hv]
  rfl

/-- **Two texts are answered with what the library makes of them**, and refused where it refuses
them. -/
theorem answers_texts (hr : r.Posts .commitment (AsksCommitment · (.text v) digest)) :
    (∀ hex, Claim.commitText P v digest = .ok hex →
      s.Answers S P r ⟨200, .json (.object [("commitment", .text hex)])⟩) ∧
    ∀ f, Claim.commitText P v digest = .error f →
      ∃ a : Response, a.status = 400 ∧ s.Answers S P r a := by
  cases hv : Scalar.parse v with
  | error e =>
    have hread (x : Scalar) : scalar.read (.text v) ≠ .ok x := by
      intro hx
      rw [mapError_eq_ok_iff.mp hx] at hv
      cases hv
    rw [commitText_error hv]
    exact ⟨fun _ h => (nomatch h), fun _ _ => refuses_commitment hr hread⟩
  | ok x =>
    have hanswer : s.Answers S P r _ := answers_commitment hr (mapError_eq_ok_iff.mpr hv)
    rw [commitText_eq hv]
    cases hd : Digest.parse digest with
    | ok d =>
      rw [commitment_of_digest hd] at hanswer ⊢
      refine ⟨fun hex h => ?_, fun _ h => nomatch h⟩
      cases h
      exact hanswer
    | error e =>
      have hfault : commitment P ⟨x, digest⟩ = .error (.invalidInput e.message) := by
        rw [commitment, hd]
        rfl
      rw [hfault] at hanswer ⊢
      exact ⟨fun _ h => (nomatch h), fun _ _ => ⟨_, rfl, hanswer⟩⟩

end

/-- **A claim has one commitment on every path.** A text and a digest are answered with what
`Claim.commitText` makes of them, and refused where it refuses them; a whole number is answered as
its decimal text is, with the commitment of the claim that it makes; and every text and every whole
number of 64 bits can be asked for. Texts of congruent integers with digests of congruent numbers
have one commitment, and the digits of a digest are reduced to what they are read as behind the
mark. -/
theorem commitment_agrees {PK VK : Type} (S : Scheme PK VK) (P : Poseidon.Params) (s : Server) :
    (∀ v digest (r : Request), r.Posts .commitment (AsksCommitment · (.text v) digest) →
      (∀ hex, Claim.commitText P v digest = .ok hex →
        s.Answers S P r ⟨200, .json (.object [("commitment", .text hex)])⟩) ∧
      ∀ f, Claim.commitText P v digest = .error f →
        ∃ a : Response, a.status = 400 ∧ s.Answers S P r a) ∧
    (∀ n digest (r q : Request), r.Posts .commitment (AsksCommitment · (.ofInt n) digest) →
      q.Posts .commitment (AsksCommitment · (.text (toString n)) digest) →
        ∃ a, s.Answers S P r a ∧ s.Answers S P q a ∧ ∀ d, Digest.parse digest = .ok d →
          a = ⟨200, .json (Wire.commitmentReply (Claim.commit P ⟨.ofInt n, d.reduce⟩))⟩) ∧
    (∀ item cs digest, SpelledItem item cs →
      (Bytes.ofText (claimChars cs digest)).length ≤ maxBody →
        (Request.claiming cs digest).Posts .commitment (AsksCommitment · item digest)) ∧
    (∀ v w digest digest' m n j k, Denotes (.text v) m → Denotes (.text w) n →
      m ≡ n [ZMOD Bn254.order] → Digest.Denotes digest j → Digest.Denotes digest' k →
        j ≡ k [MOD Bn254.order] →
          ∃ hex, Claim.commitText P v digest = .ok hex ∧ Claim.commitText P w digest' = .ok hex) ∧
    ∀ digits : String, Digest.IsHex digits.toList →
      ((Digest.parse digits).map (·.reduce.scalar)).mapError .hex = Scalar.parse ("0x" ++ digits) ∧
        (digits ≠ "" → ∃ d, Digest.parse digits = .ok d) := by
  refine ⟨fun v digest r hr => answers_texts hr, fun n digest r q hr hq => ?_,
    fun item cs digest h hlength => Request.posts_claiming h hlength,
    fun v w digest digest' m n j k hv hw hvalue hdigest hdigest' hnumber => ?_,
    fun digits h => ⟨Digest.reduce_parse h, Digest.exists_parse h⟩⟩
  · have hnumber : scalar.read (.ofInt n) = .ok (.ofInt n) :=
      scalar_read_eq_ok_iff.mpr ⟨n, denotes_ofInt n, rfl⟩
    have htext : scalar.read (.text (toString n)) = .ok (.ofInt n) :=
      scalar_read_eq_ok_iff.mpr ⟨n, denotes_toString n, rfl⟩
    refine ⟨_, answers_commitment hr hnumber, answers_commitment hq htext, fun d hd => ?_⟩
    rw [commitment_of_digest hd]
    rfl
  · obtain ⟨d, hd, rfl⟩ := Digest.denotes_iff.mp hdigest
    obtain ⟨e, he, rfl⟩ := Digest.denotes_iff.mp hdigest'
    refine ⟨_, commitText_of_denotes hv hd, ?_⟩
    rw [commitText_of_denotes hw he, Scalar.ofInt_eq_iff.mpr hvalue, Digest.reduce_congr hnumber]

/-- Minus five as a number and in two texts, the second wrapped around the order, and so the digest
with it; a text that is no integer; and an odd number of digits. -/
theorem commitment_agrees_spellings :
    let wrapped := "30644E72E131A029B85045B68181585D2833E84879B9709143e1f593effffffc"
    let digest := "00030644e72e131a029b85045b68181585d2833e84879b9709143e1f593f0000002"
    ∀ (P : Poseidon.Params) (s : Server),
      (∃ hex, s.Answers groth16 P (.claiming "-5".toList "0x01")
          ⟨200, .json (.object [("commitment", .text hex)])⟩ ∧
        s.Answers groth16 P (.claiming (quote "-5") "0x01")
          ⟨200, .json (.object [("commitment", .text hex)])⟩ ∧
        s.Answers groth16 P (.claiming (quote ("0X" ++ wrapped)) digest)
          ⟨200, .json (.object [("commitment", .text hex)])⟩) ∧
      (∃ a : Response, a.status = 400 ∧
        s.Answers groth16 P (.claiming (quote "twelve") "0x01") a) ∧
      ∃ d, Digest.parse "f0A" = .ok d ∧ Scalar.parse "0xf0A" = .ok d.reduce.scalar := by
  intro wrapped digest P s
  obtain ⟨htexts, hnumbers, hposts, hresidues, hdigits⟩ := commitment_agrees groth16 P s
  have hnumber : SpelledItem (.ofInt (-5)) "-5".toList := .number (by decide) (by decide)
  have hchars : toString (-5 : Int) = "-5" := by decide +kernel
  have hminus : Denotes (.text "-5") (-5) := hchars ▸ denotes_toString (-5)
  have hdigest {s : String} {d : Digest} (h : (Digest.parse s).toOption = some d) :
      Digest.Denotes s d.bytes.toNatBE :=
    Digest.denotes_iff.mpr ⟨_, eq_ok_of_toOption h, rfl⟩
  have hone : Digest.parse "0x01" = .ok ⟨[1]⟩ := eq_ok_of_toOption (by decide +kernel)
  refine ⟨?_, ?_, ?_⟩
  · obtain ⟨a, hanswer, hanswer', ha⟩ := hnumbers (-5) "0x01" _ _
      (hposts _ _ _ hnumber (by decide +kernel)) (hposts _ _ _ (.text "-5") (by decide +kernel))
    obtain rfl := ha _ hone
    obtain ⟨hex, htext, hwrapped⟩ := hresidues "-5" ("0X" ++ wrapped) "0x01" digest _ _ _ _
      hminus (denotes_of_toOption (n := ⟨false, Bn254.order - 5⟩) (by decide +kernel))
      (by decide) (Digest.denotes_iff.mpr ⟨_, hone, rfl⟩)
      (hdigest (d := ⟨.ofNatBE 34 (Bn254.order + 1)⟩) (by decide +kernel))
      (by decide +kernel)
    rw [commitText_of_denotes hminus hone] at htext
    cases htext
    exact ⟨_, hanswer, hanswer',
      (htexts _ _ _ (hposts _ _ _ (.text _) (by decide +kernel))).1 _ hwrapped⟩
  · have hfault : Claim.commitText P "twelve" "0x01" = .error _ :=
      commitText_error (e := .notDecimal "twelve") (by decide +kernel)
    exact (htexts _ _ _ (hposts _ _ _ (.text "twelve") (by decide +kernel))).2 _ hfault
  · have hspells : Text.Spells 16 "f0A".toList 0xf0a :=
      (Text.spells_iff (by decide)).mpr ⟨by decide, by decide +kernel⟩
    obtain ⟨hreduce, hparse⟩ := hdigits "f0A" hspells.isDigit
    obtain ⟨d, hd⟩ := hparse (by decide)
    rw [hd] at hreduce
    exact ⟨d, hd, hreduce.symm⟩

end Attest.Service
