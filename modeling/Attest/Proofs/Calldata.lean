import Attest.Proofs.Bytes
import Attest.Proofs.Curve.Decoded
import Attest.Proofs.Text.Hex
import Attest.Proofs.Wire.Material

/-! The three views of a call show the same words.

The words of a call spell the coordinates of the proof's points and then the scalars
(`Calldata.numbers_words`), each in 32 bytes. What the bracketed text and the JSON text show is read
back as these words (`Calldata.wordsOf?_arguments`, `Calldata.wordsOf?_text`), and the bytes are
these words one after the other; since a point is known by its coordinates, so are the proof and
the scalars by the bytes (`Calldata.views_agree`). -/
namespace Attest
open Bn254 Json

/-! ### Words read back -/

/-- The word that a text spells in digits behind a mark. -/
def Calldata.wordOf? (s : String) : Option Word :=
  (Text.Hex.afterMark? s.toList).bind fun digits => (Text.Hex.decode digits).toOption

/-- The words of texts, in the order of the arguments. -/
def CalldataText.words? (d : CalldataText) : Option (List Word) :=
  (d.a ++ d.b.flatten ++ d.c ++ d.inputs).mapM Calldata.wordOf?

/-- The words of the texts in a JSON text, in the order of the arguments. -/
def Calldata.wordsOf? (json : String) : Option (List Word) :=
  (Wire.calldata.ofText json).toOption.bind CalldataText.words?

namespace Calldata
variable {p q : Groth16.Proof} {signals : List Scalar} {d : Calldata}

theorem wordOf?_wordText {w : Word} (h : w ≠ []) : wordOf? (wordText w) = some w := by
  rw [wordOf?, wordText, String.toList_ofList, Text.Hex.afterMark?, Option.bind_some,
    Text.Hex.decode_encode h]
  rfl

theorem toText_texts (d : Calldata) :
    d.toText.a ++ d.toText.b.flatten ++ d.toText.c ++ d.toText.inputs = d.words.map wordText := by
  simp only [toText, words, List.map_append, List.map_flatten]

theorem words?_toText (h : ∀ w ∈ d.words, w ≠ []) : d.toText.words? = some d.words := by
  have hwords (ws : List Word) (h : ∀ w ∈ ws, w ≠ []) :
      (ws.map wordText).mapM wordOf? = some ws := by
    induction ws with
    | nil => rfl
    | cons w rest ih =>
      rw [List.forall_mem_cons] at h
      rw [List.map_cons, List.mapM_cons, wordOf?_wordText h.1, ih h.2]
      rfl
  rw [CalldataText.words?, toText_texts]
  exact hwords d.words h

/-! ### The JSON text -/

theorem wordsOf?_text (h : ∀ w ∈ d.words, w ≠ []) :
    wordsOf? (Wire.calldata.write d.toText).render = some d.words := by
  have hrestores := Wire.calldata_restores d.toText
  rw [wordsOf?, Codec.ofText_render _ hrestores.inRange, hrestores.read_write]
  exact words?_toText h

/-! ### The bracketed text -/

/-- A list is rendered element by element, commas between. -/
theorem render_array (items : List Json) :
    (Json.array items).render = "[" ++ ",".intercalate (items.map render) ++ "]" := by
  have hitems : renderItems items = [','].intercalate (items.map renderChars) ++ [']'] := by
    induction items with
    | nil => rfl
    | cons item rest ih =>
      cases rest with
      | nil => rw [renderItems, List.map_singleton, List.intercalate_singleton]
      | cons next rest =>
        rw [renderItems, ih]
        · simp only [List.map_cons, List.intercalate_cons_cons, List.append_assoc,
            List.cons_append, List.nil_append]
        · exact List.cons_ne_nil _ _
  have hchars : items.map (fun j => j.render.toList) = items.map renderChars := by
    simp only [render, String.toList_ofList]
  rw [← String.toList_inj, render, String.toList_ofList, renderChars, hitems]
  simp only [String.toList_append, String.toList_intercalate, List.map_map, Function.comp_def,
    hchars]
  rfl

theorem escape_digitChar : ∀ k < 16, escape (Text.Hex.digitChar k) = [Text.Hex.digitChar k] := by
  decide

/-- A word's text needs no escapes. -/
theorem render_wordText (w : Word) :
    (Json.text (wordText w)).render = "\"" ++ wordText w ++ "\"" := by
  have hdigits : (Text.Hex.encode w).flatMap escape = Text.Hex.encode w := by
    have hbyte (b : UInt8) : (Text.Hex.encodeByte b).flatMap escape = Text.Hex.encodeByte b := by
      rw [Text.Hex.encodeByte, List.flatMap_cons, List.flatMap_cons, List.flatMap_nil,
        escape_digitChar _ (by have := b.toNat_lt; omega),
        escape_digitChar _ (Nat.mod_lt _ (by decide))]
      rfl
    rw [Text.Hex.encode, List.flatMap_assoc]
    exact congrArg (fun f => w.flatMap f) (funext hbyte)
  rw [← String.toList_inj, render, String.toList_ofList, renderChars, quote, wordText,
    String.toList_ofList, List.flatMap_cons, List.flatMap_cons, hdigits]
  simp only [String.toList_append, String.toList_ofList]
  rfl

theorem render_words (ws : List Word) :
    (Codec.text.list.write (ws.map wordText)).render = bracketed ws := by
  have hwrite : Codec.text.list.write (ws.map wordText) =
      .array (ws.map fun w => .text (wordText w)) :=
    congrArg Json.array List.map_map
  rw [hwrite, render_array, List.map_map, bracketed]
  exact congrArg (fun f => "[" ++ ",".intercalate (ws.map f) ++ "]") (funext render_wordText)

/-- The arguments between brackets are the fields of the JSON text, as a list. -/
theorem render_arguments (d : Calldata) :
    "[" ++ d.toArguments ++ "]" =
      (Json.array [Codec.text.list.write d.toText.a, Codec.text.list.list.write d.toText.b,
        Codec.text.list.write d.toText.c, Codec.text.list.write d.toText.inputs]).render := by
  have hb : (Codec.text.list.list.write d.toText.b).render =
      "[" ++ ",".intercalate (d.b.map bracketed) ++ "]" := by
    have hwrite : Codec.text.list.list.write d.toText.b =
        .array (d.b.map fun ws => Codec.text.list.write (ws.map wordText)) :=
      congrArg Json.array List.map_map
    rw [hwrite, render_array, List.map_map]
    exact congrArg (fun f => "[" ++ ",".intercalate (d.b.map f) ++ "]") (funext render_words)
  rw [render_array, List.map_cons, List.map_cons, List.map_cons, List.map_cons, hb]
  simp only [toText, render_words, List.map_nil, toArguments]

theorem wordsOf?_arguments (h : ∀ w ∈ d.words, w ≠ []) :
    wordsOf? ("[" ++ d.toArguments ++ "]") = some d.words := by
  have ha := Wire.texts_restores d.toText.a
  have hb : Codec.text.list.list.Restores d.toText.b := .list fun ss _ => Wire.texts_restores ss
  have hc := Wire.texts_restores d.toText.c
  have hinputs := Wire.texts_restores d.toText.inputs
  have hrange := Reading.ofJson_array_inRange (List.forall_mem_cons.mpr ⟨ha.inRange,
    List.forall_mem_cons.mpr ⟨hb.inRange, List.forall_mem_cons.mpr ⟨hc.inRange,
      List.forall_mem_singleton.mpr hinputs.inRange⟩⟩⟩)
  have hread : Wire.calldata.ofText ("[" ++ d.toArguments ++ "]") = .ok d.toText := by
    rw [render_arguments, Codec.ofText_render _ hrange]
    refine Codec.record_read_eq_ok_iff.mpr
      ⟨(d.toText.a, d.toText.b, d.toText.c, d.toText.inputs, ()), rfl, .inr ⟨_, rfl, ?_⟩⟩
    exact ⟨_, _, rfl, ha.read_write, _, _, rfl, hb.read_write, _, _, rfl, hc.read_write,
      _, _, rfl, hinputs.read_write, rfl⟩
  rw [wordsOf?, hread]
  exact words?_toText h

/-! ### What the words spell -/

theorem number_word (x : Base) : Bytes.toNatBE (word x) = x.val := by
  have hwidth : x.val < 256 ^ 32 := Nat.lt_trans x.isLt (by decide)
  rw [word, Bytes.toNatBE_ofNatBE, Nat.mod_eq_of_lt hwidth]

theorem number_toBytes (x : Scalar) : Bytes.toNatBE x.toBytes = x.val := by
  rw [Scalar.toBytes, Bytes.toNatBE_ofNatBE, Nat.mod_eq_of_lt x.val_lt_width]

theorem numbers_firstGroup (p : G1) : (firstGroup p).map Bytes.toNatBE = p.numbers := by
  cases p with
  | infinity => rfl
  | affine x y =>
    simp only [firstGroup, List.map_cons, List.map_nil, number_word, G1.numbers]

theorem numbers_secondGroup (p : G2) : (secondGroup p).flatten.map Bytes.toNatBE = p.numbers := by
  cases p with
  | infinity => rfl
  | affine x y =>
    simp only [secondGroup, twin, List.flatten_cons, List.flatten_nil, List.append_nil,
      List.cons_append, List.nil_append, List.map_cons, List.map_nil, number_word, G2.numbers]

/-- **The words of a call spell the coordinates of the proof and then the scalars.** -/
theorem numbers_words (p : Groth16.Proof) (signals : List Scalar) :
    (ofProof p signals).words.map Bytes.toNatBE = p.numbers ++ signals.map (·.val) := by
  have hinputs : (signals.map Scalar.toBytes).map Bytes.toNatBE = signals.map (·.val) := by
    simp only [List.map_map, Function.comp_def, number_toBytes]
  rw [words, List.map_append, List.map_append, List.map_append, ofProof, numbers_firstGroup,
    numbers_secondGroup, numbers_firstGroup, hinputs, Groth16.Proof.numbers]

theorem length_of_mem_words {w : Word} (h : w ∈ (ofProof p signals).words) : w.length = 32 := by
  have hword (x : Base) : (word x).length = 32 := Bytes.length_ofNatBE 32 x.val
  have hfirst (p : G1) : ∀ w ∈ firstGroup p, w.length = 32 := by
    cases p <;> simp [firstGroup, hword]
  have hsecond (p : G2) : ∀ w ∈ (secondGroup p).flatten, w.length = 32 := by
    cases p <;> simp [secondGroup, twin, hword]
  have hinputs : ∀ w ∈ signals.map Scalar.toBytes, w.length = 32 :=
    List.forall_mem_map.mpr fun x _ => Scalar.length_toBytes x
  rcases List.mem_append.mp h with h | h
  · rcases List.mem_append.mp h with h | h
    · rcases List.mem_append.mp h with h | h
      · exact hfirst _ w h
      · exact hsecond _ w h
    · exact hfirst _ w h
  · exact hinputs w h

theorem length_words (p : Groth16.Proof) (signals : List Scalar) :
    (ofProof p signals).words.length = 8 + signals.length := by
  have hlength := congrArg List.length (numbers_words p signals)
  rwa [List.length_map, List.length_append, List.length_map, p.length_numbers] at hlength

theorem lengths_words (p : Groth16.Proof) (signals : List Scalar) :
    (ofProof p signals).words.map List.length = List.replicate (8 + signals.length) 32 := by
  rw [← length_words p signals, ← List.map_const']
  exact List.map_congr_left fun w hw => length_of_mem_words hw

theorem length_toBytes (p : Groth16.Proof) (signals : List Scalar) :
    (ofProof p signals).toBytes.length = 32 * (8 + signals.length) := by
  rw [toBytes, List.length_flatten, lengths_words, List.sum_replicate, smul_eq_mul, Nat.mul_comm]

/-- **Bytes are those of one proof and one list of scalars**, for points on their curves. -/
theorem toBytes_injective (hp : p.OnCurve) (hq : q.OnCurve) {signals' : List Scalar}
    (h : (ofProof p signals).toBytes = (ofProof q signals').toBytes) :
    p = q ∧ signals = signals' := by
  have hcount : signals.length = signals'.length := by
    have hlength := congrArg List.length h
    rw [length_toBytes, length_toBytes] at hlength
    omega
  have hwords : (ofProof p signals).words = (ofProof q signals').words :=
    List.eq_iff_flatten_eq.mpr ⟨h, by rw [lengths_words, lengths_words, hcount]⟩
  have hnumbers := congrArg (List.map Bytes.toNatBE) hwords
  rw [numbers_words, numbers_words] at hnumbers
  obtain ⟨hproof, hsignals⟩ := List.append_inj hnumbers (by rw [p.length_numbers, q.length_numbers])
  exact ⟨Groth16.Proof.numbers_injective hp hq hproof,
    List.map_injective_iff.mpr (fun x y hxy => Residue.ext hxy) hsignals⟩

/-! ### A call of a proof's bytes -/

theorem ofBytes_eq_ok_iff {proof : Bytes} :
    ofBytes proof signals = .ok d ↔
      ∃ p, Groth16.Proof.ofBytes proof = .ok p ∧ ofProof p signals = d := by
  unfold ofBytes
  cases Groth16.Proof.ofBytes proof <;> simp [Except.map]

/-- **The views of a call show the same words, and no other proof or scalars have them.** A proof
that can be read makes a call with every list of scalars. Its words, of 32 bytes each, spell the
coordinates of the proof's points, zeros for the point at infinity, and then the scalars; the bytes
are these words one after the other, and the JSON text and the bracketed text are read back as
them. Calls of the same bytes are of the same points and the same scalars. -/
theorem views_agree {proof : Bytes} {p : Groth16.Proof}
    (hproof : Groth16.Proof.ofBytes proof = .ok p) (signals : List Scalar) :
    ∃ d, ofBytes proof signals = .ok d ∧
      d.words.map Bytes.toNatBE = p.numbers ++ signals.map (·.val) ∧
      (∀ n ∈ p.numbers, n < basePrime) ∧
      (∀ w ∈ d.words, w.length = 32) ∧
      d.toBytes = d.words.flatten ∧
      d.toBytes.length = 32 * (8 + signals.length) ∧
      wordsOf? (Wire.calldata.write d.toText).render = some d.words ∧
      wordsOf? ("[" ++ d.toArguments ++ "]") = some d.words ∧
      ∀ proof' p' signals' d', Groth16.Proof.ofBytes proof' = .ok p' →
        ofBytes proof' signals' = .ok d' → d'.toBytes = d.toBytes →
          p' = p ∧ signals' = signals := by
  have hlengths : ∀ w ∈ (ofProof p signals).words, w.length = 32 :=
    fun w hw => length_of_mem_words hw
  have hne : ∀ w ∈ (ofProof p signals).words, w ≠ [] := by
    rintro w hw rfl
    exact absurd (hlengths _ hw) (by decide)
  refine ⟨ofProof p signals, ofBytes_eq_ok_iff.mpr ⟨p, hproof, rfl⟩, numbers_words p signals,
    p.numbers_lt, hlengths, rfl, length_toBytes p signals, wordsOf?_text hne,
    wordsOf?_arguments hne, fun proof' p' signals' d' hproof' hd' heq => ?_⟩
  obtain ⟨q, hq, rfl⟩ := ofBytes_eq_ok_iff.mp hd'
  obtain rfl := Except.ok.inj (hproof'.symm.trans hq)
  exact toBytes_injective (Groth16.Proof.ofBytes_onCurve hproof')
    (Groth16.Proof.ofBytes_onCurve hproof) heq

/-- Two generators and the point at infinity, with the least and the greatest scalar. -/
theorem views_agree_generators :
    let p : Groth16.Proof := ⟨.generator, .generator, .infinity⟩
    Groth16.Proof.ofBytes p.toBytes = .ok p ∧
      ∃ d, ofBytes p.toBytes [0, -1] = .ok d ∧ d.toBytes.length = 320 ∧
        d.words.map Bytes.toNatBE = [1, 2,
          11559732032986387107991004021392285783925812861821192530917403151452391805634,
          10857046999023057135944570762232829481370756359578518086990519993285655852781,
          4082367875863433681332203403145435568316851327593401208105741076214120093531,
          8495653923123431417604973247489272438418190587263600148770280649306958101930,
          0, 0, 0, Bn254.order - 1] ∧
        wordsOf? (Wire.calldata.write d.toText).render = some d.words ∧
        wordsOf? ("[" ++ d.toArguments ++ "]") = some d.words := by
  intro p
  have hproof : Groth16.Proof.ofBytes p.toBytes = .ok p :=
    eq_ok_of_toOption (by decide +kernel)
  obtain ⟨d, hd, hnumbers, -, -, -, hlength, htext, harguments, -⟩ := views_agree hproof [0, -1]
  exact ⟨hproof, d, hd, hlength, hnumbers, htext, harguments⟩

end Calldata

end Attest
