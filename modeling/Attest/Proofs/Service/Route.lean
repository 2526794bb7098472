import Mathlib.Data.String.Basic
import Attest.Predicate
import Attest.Service.Route

/-! What the paths of requests name.

A text with pieces between slashes is cut into these pieces (`Text.splitOn_intercalate`), so a path
is matched by the segments that it was made of, whatever name one of them is
(`Service.Route.ofTarget?_eq`). -/
namespace Attest.Text
open String

/-- A cut goes on from a place: the piece that it is in began behind `l` and is `m` so far. -/
theorem splitOnAux_slash (l m r : List Char) (acc : List String) :
    splitOnAux (ofList (l ++ m ++ r)) "/" ⟨utf8Len l⟩ ⟨utf8Len l + utf8Len m⟩ 0 acc =
      acc.reverse ++ (List.splitOnPPrepend (· == '/') r m.reverse).map ofList := by
  induction r generalizing l m acc with
  | nil =>
    have hend := (atEnd_of_valid (l ++ m) []).mpr rfl
    have hpiece := extract_of_valid l m []
    rw [utf8Len_append] at hend
    rw [splitOnAux, if_pos hend, hpiece]
    simp
  | cons c r ih =>
    have hend : ¬Pos.Raw.atEnd (ofList (l ++ m ++ c :: r)) ⟨utf8Len l + utf8Len m⟩ = true := by
      rw [← utf8Len_append, atEnd_of_valid]
      exact List.cons_ne_nil c r
    have hget := get_of_valid (l ++ m) (c :: r)
    have hnext := next_of_valid (l ++ m) c r
    have hpiece := extract_of_valid l m (c :: r)
    rw [utf8Len_append] at hget hnext
    have hslash : Pos.Raw.get "/" 0 = '/' ∧ Pos.Raw.next "/" 0 = ⟨1⟩ ∧
        Pos.Raw.atEnd "/" ⟨1⟩ = true := by decide
    rw [splitOnAux, if_neg hend, hget, hslash.1, List.splitOnPPrepend_cons_eq_if]
    by_cases hc : c = '/'
    · have hrest := ih (l ++ m ++ ['/']) [] (ofList m :: acc)
      subst hc
      simp only [List.headD_cons, beq_self_eq_true, if_true, hnext, hslash.2, Pos.Raw.unoffsetBy]
      have hsize : utf8Len l + utf8Len m + '/'.utf8Size = utf8Len (l ++ m ++ ['/']) := by
        simp [Nat.add_assoc]
      have hbehind : utf8Len l + utf8Len m + '/'.utf8Size - 1 = utf8Len l + utf8Len m := rfl
      rw [hbehind, hpiece, hsize]
      simpa using hrest
    · have hrest := ih l (m ++ [c]) acc
      have hne : ¬(c == '/') = true := by simpa using hc
      simp only [List.headD_cons, hne, Pos.Raw.unoffsetBy]
      have hsize : utf8Len l + utf8Len m + c.utf8Size = utf8Len l + utf8Len (m ++ [c]) := by
        simp [Nat.add_assoc]
      have hhere : utf8Len l + utf8Len m - (0 : Pos.Raw).byteIdx = utf8Len l + utf8Len m := rfl
      rw [hhere, hnext, hsize]
      simpa using hrest

/-- **A text is cut at every slash and nowhere else.** -/
theorem splitOn_slash (s : String) :
    s.splitOn "/" = (s.toList.splitOnP (· == '/')).map ofList := by
  have h := splitOnAux_slash [] [] s.toList []
  simpa [splitOn] using h

/-- Pieces without slashes are what the text with slashes between them is cut into. -/
theorem splitOn_intercalate {pieces : List (List Char)} (hne : pieces ≠ [])
    (h : ∀ piece ∈ pieces, '/' ∉ piece) :
    (ofList (['/'].intercalate pieces)).splitOn "/" = pieces.map ofList := by
  rw [splitOn_slash, toList_ofList]
  exact congrArg (List.map ofList) (List.splitOn_intercalate '/' h hne)

end Attest.Text

namespace Attest.Service.Route
variable {name : String}

/-- A path is matched by the segments between its slashes. -/
theorem ofTarget?_eq {path : String} (segments : List String) (hne : segments ≠ [])
    (hslash : ∀ segment ∈ segments, '/' ∉ segment.toList)
    (hpath : path.toList = ['/'].intercalate (segments.map String.toList)) :
    ofTarget? ⟨path⟩ = ofSegments? segments := by
  have htext : path = String.ofList (['/'].intercalate (segments.map String.toList)) := by
    rw [← hpath, String.ofList_toList]
  rw [ofTarget?, htext, Text.splitOn_intercalate (by simpa using hne) (by simpa using hslash)]
  congr 1
  simp

/-- **The path of a verification names its circuit**, in a segment that holds no slash. -/
theorem ofTarget?_verify (h : '/' ∉ name.toList) :
    ofTarget? ⟨s!"/api/v1/proofs/{name}/verify"⟩ = some (.verify (segmentName name)) :=
  ofTarget?_eq ["", "api", "v1", "proofs", name, "verify"] (List.cons_ne_nil _ _)
    (by simp [h]) (by simp [toString, List.intercalate])

theorem ofTarget?_generate (h : '/' ∉ name.toList) :
    ofTarget? ⟨s!"/api/v1/proofs/{name}/generate"⟩ = some (.generate (segmentName name)) :=
  ofTarget?_eq ["", "api", "v1", "proofs", name, "generate"] (List.cons_ne_nil _ _)
    (by simp [h]) (by simp [toString, List.intercalate])

theorem ofTarget?_verifyingKey (h : '/' ∉ name.toList) :
    ofTarget? ⟨s!"/api/v1/circuits/{name}/vk"⟩ = some (.verifyingKey (segmentName name)) :=
  ofTarget?_eq ["", "api", "v1", "circuits", name, "vk"] (List.cons_ne_nil _ _)
    (by simp [h]) (by simp [toString, List.intercalate])

theorem ofTarget?_commitment :
    ofTarget? ⟨"/api/v1/claims/commitment"⟩ = some .commitment :=
  ofTarget?_eq ["", "api", "v1", "claims", "commitment"] (List.cons_ne_nil _ _) (by simp)
    (by simp [List.intercalate])

theorem ofTarget?_allowListRoot :
    ofTarget? ⟨"/api/v1/allowlists/root"⟩ = some .allowListRoot :=
  ofTarget?_eq ["", "api", "v1", "allowlists", "root"] (List.cons_ne_nil _ _) (by simp)
    (by simp [List.intercalate])

theorem ofTarget?_allowListProof :
    ofTarget? ⟨"/api/v1/allowlists/proof"⟩ = some .allowListProof :=
  ofTarget?_eq ["", "api", "v1", "allowlists", "proof"] (List.cons_ne_nil _ _) (by simp)
    (by simp [List.intercalate])

/-- The name of a predicate stands for itself in a path. -/
theorem segmentName_name (p : Predicate) :
    '/' ∉ p.name.toList ∧ segmentName p.name = some p.name := by
  cases p with
  | threshold => exact ⟨by decide, by decide +kernel⟩
  | membership => exact ⟨by decide, by decide +kernel⟩

end Attest.Service.Route
