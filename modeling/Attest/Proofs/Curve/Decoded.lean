import Attest.Groth16.Keys
import Attest.Proofs.Assembly
import Attest.Proofs.Ring

/-! Points that are read are on their curve.

A square root that is found is one (`Base.sqrt?_sound`, `Quadratic.sqrt?_sound`), whichever of the
two roots the flag asks for; so a point that is read satisfies the equation of its curve
(`Point.read_onCurve`), and so do the three of a proof (`Proof.ofBytes_onCurve`). The pair of
zeros is on neither curve (`G1.not_onCurve_zero`, `G2.not_onCurve_zero`), which leaves it free to
stand for the point at infinity. -/
namespace Attest.Bn254

/-! ### Square roots -/

namespace Base

theorem sqrtInv?_sound {a root inverse : Base} (h : sqrtInv? a = some (root, inverse)) :
    root * root = a := by
  unfold sqrtInv? at h
  dsimp only at h
  split at h
  · next hroot =>
    obtain ⟨rfl, -⟩ := Prod.ext_iff.mp (Option.some.inj h)
    exact hroot
  · exact nomatch h

theorem sqrt?_sound {a root : Base} (h : sqrt? a = some root) : root * root = a := by
  obtain ⟨⟨_, inverse⟩, hroots, rfl⟩ := Option.map_eq_some_iff.mp h
  exact sqrtInv?_sound hroots

end Base

namespace Quadratic

theorem ext {a b : Quadratic} (hre : a.re = b.re) (him : a.im = b.im) : a = b := by
  cases a
  cases b
  congr

theorem re_mul (a b : Quadratic) : (a * b).re = a.re * b.re - a.im * b.im :=
  Residue.mulSub_eq ..

theorem im_mul (a b : Quadratic) : (a * b).im = a.re * b.im + a.im * b.re :=
  Residue.mulAdd_eq ..

theorem re_neg (a : Quadratic) : (-a).re = -a.re := rfl

theorem im_neg (a : Quadratic) : (-a).im = -a.im := rfl

theorem rootFrom?_sound {a root : Quadratic} {delta : Base} (h : rootFrom? a delta = some root) :
    root * root = a := by
  obtain ⟨⟨re, inverse⟩, -, h⟩ := Option.bind_eq_some_iff.mp h
  dsimp only at h
  split at h
  · next hroot =>
    obtain rfl := Option.some.inj h
    exact hroot
  · exact nomatch h

theorem sqrt?_sound {a root : Quadratic} (h : sqrt? a = some root) : root * root = a := by
  unfold sqrt? at h
  split at h
  · next him =>
    -- a real number has a real root or an imaginary one
    split at h
    · next s hs =>
      obtain rfl := Option.some.inj h
      have hsquare := Base.sqrt?_sound hs
      refine ext ?_ ?_
      · rw [re_mul, hsquare]
        ring
      · rw [im_mul, him]
        ring
    · obtain ⟨s, hs, rfl⟩ := Option.map_eq_some_iff.mp h
      have hsquare := Base.sqrt?_sound hs
      refine ext ?_ ?_
      · rw [re_mul, hsquare]
        ring
      · rw [im_mul, him]
        ring
  · obtain ⟨n, -, h⟩ := Option.bind_eq_some_iff.mp h
    rcases Option.or_eq_some_iff.mp h with h | ⟨-, h⟩
    · exact rootFrom?_sound h
    · exact rootFrom?_sound h

end Quadratic

/-! ### Points -/

/-- Two readings in a row succeed when both do. -/
theorem Reader.bind_run_eq_ok_iff {α β : Type} {read : Reader α} {f : α → Reader β} {bs : Bytes}
    {b : β × Bytes} : (read >>= f).run bs = .ok b ↔
      ∃ a rest, read.run bs = .ok (a, rest) ∧ (f a).run rest = .ok b := by
  rw [StateT.run_bind, bind_eq_ok_iff, Prod.exists]

/-- Roots that are found are roots, and so are their negations. -/
structure Compressible.Rooted (F : Type) [Compressible F] : Prop where
  sqrt?_sound : ∀ {a root : F}, Compressible.sqrt? a = some root → root * root = a
  neg_mul_neg : ∀ y : F, -y * -y = y * y

theorem Base.rooted : Compressible.Rooted Base where
  sqrt?_sound := Base.sqrt?_sound
  neg_mul_neg y := by ring

theorem Quadratic.rooted : Compressible.Rooted Quadratic where
  sqrt?_sound := Quadratic.sqrt?_sound
  neg_mul_neg y := Quadratic.ext (by rw [re_mul, re_mul, re_neg, im_neg]; ring)
    (by rw [im_mul, im_mul, re_neg, im_neg]; ring)

namespace Point

theorem lift?_onCurve {F : Type} [Compressible F] (hF : Compressible.Rooted F) {x : F}
    {sign : Sign} {p : Point F} (h : lift? x sign = some p) : p.OnCurve := by
  have hroot {sign : Sign} {y : F} (hy : y * y = rightSide x) :
      (affine x (if sign = .larger then (if y < -y then (y, -y) else (-y, y)).2
        else (if y < -y then (y, -y) else (-y, y)).1)).OnCurve := by
    have hminus : -y * -y = rightSide x := (hF.neg_mul_neg y).trans hy
    split <;> split <;> assumption
  unfold lift? at h
  split at h
  · obtain rfl := Option.some.inj h
    trivial
  · obtain ⟨y, hy, rfl⟩ := Option.map_eq_some_iff.mp h
    exact hroot (hF.sqrt?_sound hy)

/-- **A point that is read is on the curve.** -/
theorem read_onCurve {F : Type} [Compressible F] (hF : Compressible.Rooted F) {bs rest : Bytes}
    {p : Point F} (h : read.run bs = .ok (p, rest)) : p.OnCurve := by
  obtain ⟨q, left, hread, h⟩ := Reader.bind_run_eq_ok_iff.mp h
  obtain ⟨_, _, -, h⟩ := Reader.bind_run_eq_ok_iff.mp h
  obtain ⟨rfl, -⟩ := Prod.ext_iff.mp (Except.ok.inj h)
  obtain ⟨⟨x, sign⟩, _, -, hlift⟩ := Reader.bind_run_eq_ok_iff.mp hread
  dsimp only at hlift
  split at hlift
  · next p hp =>
    obtain ⟨rfl, -⟩ := Prod.ext_iff.mp (Except.ok.inj hlift)
    exact lift?_onCurve hF hp
  · exact nomatch hlift

end Point

/-! ### What a pair of coordinates stands for -/

/-- The coordinates of a point as they are written down, zeros for the point at infinity. -/
def G1.numbers : G1 → List Nat
  | .infinity => [0, 0]
  | .affine x y => [x.val, y.val]

/-- The coordinates of a point as they are written down, each with its imaginary part first. -/
def G2.numbers : G2 → List Nat
  | .infinity => [0, 0, 0, 0]
  | .affine x y => [x.im.val, x.re.val, y.im.val, y.re.val]

theorem G1.not_onCurve_zero : ¬(.affine 0 0 : G1).OnCurve := by
  have hzero : (0 * 0 : Base) ≠ Point.rightSide 0 := by decide +kernel
  exact hzero

theorem G2.not_onCurve_zero : ¬(.affine 0 0 : G2).OnCurve := by
  have hzero : (0 * 0 : Quadratic) ≠ Point.rightSide 0 := by decide +kernel
  exact hzero

/-- **A point of the first curve is known by its coordinates**, the point at infinity by zeros. -/
theorem G1.numbers_injective {p q : G1} (hp : p.OnCurve) (hq : q.OnCurve)
    (h : p.numbers = q.numbers) : p = q := by
  have hzero {x y : Base} (hon : (.affine x y : G1).OnCurve) (h : [x.val, y.val] = [0, 0]) :
      False := by
    simp only [List.cons.injEq, and_true] at h
    obtain ⟨hx, hy⟩ := h
    have hx : x = 0 := Residue.ext hx
    have hy : y = 0 := Residue.ext hy
    subst hx hy
    exact G1.not_onCurve_zero hon
  cases p with
  | infinity =>
    cases q with
    | infinity => rfl
    | affine x y => exact (hzero hq h.symm).elim
  | affine x y =>
    cases q with
    | infinity => exact (hzero hp h).elim
    | affine x' y' =>
      simp only [numbers, List.cons.injEq, and_true, ← Residue.ext_iff] at h
      obtain ⟨rfl, rfl⟩ := h
      rfl

/-- **A point of the second curve is known by its coordinates**, the point at infinity by zeros. -/
theorem G2.numbers_injective {p q : G2} (hp : p.OnCurve) (hq : q.OnCurve)
    (h : p.numbers = q.numbers) : p = q := by
  have hzero {x y : Quadratic} (hon : (.affine x y : G2).OnCurve)
      (h : [x.im.val, x.re.val, y.im.val, y.re.val] = [0, 0, 0, 0]) : False := by
    simp only [List.cons.injEq, and_true] at h
    obtain ⟨hxi, hxr, hyi, hyr⟩ := h
    have hx : x = 0 := Quadratic.ext (Residue.ext hxr) (Residue.ext hxi)
    have hy : y = 0 := Quadratic.ext (Residue.ext hyr) (Residue.ext hyi)
    subst hx hy
    exact G2.not_onCurve_zero hon
  cases p with
  | infinity =>
    cases q with
    | infinity => rfl
    | affine x y => exact (hzero hq h.symm).elim
  | affine x y =>
    cases q with
    | infinity => exact (hzero hp h).elim
    | affine x' y' =>
      simp only [numbers, List.cons.injEq, and_true, ← Residue.ext_iff] at h
      obtain ⟨hxi, hxr, hyi, hyr⟩ := h
      have hx : x = x' := Quadratic.ext hxr hxi
      have hy : y = y' := Quadratic.ext hyr hyi
      rw [hx, hy]

end Attest.Bn254

namespace Attest.Groth16
open Bn254

theorem decode_eq_ok_iff {α : Type} {read : Reader α} {bs : Bytes} {a : α} :
    decode read bs = .ok a ↔ ∃ rest, read.run bs = .ok (a, rest) := by
  unfold decode
  cases read.run bs <;> simp [Except.map, Prod.ext_iff]

namespace Proof

/-- The coordinates of a proof's points in the order in which a contract takes them. -/
def numbers (p : Proof) : List Nat := p.a.numbers ++ p.b.numbers ++ p.c.numbers

/-- All three points are on their curve. -/
structure OnCurve (p : Proof) : Prop where
  a : p.a.OnCurve
  b : p.b.OnCurve
  c : p.c.OnCurve

/-- **The points of a proof that is read are on their curves.** -/
theorem ofBytes_onCurve {bs : Bytes} {p : Proof} (h : ofBytes bs = .ok p) : p.OnCurve := by
  obtain ⟨_, hrun⟩ := decode_eq_ok_iff.mp (mapError_eq_ok_iff.mp h)
  obtain ⟨a, _, ha, hrun⟩ := Reader.bind_run_eq_ok_iff.mp hrun
  obtain ⟨b, _, hb, hrun⟩ := Reader.bind_run_eq_ok_iff.mp hrun
  obtain ⟨c, _, hc, hrun⟩ := Reader.bind_run_eq_ok_iff.mp hrun
  obtain ⟨rfl, -⟩ := Prod.ext_iff.mp (Except.ok.inj hrun)
  exact ⟨Point.read_onCurve Base.rooted ha, Point.read_onCurve Quadratic.rooted hb,
    Point.read_onCurve Base.rooted hc⟩

theorem length_numbers (p : Proof) : p.numbers.length = 8 := by
  obtain ⟨a, b, c⟩ := p
  cases a <;> cases b <;> cases c <;> rfl

theorem numbers_lt (p : Proof) : ∀ n ∈ p.numbers, n < basePrime := by
  have hzero : 0 < basePrime := by decide
  have hfirst (p : G1) : ∀ n ∈ p.numbers, n < basePrime := by
    cases p <;> simp [G1.numbers, hzero, Residue.isLt]
  have hsecond (p : G2) : ∀ n ∈ p.numbers, n < basePrime := by
    cases p <;> simp [G2.numbers, hzero, Residue.isLt]
  intro n hn
  rcases List.mem_append.mp hn with hn | hn
  · rcases List.mem_append.mp hn with hn | hn
    · exact hfirst p.a n hn
    · exact hsecond p.b n hn
  · exact hfirst p.c n hn

/-- **A proof of points on their curves is known by its coordinates.** -/
theorem numbers_injective {p q : Proof} (hp : p.OnCurve) (hq : q.OnCurve)
    (h : p.numbers = q.numbers) : p = q := by
  have hlength (p : G1) : p.numbers.length = 2 := by cases p <;> rfl
  have hpairs := List.append_inj' h (by rw [hlength, hlength])
  have hpair := List.append_inj hpairs.1 (by rw [hlength, hlength])
  have ha := G1.numbers_injective hp.a hq.a hpair.1
  have hb := G2.numbers_injective hp.b hq.b hpair.2
  have hc := G1.numbers_injective hp.c hq.c hpairs.2
  cases p
  cases q
  cases ha
  cases hb
  cases hc
  rfl

end Proof

end Attest.Groth16
