import Attest.Proofs.Curve.Chunk

/-! Points and their bytes, one for one.

A row of bytes spells at most one point of the curve (`Chunk.Spells`), and what is read is what the
bytes spell, if it is in the group (`Point.read_eq_ok_iff`). A point's own bytes spell it, and but
for the point at infinity no others do (`Point.spells_write`, `Chunk.Spells.write_eq`). Bytes
that spell no point of the group have one of four flaws (`Chunk.flawed_iff`). A list of points is
read from its count and as many rows (`Point.readList_eq_ok_iff`). -/
namespace Attest.Bn254

open LawfulCompressible (width chunk)

variable {F : Type} [CompressibleField F] [LawfulCompressible F]

/-- The bytes spell a point of the curve: its `x`, and which of the two `y` is meant. -/
inductive Chunk.Spells (k : Chunk) : Point F → Prop
  | infinity (x : F) (hx : k.numbers = LawfulCompressible.numbers x)
    (hsign : k.sign? = some .infinity) : Spells k .infinity
  | affine {x y : F} (sign : Sign) (hx : k.numbers = LawfulCompressible.numbers x)
    (hsign : k.sign? = some sign) (hfinite : sign ≠ .infinity)
    (hp : (Point.affine x y).OnCurve) (hlarger : sign = .larger ↔ -y < y) : Spells k (.affine x y)

variable (F) in
/-- What keeps bytes from spelling a point of the group. -/
inductive Chunk.Flawed (k : Chunk) : Prop
  | coordinate (n : Nat) (hn : n ∈ k.numbers) (hle : basePrime ≤ n)
  | flags (hlarger : k.larger = true) (hinfinity : k.infinity = true)
  | offCurve (x : F) (hx : k.numbers = LawfulCompressible.numbers x)
    (hinfinity : k.infinity = false) (hp : ∀ y, ¬(Point.affine x y).OnCurve)
  | outside (x y : F) (hx : k.numbers = LawfulCompressible.numbers x)
    (hinfinity : k.infinity = false) (hp : (Point.affine x y).OnCurve)
    (hout : ¬(Point.affine x y).InGroup)

variable {k : Chunk} {x y : F} {p : Point F} {sign : Sign} {bs rest : Bytes}

/-! ### Roots by their order -/

theorem neg_lt_or_lt_neg (h : (Point.affine x y).OnCurve) : -y < y ∨ y < -y :=
  LawfulCompressible.lt_or_lt (ne_neg (y_ne_zero h)).symm

/-- Of the two points at one `x`, their order tells which is meant. -/
theorem root_unique {z : F} (hy : (Point.affine x y).OnCurve) (hz : (Point.affine x z).OnCurve)
    (h : -y < y ↔ -z < z) : y = z := by
  have hsquare : y * y = z * z := hy.trans hz.symm
  refine (mul_self_eq_mul_self_iff.mp hsquare).resolve_right ?_
  rintro rfl
  rw [neg_neg] at h
  rcases neg_lt_or_lt_neg hz with hlt | hlt
  · exact LawfulCompressible.lt_asymm hlt (h.mpr hlt)
  · exact LawfulCompressible.lt_asymm hlt (h.mp hlt)

namespace Point

theorem lift?_sound (hfinite : sign ≠ .infinity) (h : lift? x sign = some p) :
    ∃ y, p = .affine x y ∧ (Point.affine x y).OnCurve ∧ (sign = .larger ↔ -y < y) := by
  unfold lift? at h
  split at h
  · exact absurd rfl hfinite
  · obtain ⟨y, hroot, h⟩ := Option.map_eq_some_iff.mp h
    have hy : y * y = rightSide x := LawfulCompressible.sqrt?_sound hroot
    have hneg : -y * -y = rightSide x := (neg_mul_neg y y).trans hy
    dsimp only at h
    by_cases hlt : y < -y
    · rw [if_pos hlt] at h
      by_cases hsign : sign = .larger
      · rw [if_pos hsign] at h
        exact ⟨_, h.symm, hneg, iff_of_true hsign (by rwa [neg_neg])⟩
      · rw [if_neg hsign] at h
        exact ⟨_, h.symm, hy, iff_of_false hsign (LawfulCompressible.lt_asymm hlt)⟩
    · rw [if_neg hlt] at h
      by_cases hsign : sign = .larger
      · rw [if_pos hsign] at h
        exact ⟨_, h.symm, hy, iff_of_true hsign ((neg_lt_or_lt_neg hy).resolve_right hlt)⟩
      · rw [if_neg hsign] at h
        exact ⟨_, h.symm, hneg, iff_of_false hsign (by rwa [neg_neg])⟩

/-- Where the curve has a point, one is found. -/
theorem exists_lift? (sign : Sign) (h : (Point.affine x y).OnCurve) :
    ∃ q, lift? x sign = some q := by
  obtain ⟨root, hroot⟩ := LawfulCompressible.sqrt?_mul_self y
  have hsquare : rightSide x = y * y := h.symm
  unfold lift?
  rw [hsquare, hroot]
  split <;> exact ⟨_, rfl⟩

/-- The point at `x` that the sign means is found. -/
theorem lift?_eq_some_iff (hfinite : sign ≠ .infinity) : lift? x sign = some p ↔
    ∃ y, p = .affine x y ∧ (Point.affine x y).OnCurve ∧ (sign = .larger ↔ -y < y) := by
  refine ⟨lift?_sound hfinite, ?_⟩
  rintro ⟨y, rfl, hy, hlarger⟩
  obtain ⟨q, hq⟩ := exists_lift? sign hy
  obtain ⟨z, rfl, hz, hlarger'⟩ := lift?_sound hfinite hq
  rw [hq, root_unique hz hy (hlarger'.symm.trans hlarger)]

end Point

/-! ### Bytes of a point -/

namespace Chunk

theorem sign?_eq_none_iff : k.sign? = none ↔ k.larger = true ∧ k.infinity = true := by
  unfold sign?
  split <;> simp_all

theorem infinity_of_sign? (h : k.sign? = some sign) : k.infinity = true ↔ sign = .infinity := by
  unfold sign? at h
  split at h <;> cases h <;> simp_all

theorem Spells.onCurve (h : k.Spells p) : p.OnCurve := by
  cases h with
  | infinity => trivial
  | affine _ _ _ _ hp => exact hp

/-- Bytes that do not say infinity and spell a point are the point's own. -/
theorem Spells.write_eq (h : (chunk F bs).Spells p) (hlength : bs.length = width F)
    (hinfinity : (chunk F bs).infinity = false) : p.write = bs := by
  cases h with
  | infinity x hx hsign =>
    rw [(infinity_of_sign? hsign).mpr rfl] at hinfinity
    exact nomatch hinfinity
  | @affine x y sign hx hsign hfinite hp hlarger =>
    refine ((LawfulCompressible.write_iff hlength).mp ⟨hx, ?_⟩).symm
    rw [hsign]
    by_cases hlt : -y < y
    · rw [if_pos hlt, hlarger.mpr hlt]
    · rw [if_neg hlt]
      cases sign with
      | smaller => rfl
      | larger => exact absurd (hlarger.mp rfl) hlt
      | infinity => exact absurd rfl hfinite

theorem Spells.exists_numbers (h : k.Spells p) :
    ∃ x : F, k.numbers = LawfulCompressible.numbers x := by
  cases h with
  | infinity x hx => exact ⟨x, hx⟩
  | affine _ hx => exact ⟨_, hx⟩

theorem Flawed.not_spells (h : k.Flawed F) (hspells : k.Spells p) : ¬p.InGroup := by
  intro hgroup
  cases h with
  | coordinate n hn hle =>
    obtain ⟨x, hx⟩ := hspells.exists_numbers
    exact absurd (LawfulCompressible.numbers_lt x n (hx ▸ hn)) (Nat.not_lt.mpr hle)
  | flags hlarger hinfinity =>
    have hnone := sign?_eq_none_iff.mpr ⟨hlarger, hinfinity⟩
    cases hspells with
    | infinity _ _ hsign => exact nomatch hnone.symm.trans hsign
    | affine _ _ hsign => exact nomatch hnone.symm.trans hsign
  | offCurve x hx hinfinity hp =>
    cases hspells with
    | infinity _ _ hsign => exact nomatch hinfinity.symm.trans ((infinity_of_sign? hsign).mpr rfl)
    | affine _ hx' _ _ hp' =>
      obtain rfl := LawfulCompressible.numbers_injective (hx.symm.trans hx')
      exact hp _ hp'
  | outside x y hx hinfinity hp hout =>
    cases hspells with
    | infinity _ _ hsign => exact nomatch hinfinity.symm.trans ((infinity_of_sign? hsign).mpr rfl)
    | affine _ hx' _ _ hp' =>
      obtain rfl := LawfulCompressible.numbers_injective (hx.symm.trans hx')
      -- one of the two points at `x` is in the group when the other one is
      rcases mul_self_eq_mul_self_iff.mp (hp.trans hp'.symm) with rfl | rfl
      · exact hout hgroup
      · exact hout hgroup.neg

/-- **Bytes spell no point of the group just when they are flawed** in one of the four ways. -/
theorem flawed_iff : (chunk F bs).Flawed F ↔ ∀ p : Point F, (chunk F bs).Spells p → ¬p.InGroup := by
  refine ⟨fun h p => h.not_spells, fun h => ?_⟩
  by_cases hcanonical : ∀ n ∈ (chunk F bs).numbers, n < basePrime
  · obtain ⟨x, hx⟩ := LawfulCompressible.exists_numbers hcanonical
    cases hsign : (chunk F bs).sign? with
    | none =>
      obtain ⟨hlarger, hinfinity⟩ := sign?_eq_none_iff.mp hsign
      exact .flags hlarger hinfinity
    | some sign =>
      by_cases hfinite : sign = .infinity
      · subst hfinite
        exact absurd Point.inGroup_infinity (h _ (.infinity x hx hsign))
      · have hinfinity : (chunk F bs).infinity = false :=
          Bool.eq_false_iff.mpr (mt (infinity_of_sign? hsign).mp hfinite)
        -- without the other flaws the bytes spell a point, so it is out of the group
        by_cases hcurve : ∃ y, (Point.affine x y).OnCurve
        · obtain ⟨y, hy⟩ := hcurve
          obtain ⟨q, hq⟩ := Point.exists_lift? sign hy
          obtain ⟨z, rfl, hz, hlarger⟩ := Point.lift?_sound hfinite hq
          exact .outside x z hx hinfinity hz (h _ (.affine sign hx hsign hfinite hz hlarger))
        · exact .offCurve x hx hinfinity (not_exists.mp hcurve)
  · obtain ⟨n, hn, hle⟩ : ∃ n ∈ (chunk F bs).numbers, ¬n < basePrime := by
      simpa only [not_forall, exists_prop] using hcanonical
    exact .coordinate n hn (Nat.not_lt.mp hle)

end Chunk

namespace Point

theorem length_write (p : Point F) : p.write.length = width F := by
  cases p <;> exact LawfulCompressible.length_write ..

/-- A point's own bytes spell it. -/
theorem spells_write (h : p.OnCurve) : (chunk F p.write).Spells p := by
  have hsaid (x : F) (sign : Sign) := (LawfulCompressible.write_iff
    (LawfulCompressible.length_write x sign)).mpr rfl
  cases p with
  | infinity =>
    obtain ⟨hx, hsign⟩ := hsaid 0 .infinity
    exact .infinity 0 hx hsign
  | affine x y =>
    obtain ⟨hx, hsign⟩ := hsaid x (if -y < y then .larger else .smaller)
    refine .affine _ hx hsign ?_ h ?_
    · split <;> exact nofun
    · split
      · next hlt => exact iff_of_true rfl hlt
      · next hlt => exact iff_of_false nofun hlt

/-! ### Reading -/

theorem readUnchecked_eq_ok_iff : readUnchecked.run bs = .ok (p, rest) ↔
    width F ≤ bs.length ∧ rest = bs.drop (width F) ∧
      (chunk F (bs.take (width F))).Spells p := by
  unfold readUnchecked
  rw [Reader.bind_run_eq_ok_iff]
  simp only [Prod.exists, LawfulCompressible.read_iff]
  constructor
  · rintro ⟨x, sign, _, ⟨hle, rfl, hx, hsign⟩, hrun⟩
    split at hrun
    · next q hlift =>
      obtain ⟨rfl, rfl⟩ := Prod.ext_iff.mp (Except.ok.inj hrun)
      refine ⟨hle, rfl, ?_⟩
      by_cases hfinite : sign = .infinity
      · subst hfinite
        obtain rfl := Option.some.inj hlift
        exact .infinity x hx hsign
      · obtain ⟨y, rfl, hp, hlarger⟩ := lift?_sound hfinite hlift
        exact .affine sign hx hsign hfinite hp hlarger
    · exact nomatch hrun
  · rintro ⟨hle, rfl, hspells⟩
    cases hspells with
    | infinity x hx hsign => exact ⟨x, .infinity, _, ⟨hle, rfl, hx, hsign⟩, rfl⟩
    | @affine x y sign hx hsign hfinite hp hlarger =>
      refine ⟨x, sign, _, ⟨hle, rfl, hx, hsign⟩, ?_⟩
      rw [(lift?_eq_some_iff hfinite).mpr ⟨y, rfl, hp, hlarger⟩]
      rfl

/-- The check is the membership that it stands for. -/
theorem check_eq_ok_iff (h : p.OnCurve) : check p = .ok () ↔ p.InGroup := by
  obtain ⟨P, rfl⟩ := h.exists_toPoint
  have hgroup : P.toPoint.InGroup ↔ order • P = 0 := by
    refine ⟨fun ⟨Q, hQ, hzero⟩ => ?_, fun hzero => ⟨P, rfl, hzero⟩⟩
    rwa [Group.toPoint_injective hQ] at hzero
  rw [hgroup, ← LawfulCompressible.inSubgroup_iff]
  cases P with
  | zero =>
    refine iff_of_true rfl ((LawfulCompressible.inSubgroup_iff (F := F) 0).mpr (nsmul_zero order))
  | some x y hP =>
    show (if Compressible.inSubgroup (affine x y) then Except.ok ()
      else .error DecodeError.invalidData) = .ok () ↔ _
    split
    · next hin => exact iff_of_true rfl hin
    · next hin => exact iff_of_false nofun hin

/-- The row of bytes is a point's of the group. -/
structure ReadFrom (row : Bytes) (p : Point F) : Prop where
  spells : (chunk F row).Spells p
  inGroup : p.InGroup

/-- **A point is read where the row of bytes in front is one's of the group**, and no byte behind it
is looked at. -/
theorem read_eq_ok_iff : read.run bs = .ok (p, rest) ↔
    width F ≤ bs.length ∧ rest = bs.drop (width F) ∧ ReadFrom (bs.take (width F)) p := by
  unfold read
  simp only [Reader.bind_run_eq_ok_iff, readUnchecked_eq_ok_iff, Reader.lift_run_eq_ok_iff]
  constructor
  · rintro ⟨q, _, ⟨hle, rfl, hspells⟩, _, _, ⟨hcheck, rfl⟩, hpure⟩
    obtain ⟨rfl, rfl⟩ := Prod.ext_iff.mp (Except.ok.inj hpure)
    exact ⟨hle, rfl, hspells, (check_eq_ok_iff hspells.onCurve).mp hcheck⟩
  · rintro ⟨hle, rfl, hspells, hgroup⟩
    exact ⟨p, _, ⟨hle, rfl, hspells⟩, (), _,
      ⟨(check_eq_ok_iff hspells.onCurve).mpr hgroup, rfl⟩, rfl⟩

theorem InGroup.readFrom_write (h : p.InGroup) : ReadFrom p.write p := ⟨spells_write h.onCurve, h⟩

/-- **A point of the group is read back.** -/
theorem InGroup.read_write (h : p.InGroup) (rest : Bytes) :
    read.run (p.write ++ rest) = .ok (p, rest) := by
  rw [read_eq_ok_iff, List.length_append, List.take_left' (length_write p),
    List.drop_left' (length_write p), length_write]
  exact ⟨by omega, rfl, h.readFrom_write⟩

/-- **Every row is a point's of the group or flawed.** -/
theorem exists_readFrom_iff {row : Bytes} :
    (∃ p : Point F, ReadFrom row p) ↔ ¬(chunk F row).Flawed F := by
  rw [Chunk.flawed_iff]
  push Not
  exact exists_congr fun p => ⟨fun h => ⟨h.spells, h.inGroup⟩, fun h => ⟨h.1, h.2⟩⟩

/-! ### Lists -/

/-- The first rows of a width. -/
def rows (width : Nat) : Nat → Bytes → List Bytes
  | 0, _ => []
  | n + 1, bs => bs.take width :: rows width n (bs.drop width)

theorem length_rows (width n : Nat) (bs : Bytes) : (rows width n bs).length = n := by
  induction n generalizing bs with
  | zero => rfl
  | succ n ih => exact congrArg Nat.succ (ih _)

theorem rows_write (ps : List (Point F)) (rest : Bytes) :
    rows (width F) ps.length (ps.flatMap write ++ rest) = ps.map write := by
  induction ps with
  | nil => rfl
  | cons p ps ih =>
    rw [List.length_cons, rows, List.flatMap_cons, List.append_assoc,
      List.take_left' (length_write p), List.drop_left' (length_write p), ih, List.map_cons]

theorem length_writes (ps : List (Point F)) : (ps.flatMap write).length = width F * ps.length := by
  induction ps with
  | nil => rfl
  | cons p ps ih =>
    rw [List.flatMap_cons, List.length_append, length_write, ih, List.length_cons, Nat.mul_succ,
      add_comm]

/-- Rows without the flag of infinity are what is written. -/
theorem writes_eq {ps : List (Point F)} {n : Nat} (hlength : width F * n ≤ bs.length)
    (h : List.Forall₂ ReadFrom (rows (width F) n bs) ps)
    (hfinite : ∀ row ∈ rows (width F) n bs, (chunk F row).infinity = false) :
    ps.flatMap write = bs.take (width F * n) := by
  induction n generalizing bs ps with
  | zero =>
    cases h
    rfl
  | succ n ih =>
    rw [Nat.mul_succ] at hlength
    obtain ⟨hrow, hrows⟩ := List.forall_mem_cons.mp hfinite
    cases h with
    | cons hfirst hrest =>
      rw [List.flatMap_cons, ih (by rw [List.length_drop]; omega) hrest hrows,
        hfirst.spells.write_eq (List.length_take_of_le (by omega)) hrow, Nat.mul_succ, add_comm,
        List.take_add]

theorem readMany_eq_ok_iff {n : Nat} {ps : List (Point F)} : (readMany n).run bs = .ok (ps, rest) ↔
    width F * n ≤ bs.length ∧ rest = bs.drop (width F * n) ∧
      List.Forall₂ (fun row p => (chunk F row).Spells p) (rows (width F) n bs) ps := by
  induction n generalizing bs ps rest with
  | zero =>
    have hrun : (readMany 0 : Reader (List (Point F))).run bs = .ok ([], bs) := rfl
    rw [hrun, Except.ok.injEq, Prod.mk.injEq, rows, List.forall₂_nil_left_iff, mul_zero,
      List.drop_zero, eq_comm (a := bs), eq_comm (a := [])]
    exact ⟨fun ⟨hps, hrest⟩ => ⟨Nat.zero_le _, hrest, hps⟩, fun ⟨_, hrest, hps⟩ => ⟨hps, hrest⟩⟩
  | succ n ih =>
    simp only [readMany, Reader.bind_run_eq_ok_iff, readUnchecked_eq_ok_iff, ih, rows,
      List.forall₂_cons_left_iff, Nat.mul_succ, add_comm (width F * n)]
    constructor
    · rintro ⟨p, _, ⟨hle, rfl, hp⟩, ps, _, ⟨hle', rfl, hps⟩, hpure⟩
      obtain ⟨rfl, rfl⟩ := Prod.ext_iff.mp (Except.ok.inj hpure)
      rw [List.length_drop] at hle'
      exact ⟨by omega, List.drop_drop, p, ps, hp, hps, rfl⟩
    · rintro ⟨hle, rfl, p, ps, hp, hps, rfl⟩
      refine ⟨p, _, ⟨by omega, rfl, hp⟩, ps, _, ⟨?_, rfl, hps⟩, ?_⟩
      · rw [List.length_drop]
        omega
      · rw [List.drop_drop]
        rfl

omit [LawfulCompressible F] in
/-- All points of a list are checked. -/
theorem checkAll_eq_ok_iff {ps : List (Point F)} :
    (ps.forM fun p => (liftM (check p) : Reader Unit)).run bs = .ok ((), rest) ↔
      (∀ p ∈ ps, check p = .ok ()) ∧ rest = bs := by
  induction ps with
  | nil =>
    have hrun : (([] : List (Point F)).forM fun p => (liftM (check p) : Reader Unit)).run bs =
      .ok ((), bs) := rfl
    rw [hrun, Except.ok.injEq, Prod.mk.injEq, eq_comm (a := bs)]
    simp
  | cons p ps ih =>
    have hcons : ((p :: ps).forM fun p => (liftM (check p) : Reader Unit)) =
      liftM (check p) >>= fun _ => ps.forM fun p => liftM (check p) := rfl
    simp only [hcons, Reader.bind_run_eq_ok_iff, Reader.lift_run_eq_ok_iff, List.forall_mem_cons]
    constructor
    · rintro ⟨_, _, ⟨hp, rfl⟩, hrun⟩
      obtain ⟨hps, rfl⟩ := ih.mp hrun
      exact ⟨⟨hp, hps⟩, rfl⟩
    · rintro ⟨⟨hp, hps⟩, rfl⟩
      exact ⟨(), _, ⟨hp, rfl⟩, ih.mpr ⟨hps, rfl⟩⟩

theorem forall₂_readFrom_iff {rs : List Bytes} {ps : List (Point F)} :
    List.Forall₂ ReadFrom rs ps ↔
      List.Forall₂ (fun row p => (chunk F row).Spells p) rs ps ∧ ∀ p ∈ ps, check p = .ok () := by
  constructor
  · intro h
    induction h with
    | nil => exact ⟨.nil, List.forall_mem_nil _⟩
    | cons hp _ ih =>
      exact ⟨.cons hp.spells ih.1,
        List.forall_mem_cons.mpr ⟨(check_eq_ok_iff hp.spells.onCurve).mpr hp.inGroup, ih.2⟩⟩
  · rintro ⟨h, hcheck⟩
    induction h with
    | nil => exact .nil
    | cons hp _ ih =>
      obtain ⟨hfirst, hrest⟩ := List.forall_mem_cons.mp hcheck
      exact .cons ⟨hp, (check_eq_ok_iff hp.onCurve).mp hfirst⟩ (ih hrest)

theorem inGroup_of_forall₂ {rs : List Bytes} {ps : List (Point F)}
    (h : List.Forall₂ ReadFrom rs ps) : ∀ p ∈ ps, p.InGroup := by
  induction h with
  | nil => exact List.forall_mem_nil _
  | cons hp _ ih => exact List.forall_mem_cons.mpr ⟨hp.inGroup, ih⟩

/-- Rows without flaws are a list's of points. -/
theorem exists_forall₂_readFrom_iff {rs : List Bytes} :
    (∃ ps : List (Point F), List.Forall₂ ReadFrom rs ps) ↔
      ∀ row ∈ rs, ∃ p : Point F, ReadFrom row p := by
  induction rs with
  | nil => exact iff_of_true ⟨[], .nil⟩ (List.forall_mem_nil _)
  | cons row rs ih =>
    rw [List.forall_mem_cons, ← ih]
    simp only [List.forall₂_cons_left_iff]
    constructor
    · rintro ⟨_, p, ps, hp, hps, rfl⟩
      exact ⟨⟨p, hp⟩, ps, hps⟩
    · rintro ⟨⟨p, hp⟩, ps, hps⟩
      exact ⟨_, p, ps, hp, hps, rfl⟩

/-- **A list of points is read where its count is followed by as many rows of points of the group**,
and is not too long for memory. -/
theorem readList_eq_ok_iff {ps : List (Point F)} : readList.run bs = .ok (ps, rest) ↔
    8 ≤ bs.length ∧ Memory.holds (Bytes.toNatLE (bs.take 8)) (Compressible.footprint F) = true ∧
      width F * Bytes.toNatLE (bs.take 8) ≤ (bs.drop 8).length ∧
      rest = (bs.drop 8).drop (width F * Bytes.toNatLE (bs.take 8)) ∧
      List.Forall₂ ReadFrom (rows (width F) (Bytes.toNatLE (bs.take 8)) (bs.drop 8)) ps := by
  unfold readList
  rw [Reader.bind_run_eq_ok_iff]
  simp only [Reader.nat_run_eq_ok_iff]
  constructor
  · rintro ⟨n, _, ⟨hle, rfl, rfl⟩, hrun⟩
    split at hrun
    · exact nomatch hrun
    · next hholds =>
      obtain ⟨ps, _, hmany, hrun⟩ := Reader.bind_run_eq_ok_iff.mp hrun
      obtain ⟨_, _, hall, hpure⟩ := Reader.bind_run_eq_ok_iff.mp hrun
      obtain ⟨hlength, rfl, hps⟩ := readMany_eq_ok_iff.mp hmany
      obtain ⟨hcheck, rfl⟩ := checkAll_eq_ok_iff.mp hall
      obtain ⟨rfl, rfl⟩ := Prod.ext_iff.mp (Except.ok.inj hpure)
      exact ⟨hle, by simpa using hholds, hlength, rfl, forall₂_readFrom_iff.mpr ⟨hps, hcheck⟩⟩
  · rintro ⟨hle, hholds, hlength, rfl, hps⟩
    obtain ⟨hps, hcheck⟩ := forall₂_readFrom_iff.mp hps
    refine ⟨_, _, ⟨hle, rfl, rfl⟩, ?_⟩
    rw [hholds]
    exact Reader.bind_run_eq_ok_iff.mpr ⟨ps, _, readMany_eq_ok_iff.mpr ⟨hlength, rfl, hps⟩,
      Reader.bind_run_eq_ok_iff.mpr ⟨(), _, checkAll_eq_ok_iff.mpr ⟨hcheck, rfl⟩, rfl⟩⟩

/-- A count that memory can hold fits its eight bytes. -/
theorem toNatLE_count {n : Nat} (h : Memory.holds n (Compressible.footprint F) = true) :
    Bytes.toNatLE (Bytes.ofNatLE 8 n) = n := by
  have hpos := LawfulCompressible.footprint_pos (F := F)
  have hle : n ≤ n * Compressible.footprint F := Nat.le_mul_of_pos_right n hpos
  have hlt : n * Compressible.footprint F < Memory.addressable := of_decide_eq_true h
  have hwidth : Memory.addressable ≤ 256 ^ 8 := by decide
  rw [Bytes.toNatLE_ofNatLE]
  exact Nat.mod_eq_of_lt (by omega)

/-- A list of points of the group is read back. -/
theorem readList_writeList {ps : List (Point F)} (h : ∀ p ∈ ps, p.InGroup)
    (hholds : Memory.holds ps.length (Compressible.footprint F) = true) (rest : Bytes) :
    readList.run (writeList ps ++ rest) = .ok (ps, rest) := by
  have hlength : (Bytes.ofNatLE 8 ps.length).length = 8 := Bytes.length_ofNatLE ..
  have hrows : List.Forall₂ ReadFrom (ps.map write) ps := by
    rw [List.forall₂_map_left_iff, List.forall₂_same]
    exact fun p hp => (h p hp).readFrom_write
  rw [readList_eq_ok_iff, writeList, List.append_assoc, List.take_left' hlength,
    List.drop_left' hlength, toNatLE_count hholds, rows_write, List.length_append,
    List.length_append, length_writes]
  exact ⟨by omega, hholds, by omega, (List.drop_left' (length_writes ps)).symm, hrows⟩

end Point

end Attest.Bn254
