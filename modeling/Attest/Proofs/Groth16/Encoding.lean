import Attest.Proofs.Curve.Encoding
import Attest.Proofs.Curve.Taken
import Attest.Proofs.Groth16.Verify

/-! Proofs and verifying keys and their bytes, one for one.

A string is laid out in rows, one for each point (`Layout`), and is read as what its rows are read
as (`Proof.ofBytes_eq_ok_iff`, `VerifyingKey.ofBytes_eq_ok_iff`). So what is written of points of
the groups is read back, what is read is written as it was where no row says infinity, and a
string with a flawed row, or one too short, is malformed (`encodings_faithful`). The exception is a
verifying key that announces more points than memory can address: reading it breaks off, and
nothing is reported (`VerifyingKey.overannounced_breaks_off`). -/
namespace Attest

namespace Bn254

namespace Reader
variable {α β : Type} {read : Reader α} {f : α → Reader β} {bs : Bytes}

/-- A reading that stays in memory is not what asks for too much. -/
theorem Bounded.bind_eq_unaddressable_iff (h : read.Bounded) :
    (read >>= f).run bs = .error .unaddressable ↔
      ∃ a rest, read.run bs = .ok (a, rest) ∧ (f a).run rest = .error .unaddressable := by
  rw [StateT.run_bind]
  cases hread : read.run bs with
  | error e =>
    refine iff_of_false (fun he => ?_) fun ⟨_, _, hok, _⟩ => nomatch hok
    obtain rfl : e = .unaddressable := Except.error.inj he
    exact h bs hread
  | ok next =>
    exact ⟨fun he => ⟨next.1, next.2, rfl, he⟩, fun ⟨_, _, hok, he⟩ => by cases hok; exact he⟩

theorem bind_pure_eq_error_iff {g : α → β} {e : DecodeError} :
    (read >>= fun a => pure (g a)).run bs = .error e ↔ read.run bs = .error e := by
  rw [StateT.run_bind]
  cases read.run bs with
  | error e' => exact ⟨fun h => by cases h; rfl, fun h => by cases h; rfl⟩
  | ok next => exact iff_of_false nofun nofun

end Reader

namespace Point
variable {F : Type} [Compressible F] {bs : Bytes}

/-- A list asks for too much memory just when its count does. -/
theorem readList_eq_unaddressable_iff (h : (Compressible.read : Reader (F × Sign)).Bounded) :
    (readList : Reader (List (Point F))).run bs = .error .unaddressable ↔ 8 ≤ bs.length ∧
      Memory.holds (Bytes.toNatLE (bs.take 8)) (Compressible.footprint F) = false := by
  have hmany (n : Nat) : (readMany n : Reader (List (Point F))).Bounded := by
    induction n with
    | zero => exact .pure _
    | succ n ih => exact (readUnchecked_bounded h).bind fun _ => ih.bind fun _ => .pure _
  have hcheck (ps : List (Point F)) :
      Reader.Bounded (ps.forM fun p => (liftM (check p) : Reader Unit)) := by
    induction ps with
    | nil => exact .pure _
    | cons p ps ih => exact (Reader.Bounded.lift (check_ne p)).bind fun _ => ih
  unfold readList
  rw [(Reader.nat_bounded 8).bind_eq_unaddressable_iff]
  simp only [Reader.nat_run_eq_ok_iff]
  constructor
  · rintro ⟨n, _, ⟨hle, rfl, rfl⟩, hrun⟩
    refine ⟨hle, ?_⟩
    split at hrun
    · next hholds => simpa using hholds
    · exact absurd hrun
        (((hmany _).bind fun ps => (hcheck ps).bind fun _ => .pure _) _)
  · rintro ⟨hle, hholds⟩
    refine ⟨_, _, ⟨hle, rfl, rfl⟩, ?_⟩
    rw [hholds]
    rfl

end Point

end Bn254

namespace Groth16
open Bn254 Point
open LawfulCompressible (chunk)

/-! ### Layouts -/

/-- Where the points of a string are, and how long it is at least. -/
structure Layout where
  first : List Bytes
  second : List Bytes
  size : Nat

namespace Layout
variable {l : Layout} {bs : Bytes}

/-- Something is wrong with a string that is laid out so. -/
inductive Flawed (l : Layout) (bs : Bytes) : Prop
  | short (h : bs.length < l.size)
  | first (row : Bytes) (hrow : row ∈ l.first) (h : (chunk Base row).Flawed Base)
  | second (row : Bytes) (hrow : row ∈ l.second) (h : (chunk Quadratic row).Flawed Quadratic)

/-- No point carries the flag of infinity. -/
structure Finite (l : Layout) : Prop where
  first : ∀ row ∈ l.first, (chunk Base row).infinity = false
  second : ∀ row ∈ l.second, (chunk Quadratic row).infinity = false

/-- A string without flaws is long enough and has a point in each row. -/
theorem not_flawed_iff : ¬l.Flawed bs ↔ l.size ≤ bs.length ∧
    (∀ row ∈ l.first, ∃ p : G1, ReadFrom row p) ∧ ∀ row ∈ l.second, ∃ p : G2, ReadFrom row p := by
  simp only [exists_readFrom_iff]
  constructor
  · intro h
    exact ⟨Nat.not_lt.mp fun hlt => h (.short hlt), fun row hrow hflaw => h (.first row hrow hflaw),
      fun row hrow hflaw => h (.second row hrow hflaw)⟩
  · rintro ⟨hsize, hfirst, hsecond⟩ (hlt | ⟨row, hrow, hflaw⟩ | ⟨row, hrow, hflaw⟩)
    · exact Nat.not_lt.mpr hsize hlt
    · exact hfirst row hrow hflaw
    · exact hsecond row hrow hflaw

end Layout

/-! ### Proofs -/

namespace Proof
variable {bs : Bytes} {p : Proof}

structure InGroup (p : Proof) : Prop where
  a : p.a.InGroup
  b : p.b.InGroup
  c : p.c.InGroup

/-- Three rows. -/
def layout (bs : Bytes) : Layout where
  first := [bs.take 32, (bs.drop 96).take 32]
  second := [(bs.drop 32).take 64]
  size := 128

/-- The rows are those of the proof's points. -/
structure ReadFrom (bs : Bytes) (p : Proof) : Prop where
  size : 128 ≤ bs.length
  a : Point.ReadFrom (bs.take 32) p.a
  b : Point.ReadFrom ((bs.drop 32).take 64) p.b
  c : Point.ReadFrom ((bs.drop 96).take 32) p.c

theorem ofBytes_eq_ok_iff : ofBytes bs = .ok p ↔ ReadFrom bs p := by
  unfold ofBytes
  rw [mapError_eq_ok_iff, decode_eq_ok_iff]
  unfold read
  simp only [Reader.bind_run_eq_ok_iff, Point.read_eq_ok_iff, width_base, width_quadratic]
  constructor
  · rintro ⟨_, a, _, ⟨hle, rfl, ha⟩, b, _, ⟨hle', rfl, hb⟩, c, _, ⟨hle'', rfl, hc⟩, hpure⟩
    obtain ⟨rfl, -⟩ := Prod.ext_iff.mp (Except.ok.inj hpure)
    rw [List.length_drop] at hle'
    rw [List.drop_drop] at hle'' hc
    rw [List.length_drop] at hle''
    exact ⟨by omega, ha, hb, hc⟩
  · rintro ⟨hsize, ha, hb, hc⟩
    refine ⟨_, p.a, _, ⟨by omega, rfl, ha⟩, p.b, _, ⟨?_, rfl, hb⟩, p.c, _, ⟨?_, rfl, ?_⟩, rfl⟩
    · rw [List.length_drop]
      omega
    · rw [List.drop_drop, List.length_drop]
      omega
    · rwa [List.drop_drop]

theorem ReadFrom.inGroup (h : ReadFrom bs p) : p.InGroup := ⟨h.a.inGroup, h.b.inGroup, h.c.inGroup⟩

/-- The points of a proof and those of its layout. -/
theorem exists_readFrom_iff : (∃ p, ReadFrom bs p) ↔ ¬(layout bs).Flawed bs := by
  rw [Layout.not_flawed_iff]
  simp only [layout, List.mem_cons, List.not_mem_nil, or_false, forall_eq_or_imp, forall_eq]
  constructor
  · rintro ⟨p, h⟩
    exact ⟨h.size, ⟨⟨_, h.a⟩, _, h.c⟩, _, h.b⟩
  · rintro ⟨hsize, ⟨⟨a, ha⟩, c, hc⟩, b, hb⟩
    exact ⟨⟨a, b, c⟩, hsize, ha, hb, hc⟩

theorem length_toBytes (p : Proof) : p.toBytes.length = 128 := by
  rw [toBytes, List.length_append, List.length_append, length_write, length_write, length_write]
  rfl

/-- A proof of points of the groups is read back. -/
theorem InGroup.ofBytes_toBytes (h : p.InGroup) : ofBytes p.toBytes = .ok p := by
  refine mapError_eq_ok_iff.mpr (decode_eq_ok_iff.mpr ⟨[], ?_⟩)
  rw [toBytes, List.append_assoc, ← List.append_nil p.c.write]
  exact Reader.bind_run_eq_ok_iff.mpr ⟨p.a, _, h.a.read_write _,
    Reader.bind_run_eq_ok_iff.mpr ⟨p.b, _, h.b.read_write _,
      Reader.bind_run_eq_ok_iff.mpr ⟨p.c, _, h.c.read_write _, rfl⟩⟩⟩

/-- A proof that is read from rows without infinity is written as it was. -/
theorem ReadFrom.toBytes_eq (h : ReadFrom bs p) (hfinite : (layout bs).Finite) :
    p.toBytes = bs.take 128 := by
  have hsize := h.size
  have ha := h.a.spells.write_eq
    (List.length_take_of_le (by omega)) (hfinite.first _ (by simp [layout]))
  have hb := h.b.spells.write_eq
    (List.length_take_of_le (by rw [List.length_drop]; omega)) (hfinite.second _ (by simp [layout]))
  have hc := h.c.spells.write_eq
    (List.length_take_of_le (by rw [List.length_drop]; omega)) (hfinite.first _ (by simp [layout]))
  rw [toBytes, ha, hb, hc, ← List.take_add, ← List.take_add]

end Proof

/-! ### Verifying keys -/

namespace VerifyingKey
variable {bs : Bytes} {k : VerifyingKey}

structure InGroup (k : VerifyingKey) : Prop where
  alpha : k.alpha.InGroup
  beta : k.beta.InGroup
  gamma : k.gamma.InGroup
  delta : k.delta.InGroup
  inputs : ∀ p ∈ k.inputs, p.InGroup

/-- Memory can hold the key's list. -/
def Fits (k : VerifyingKey) : Prop :=
  Memory.holds k.inputs.length (Compressible.footprint Base) = true

/-- How many points a string announces. -/
def announced (bs : Bytes) : Nat := Bytes.toNatLE ((bs.drop 224).take 8)

/-- Four rows, the count, and as many rows as it says. -/
def layout (bs : Bytes) : Layout where
  first := bs.take 32 :: rows 32 (announced bs) (bs.drop 232)
  second := [(bs.drop 32).take 64, (bs.drop 96).take 64, (bs.drop 160).take 64]
  size := 232 + 32 * announced bs

/-- The rows in front of the list are those of the key's points. -/
structure HeadFrom (bs : Bytes) (alpha : G1) (beta gamma delta : G2) : Prop where
  size : 232 ≤ bs.length
  alpha : Point.ReadFrom (bs.take 32) alpha
  beta : Point.ReadFrom ((bs.drop 32).take 64) beta
  gamma : Point.ReadFrom ((bs.drop 96).take 64) gamma
  delta : Point.ReadFrom ((bs.drop 160).take 64) delta

/-- The rows are those of the key's points. -/
structure ReadFrom (bs : Bytes) (k : VerifyingKey) : Prop where
  head : HeadFrom bs k.alpha k.beta k.gamma k.delta
  size : 232 + 32 * announced bs ≤ bs.length
  addressable : Memory.holds (announced bs) (Compressible.footprint Base) = true
  inputs : List.Forall₂ Point.ReadFrom (rows 32 (announced bs) (bs.drop 232)) k.inputs

theorem ofBytes_eq_ok_iff : ofBytes bs = .ok k ↔ ReadFrom bs k := by
  unfold ofBytes
  rw [mapError_eq_ok_iff, decode_eq_ok_iff]
  unfold read
  simp only [Reader.bind_run_eq_ok_iff, Point.read_eq_ok_iff, Point.readList_eq_ok_iff, width_base,
    width_quadratic]
  constructor
  · rintro ⟨_, alpha, _, ⟨halpha, rfl, ha⟩, beta, _, ⟨hbeta, rfl, hb⟩, gamma, _, ⟨hgamma, rfl, hg⟩,
      delta, _, ⟨hdelta, rfl, hd⟩, inputs, _, ⟨hcount, hholds, hlist, rfl, hinputs⟩, hpure⟩
    obtain ⟨rfl, -⟩ := Prod.ext_iff.mp (Except.ok.inj hpure)
    simp only [List.drop_drop, List.length_drop, Nat.reduceAdd] at *
    exact ⟨⟨by omega, ha, hb, hg, hd⟩, by unfold announced; omega, hholds, hinputs⟩
  · rintro ⟨⟨hsize, ha, hb, hg, hd⟩, hlist, hholds, hinputs⟩
    unfold announced at hlist hholds hinputs
    refine ⟨_, k.alpha, _, ⟨by omega, rfl, ha⟩, k.beta, _, ⟨?_, rfl, hb⟩, k.gamma, _, ⟨?_, rfl, ?_⟩,
      k.delta, _, ⟨?_, rfl, ?_⟩, k.inputs, _, ⟨?_, ?_, ?_, rfl, ?_⟩, rfl⟩
    all_goals simp only [List.drop_drop, List.length_drop, Nat.reduceAdd]
    all_goals first | assumption | omega

/-- The string announces more points than memory can address, behind a head without flaws. -/
def Overannounced (bs : Bytes) : Prop :=
  (∃ alpha beta gamma delta, HeadFrom bs alpha beta gamma delta) ∧
    Memory.holds (announced bs) (Compressible.footprint Base) = false

/-- Nothing is reported of a string that announces too much, and of no other. -/
theorem ofBytes_eq_exhausted_iff : ofBytes bs = .error .exhausted ↔ Overannounced bs := by
  have hrun : ofBytes bs = .error .exhausted ↔ read.run bs = .error .unaddressable := by
    unfold ofBytes decode
    cases read.run bs with
    | ok next => exact iff_of_false nofun nofun
    | error e => cases e <;> simp [Except.map, Except.mapError, DecodeError.toFailure]
  rw [hrun]
  unfold read
  rw [read_bounded_first.bind_eq_unaddressable_iff]
  simp only [read_bounded_second.bind_eq_unaddressable_iff, Reader.bind_pure_eq_error_iff,
    Point.readList_eq_unaddressable_iff (F := Base) Reader.flaggedBase_bounded,
    Point.read_eq_ok_iff, width_base, width_quadratic]
  constructor
  · rintro ⟨alpha, _, ⟨halpha, rfl, ha⟩, beta, _, ⟨hbeta, rfl, hb⟩, gamma, _, ⟨hgamma, rfl, hg⟩,
      delta, _, ⟨hdelta, rfl, hd⟩, hcount, hholds⟩
    simp only [List.drop_drop, List.length_drop, Nat.reduceAdd] at *
    exact ⟨⟨alpha, beta, gamma, delta, by omega, ha, hb, hg, hd⟩, hholds⟩
  · rintro ⟨⟨alpha, beta, gamma, delta, hsize, ha, hb, hg, hd⟩, hholds⟩
    unfold announced at hholds
    refine ⟨alpha, _, ⟨by omega, rfl, ha⟩, beta, _, ⟨?_, rfl, hb⟩, gamma, _, ⟨?_, rfl, ?_⟩,
      delta, _, ⟨?_, rfl, ?_⟩, ?_, ?_⟩
    all_goals simp only [List.drop_drop, List.length_drop, Nat.reduceAdd]
    all_goals first | assumption | omega

/-- The points of a key and those of its layout. -/
theorem exists_readFrom_iff : (∃ k, ReadFrom bs k) ↔
    ¬(layout bs).Flawed bs ∧
      Memory.holds (announced bs) (Compressible.footprint Base) = true := by
  rw [Layout.not_flawed_iff]
  simp only [layout, List.mem_cons, List.not_mem_nil, or_false, forall_eq_or_imp, forall_eq,
    ← exists_forall₂_readFrom_iff]
  constructor
  · rintro ⟨k, hhead, hsize, hholds, hinputs⟩
    exact ⟨⟨hsize, ⟨⟨_, hhead.alpha⟩, _, hinputs⟩, ⟨_, hhead.beta⟩, ⟨_, hhead.gamma⟩, _,
      hhead.delta⟩, hholds⟩
  · rintro ⟨⟨hsize, ⟨⟨alpha, ha⟩, inputs, hinputs⟩, ⟨beta, hb⟩, ⟨gamma, hg⟩, delta, hd⟩, hholds⟩
    exact ⟨⟨alpha, beta, gamma, delta, inputs⟩, ⟨by omega, ha, hb, hg, hd⟩, hsize, hholds, hinputs⟩

theorem length_toBytes (k : VerifyingKey) : k.toBytes.length = 232 + 32 * k.inputs.length := by
  simp only [toBytes, writeList, List.length_append, length_write, length_writes,
    Bytes.length_ofNatLE, width_base, width_quadratic]
  omega

/-- A key of points of the groups is read back. -/
theorem InGroup.ofBytes_toBytes (h : k.InGroup) (hfits : k.Fits) : ofBytes k.toBytes = .ok k := by
  refine mapError_eq_ok_iff.mpr (decode_eq_ok_iff.mpr ⟨[], ?_⟩)
  rw [toBytes, List.append_assoc, List.append_assoc, List.append_assoc,
    ← List.append_nil (writeList k.inputs)]
  exact Reader.bind_run_eq_ok_iff.mpr ⟨k.alpha, _, h.alpha.read_write _,
    Reader.bind_run_eq_ok_iff.mpr ⟨k.beta, _, h.beta.read_write _,
      Reader.bind_run_eq_ok_iff.mpr ⟨k.gamma, _, h.gamma.read_write _,
        Reader.bind_run_eq_ok_iff.mpr ⟨k.delta, _, h.delta.read_write _,
          Reader.bind_run_eq_ok_iff.mpr ⟨k.inputs, _, readList_writeList h.inputs hfits _, rfl⟩⟩⟩⟩⟩

theorem ReadFrom.length_inputs (h : ReadFrom bs k) : k.inputs.length = announced bs := by
  rw [← h.inputs.length_eq, length_rows]

theorem ReadFrom.inGroup (h : ReadFrom bs k) : k.InGroup where
  alpha := h.head.alpha.inGroup
  beta := h.head.beta.inGroup
  gamma := h.head.gamma.inGroup
  delta := h.head.delta.inGroup
  inputs := inGroup_of_forall₂ h.inputs

theorem ReadFrom.sound (h : ReadFrom bs k) : k.InGroup ∧ k.Fits := by
  refine ⟨h.inGroup, ?_⟩
  rw [Fits, h.length_inputs]
  exact h.addressable

/-- A key that is read from rows without infinity is written as it was. -/
theorem ReadFrom.toBytes_eq (h : ReadFrom bs k) (hfinite : (layout bs).Finite) :
    k.toBytes = bs.take (232 + 32 * k.inputs.length) := by
  have hsize := h.size
  have hlong {i n : Nat} (hn : i + n ≤ 232) : ((bs.drop i).take n).length = n := by
    rw [List.length_take, List.length_drop]
    omega
  have halpha := h.head.alpha.spells.write_eq (hlong (i := 0) (by decide))
    (hfinite.first _ List.mem_cons_self)
  have hbeta := h.head.beta.spells.write_eq
    (hlong (by decide)) (hfinite.second _ (by simp [layout]))
  have hgamma := h.head.gamma.spells.write_eq
    (hlong (by decide)) (hfinite.second _ (by simp [layout]))
  have hdelta := h.head.delta.spells.write_eq
    (hlong (by decide)) (hfinite.second _ (by simp [layout]))
  have hinputs := writes_eq (F := Base) (by rw [width_base, List.length_drop]; omega) h.inputs
    fun row hrow => hfinite.first row (List.mem_cons_of_mem _ hrow)
  -- the count is written as it was, being that of the points that were read
  have hcount : Bytes.ofNatLE 8 (announced bs) = (bs.drop 224).take 8 := by
    have hback := Bytes.ofNatLE_toNatLE ((bs.drop 224).take 8)
    rwa [hlong (by decide)] at hback
  rw [toBytes, writeList, halpha, hbeta, hgamma, hdelta, hinputs, h.length_inputs, hcount,
    width_base, ← List.append_assoc, ← List.take_add, ← List.take_add, ← List.take_add,
    ← List.take_add, ← List.take_add]

/-- A string without flaws has a head without flaws. -/
theorem exists_headFrom (h : ¬(layout bs).Flawed bs) :
    ∃ alpha beta gamma delta, HeadFrom bs alpha beta gamma delta := by
  obtain ⟨hsize, hfirst, hsecond⟩ := Layout.not_flawed_iff.mp h
  have hlength : 232 ≤ bs.length := (Nat.le_add_right 232 _).trans hsize
  simp only [layout, List.mem_cons, List.not_mem_nil, or_false, forall_eq_or_imp, forall_eq]
    at hfirst hsecond
  obtain ⟨⟨alpha, ha⟩, -⟩ := hfirst
  obtain ⟨⟨beta, hb⟩, ⟨gamma, hg⟩, delta, hd⟩ := hsecond
  exact ⟨alpha, beta, gamma, delta, hlength, ha, hb, hg, hd⟩

end VerifyingKey

/-! ### One for one -/

/-- Material of a kind and its strings go together one for one, but for strings that are not read
to the end. -/
structure Faithful {α : Type} (toBytes : α → Bytes) (ofBytes : Bytes → Except Failure α)
    (layout : Bytes → Layout) (size : α → Nat) (Sound : α → Prop) (Unread : Bytes → Prop) (a : α)
    (bs : Bytes) : Prop where
  length : Sound a → (toBytes a).length = size a
  restored : Sound a → ofBytes (toBytes a) = .ok a
  sound : ofBytes bs = .ok a → Sound a
  canonical : ofBytes bs = .ok a → (layout bs).Finite → toBytes a = bs.take (size a)
  accepted : ¬Unread bs → ¬(layout bs).Flawed bs → ∃ b, ofBytes bs = .ok b
  malformed : ¬Unread bs →
    ((layout bs).Flawed bs ↔ ∃ reason, ofBytes bs = .error (.malformedProof reason))
  unread : Unread bs → ofBytes bs = .error .exhausted

/-- Where only malformed material is refused, it is what the flawed strings are. -/
theorem flawed_iff_malformed {α : Type} {flawed : Prop} {read : Except Failure α}
    (hok : (∃ a, read = .ok a) ↔ ¬flawed)
    (herror : ∀ f, read = .error f → ∃ reason, f = .malformedProof reason) :
    flawed ↔ ∃ reason, read = .error (.malformedProof reason) := by
  cases read with
  | ok a =>
    have hsound : ¬flawed := hok.mp ⟨a, rfl⟩
    exact iff_of_false hsound nofun
  | error f =>
    obtain ⟨reason, rfl⟩ := herror f rfl
    have hflawed : flawed := by
      by_contra h
      exact nomatch hok.mpr h
    exact iff_of_true hflawed ⟨reason, rfl⟩

/-- **Proofs and verifying keys of points of the groups are written one for one**: their strings
have their length and are read back, no other strings without infinite points are read as them, and
every flaw is reported as malformed material, but where a key announces more points than memory can
address. -/
theorem encodings_faithful (p : Proof) (k : VerifyingKey) (bs : Bytes) :
    Faithful Proof.toBytes Proof.ofBytes Proof.layout (fun _ => 128) Proof.InGroup
      (fun _ => False) p bs ∧
    Faithful VerifyingKey.toBytes VerifyingKey.ofBytes VerifyingKey.layout
      (fun k => 232 + 32 * k.inputs.length) (fun k => k.InGroup ∧ k.Fits)
      VerifyingKey.Overannounced k bs := by
  refine ⟨?proofs, ?keys⟩
  case proofs =>
    have hexists : (∃ p, Proof.ofBytes bs = .ok p) ↔ ¬(Proof.layout bs).Flawed bs := by
      simp only [Proof.ofBytes_eq_ok_iff, Proof.exists_readFrom_iff]
    exact {
      length := fun _ => p.length_toBytes
      restored := fun h => h.ofBytes_toBytes
      sound := fun h => (Proof.ofBytes_eq_ok_iff.mp h).inGroup
      canonical := fun h hfinite => (Proof.ofBytes_eq_ok_iff.mp h).toBytes_eq hfinite
      accepted := fun _ => hexists.mpr
      malformed := fun _ => flawed_iff_malformed hexists fun f hf => by
        obtain ⟨e, rfl⟩ := Proof.ofBytes_eq_error hf
        exact ⟨_, rfl⟩
      unread := fun h => h.elim }
  case keys =>
    have hexists (hread : ¬VerifyingKey.Overannounced bs) :
        (∃ k, VerifyingKey.ofBytes bs = .ok k) ↔ ¬(VerifyingKey.layout bs).Flawed bs := by
      simp only [VerifyingKey.ofBytes_eq_ok_iff, VerifyingKey.exists_readFrom_iff]
      -- a string without flaws has a good head, so only its count can keep it from being read
      refine and_iff_left_of_imp fun hflaw => ?_
      by_contra hholds
      exact hread ⟨VerifyingKey.exists_headFrom hflaw, Bool.eq_false_iff.mpr hholds⟩
    exact {
      length := fun _ => k.length_toBytes
      restored := fun h => h.1.ofBytes_toBytes h.2
      sound := fun h => (VerifyingKey.ofBytes_eq_ok_iff.mp h).sound
      canonical := fun h hfinite => (VerifyingKey.ofBytes_eq_ok_iff.mp h).toBytes_eq hfinite
      accepted := fun hread => (hexists hread).mpr
      malformed := fun hread => flawed_iff_malformed (hexists hread) fun f hf => by
        obtain rfl | ⟨e, rfl⟩ := VerifyingKey.ofBytes_eq_error hf
        · exact absurd (VerifyingKey.ofBytes_eq_exhausted_iff.mp hf) hread
        · exact ⟨_, rfl⟩
      unread := VerifyingKey.ofBytes_eq_exhausted_iff.mpr }

namespace VerifyingKey

/-- Generators, and a count of all ones with no point behind it. -/
def crowded : Bytes :=
  (⟨G1.generator, G2.generator, G2.generator, G2.generator, []⟩ : VerifyingKey).toBytes.take 224 ++
    List.replicate 8 255

/-- A key that breaks off after its count is too short, and yet no malformed material. -/
theorem overannounced_breaks_off : (layout crowded).Flawed crowded ∧
    ∀ reason, ofBytes crowded ≠ .error (.malformedProof reason) := by
  have hexhausted : ofBytes crowded = .error .exhausted := by decide +kernel
  refine ⟨.short (by decide +kernel), fun reason h => ?_⟩
  rw [hexhausted] at h
  exact nomatch h

end VerifyingKey

end Groth16

end Attest
