import Attest.Proofs.Assembly
import Attest.Proofs.Text.Blank
import Attest.Proofs.Text.Digits
import Attest.Service.Server

/-! What a service does with its environment.

A numeric variable holds a number when its value, between blanks, spells one that it may hold
(`Settings.Variable.Holds`). It is used exactly then (`Settings.Variable.value?_eq_some_iff`), and
otherwise listed as rejected if it is set at all (`Settings.Variable.rejection?_eq_some_iff`). More
permits may be asked for than a service can count: it starts in every environment but those that do
(`Settings.starts_iff`). -/
namespace Attest.Service.Settings
variable {lookup : String → Option String} {name s : String} {text : List Char} {n : Nat}

/-! ### Numbers -/

/-- The text is an unsigned number in decimal digits, with or without a plus sign. -/
inductive Unsigned : List Char → Nat → Prop
  | plain {cs n} : Text.Spells 10 cs n → Unsigned cs n
  | plus {cs n} : Text.Spells 10 cs n → Unsigned ('+' :: cs) n

/-- The digits of a number, without its sign. -/
def digits : List Char → List Char
  | '+' :: rest => rest
  | cs => cs

theorem not_spells_plus {cs : List Char} : ¬Text.Spells 10 ('+' :: cs) n := by
  intro h
  obtain ⟨d, hd⟩ := h.isDigit '+' List.mem_cons_self
  rw [← Text.digit?_eq_some_iff (by decide)] at hd
  exact nomatch hd

theorem unsigned_iff : Unsigned text n ↔ Text.Spells 10 (digits text) n := by
  constructor
  · intro h
    cases h with
    | plain h =>
      unfold digits
      split
      · exact absurd h not_spells_plus
      · exact h
    | plus h => exact h
  · intro h
    unfold digits at h
    split at h
    · exact .plus h
    · exact .plain h

/-- **A number is read exactly when the text is one and it has no more than 64 bits.** -/
theorem number?_eq_some_iff : number? s = some n ↔ Unsigned s.toList n ∧ n < UInt64.size := by
  have hread : number? s = if (digits s.toList).isEmpty then none else
      (Text.digits? 10 (digits s.toList)).bind fun ds =>
        if Text.value 10 ds < UInt64.size then some (Text.value 10 ds) else none := rfl
  rw [hread, unsigned_iff, Text.spells_iff (by decide), ← List.isEmpty_eq_false_iff]
  cases (digits s.toList).isEmpty with
  | true => simp
  | false =>
    simp only [Bool.false_eq_true, if_false, true_and, Option.bind_eq_some_iff,
      Option.map_eq_some_iff, Option.ite_none_right_eq_some, Option.some.injEq]
    constructor
    · rintro ⟨ds, hds, hlt, rfl⟩
      exact ⟨⟨ds, hds, rfl⟩, hlt⟩
    · rintro ⟨⟨ds, hds, rfl⟩, hlt⟩
      exact ⟨ds, hds, hlt, rfl⟩

/-! ### Variables -/

/-- The variable is set to the text: that is what stands between blanks in its value, and it is not
nothing. -/
structure Sets (lookup : String → Option String) (name : String) (text : List Char) : Prop where
  value : ∃ raw, lookup name = some raw ∧ Text.Trimmed raw.toList text
  notBlank : text ≠ []

theorem setting?_eq_some_iff : setting? lookup name = some s ↔ Sets lookup name s.toList := by
  have hread : setting? lookup name = (lookup name).bind fun raw =>
      if (Text.trim raw.toList).isEmpty then none
      else some (String.ofList (Text.trim raw.toList)) := rfl
  rw [hread, Option.bind_eq_some_iff]
  simp only [Option.ite_none_left_eq_some, List.isEmpty_iff, Option.some.injEq]
  constructor
  · rintro ⟨raw, hraw, hne, rfl⟩
    rw [String.toList_ofList]
    exact ⟨⟨raw, hraw, Text.trimmed_trim _⟩, hne⟩
  · rintro ⟨⟨raw, hraw, htrimmed⟩, hne⟩
    rw [Text.trimmed_iff] at htrimmed
    rw [htrimmed] at hne
    exact ⟨raw, hraw, hne, by rw [← htrimmed, String.ofList_toList]⟩

/-- A variable is set to one text at most. -/
theorem Sets.unique {text' : List Char} (h : Sets lookup name text)
    (h' : Sets lookup name text') : text = text' := by
  obtain ⟨raw, hraw, ht⟩ := h.value
  obtain ⟨raw', hraw', ht'⟩ := h'.value
  obtain rfl := Option.some.inj (hraw.symm.trans hraw')
  rw [ht.eq_trim, ht'.eq_trim]

namespace Variable
variable {v : Variable}

/-- The variable is set to a number that it may hold. -/
structure Holds (v : Variable) (lookup : String → Option String) (n : Nat) : Prop where
  set : ∃ text, Sets lookup v.name text ∧ Unsigned text n
  fits : n < UInt64.size
  admits : v.admits n

theorem read?_eq_some_iff :
    v.read? s = some n ↔ Unsigned s.toList n ∧ n < UInt64.size ∧ v.admits n := by
  rw [read?, Option.filter_eq_some_iff, number?_eq_some_iff, and_assoc]

/-- **A variable is used exactly when it is set to a number that it may hold**, and for that
number. -/
theorem value?_eq_some_iff : v.value? (setting? lookup v.name) = some n ↔ v.Holds lookup n := by
  rw [value?, Option.bind_eq_some_iff]
  simp only [read?_eq_some_iff, setting?_eq_some_iff]
  constructor
  · rintro ⟨s, hs, hn, hfits, hadmits⟩
    exact ⟨⟨_, hs, hn⟩, hfits, hadmits⟩
  · rintro ⟨⟨text, htext, hn⟩, hfits, hadmits⟩
    refine ⟨String.ofList text, ?_, ?_, hfits, hadmits⟩ <;> rwa [String.toList_ofList]

theorem Holds.unique {n' : Nat} (h : v.Holds lookup n) (h' : v.Holds lookup n') : n = n' := by
  rw [← value?_eq_some_iff] at h h'
  exact Option.some.inj (h.symm.trans h')

theorem value?_eq_none_iff :
    v.value? (setting? lookup v.name) = none ↔ ∀ n, ¬v.Holds lookup n := by
  rw [Option.eq_none_iff_forall_not_mem]
  exact forall_congr' fun n => not_congr value?_eq_some_iff

/-- Whatever a variable is set to, a number is used that it may hold, if its default is one. -/
theorem admits_getD (v : Variable) (lookup : String → Option String) (h : v.admits n) :
    v.admits ((v.value? (setting? lookup v.name)).getD n) := by
  cases hvalue : v.value? (setting? lookup v.name) with
  | none => exact h
  | some n => exact (value?_eq_some_iff.mp hvalue).admits

/-- **A variable that is set and not used is listed with the text that it is set to.** -/
theorem rejection?_eq_some_iff {line : String} :
    v.rejection? (setting? lookup v.name) = some line ↔
      ∃ text, Sets lookup v.name text ∧ (∀ n, ¬v.Holds lookup n) ∧
        s!"{v.name}={String.ofList text}" = line := by
  rw [← value?_eq_none_iff]
  cases hset : setting? lookup v.name with
  | none =>
    refine iff_of_false (fun h => nomatch h) fun ⟨text, htext, _⟩ => ?_
    rw [← String.toList_ofList (l := text), ← setting?_eq_some_iff, hset] at htext
    exact nomatch htext
  | some s =>
    have hs := setting?_eq_some_iff.mp hset
    show (if (v.read? s).isNone then some s!"{v.name}={s}" else none) = some line ↔
      ∃ text, Sets lookup v.name text ∧ v.read? s = none ∧ _
    rw [Option.ite_none_right_eq_some, Option.isNone_iff_eq_none, Option.some.injEq]
    constructor
    · rintro ⟨hread, rfl⟩
      exact ⟨s.toList, hs, hread, by rw [String.ofList_toList]⟩
    · rintro ⟨text, htext, hread, rfl⟩
      rw [← hs.unique htext, String.ofList_toList]
      exact ⟨hread, rfl⟩

end Variable

/-! ### Starting -/

section
variable (lookup)

/-- What is listed is what was not used of the numbers. -/
theorem mem_rejected_iff {line : String} : line ∈ (fromLookup lookup).rejected ↔
    ∃ v ∈ [concurrencyVariable, timeoutVariable, depthVariable],
      v.rejection? (setting? lookup v.name) = some line := by
  simp [fromLookup, eq_comm]

theorem merkleDepth_range : 1 ≤ (fromLookup lookup).merkleDepth ∧
    (fromLookup lookup).merkleDepth ≤ Merkle.maxDepth := by
  have hadmits : decide (1 ≤ (fromLookup lookup).merkleDepth) &&
      decide ((fromLookup lookup).merkleDepth ≤ Merkle.maxDepth) :=
    depthVariable.admits_getD lookup (n := defaultDepth) (by decide)
  simpa using hadmits

theorem timeoutMs_pos : 0 < (fromLookup lookup).timeoutMs :=
  of_decide_eq_true (timeoutVariable.admits_getD lookup (n := 30000) (by decide))

end

theorem start?_eq_some_iff {settings : Settings} {cores : Nat} {server : Server} :
    Server.start? settings cores = some server ↔
      settings.concurrency.getD cores ≤ maxPermits ∧
        ⟨settings, .ofDirectory settings.artifactDirectory, settings.concurrency.getD cores⟩ =
          server := by
  rw [Server.start?, Option.ite_none_right_eq_some, Option.some.injEq]

theorem start?_eq_none_iff {settings : Settings} {cores : Nat} :
    Server.start? settings cores = none ↔ maxPermits < settings.concurrency.getD cores := by
  rw [Server.start?, ← Nat.not_le]
  split <;> simp [*]

/-- The service starts as it should in an environment, on a machine with so many cores: its settings
are in range, it has as many permits as they say, and a number of permits that it cannot run with is
listed as rejected and replaced by the number of cores. -/
structure Starts (lookup : String → Option String) (cores : Nat) : Prop where
  server : ∃ server, Server.start? (fromLookup lookup) cores = some server ∧
    server.settings = fromLookup lookup ∧
    server.permits = (fromLookup lookup).concurrency.getD cores ∧ 1 ≤ server.permits
  merkleDepth : 1 ≤ (fromLookup lookup).merkleDepth ∧
    (fromLookup lookup).merkleDepth ≤ Merkle.maxDepth
  timeoutMs : 0 < (fromLookup lookup).timeoutMs
  rejected : ∀ text, Sets lookup concurrencyVariable.name text →
    (∀ n, Unsigned text n → ¬(0 < n ∧ n ≤ maxPermits)) →
      (fromLookup lookup).concurrency = none ∧
      s!"{concurrencyVariable.name}={String.ofList text}" ∈ (fromLookup lookup).rejected

/-- **A service starts in every environment but those that ask for more permits than can be
counted**, on a machine whose cores can be counted. The variable is used exactly when it is set to a
positive number of 64 bits, and of these the greatest are too many. -/
theorem starts_iff {cores : Nat} (hcores : 0 < cores) (hmost : cores ≤ maxPermits)
    (lookup : String → Option String) :
    (Starts lookup cores ↔ ∀ n, concurrencyVariable.Holds lookup n → n ≤ maxPermits) ∧
      (Server.start? (fromLookup lookup) cores = none ↔
        ∃ n, concurrencyVariable.Holds lookup n ∧ maxPermits < n) ∧
      (∀ n, (fromLookup lookup).concurrency = some n ↔ concurrencyVariable.Holds lookup n) ∧
      (1 ≤ (fromLookup lookup).merkleDepth ∧ (fromLookup lookup).merkleDepth ≤ Merkle.maxDepth) ∧
      0 < (fromLookup lookup).timeoutMs := by
  have hused (n : Nat) : (fromLookup lookup).concurrency = some n ↔
      concurrencyVariable.Holds lookup n := Variable.value?_eq_some_iff
  have hnone : Server.start? (fromLookup lookup) cores = none ↔
      ∃ n, concurrencyVariable.Holds lookup n ∧ maxPermits < n := by
    simp only [start?_eq_none_iff, ← hused]
    cases (fromLookup lookup).concurrency with
    | none => simpa using hmost
    | some n => simp
  refine ⟨⟨fun h n hn => ?_, fun h => ?_⟩, hnone, hused, merkleDepth_range lookup,
    timeoutMs_pos lookup⟩
  · obtain ⟨server, hstart, -⟩ := h.server
    refine Nat.not_lt.mp fun hlt => ?_
    rw [hnone.mpr ⟨n, hn, hlt⟩] at hstart
    exact nomatch hstart
  · constructor
    case server =>
      have hpermits : 1 ≤ (fromLookup lookup).concurrency.getD cores ∧
          (fromLookup lookup).concurrency.getD cores ≤ maxPermits := by
        cases hvalue : (fromLookup lookup).concurrency with
        | none => exact ⟨hcores, hmost⟩
        | some n =>
          have hn := (hused n).mp hvalue
          exact ⟨of_decide_eq_true hn.admits, h n hn⟩
      exact ⟨_, start?_eq_some_iff.mpr ⟨hpermits.2, rfl⟩, rfl, rfl, hpermits.1⟩
    case merkleDepth => exact merkleDepth_range lookup
    case timeoutMs => exact timeoutMs_pos lookup
    case rejected =>
      intro text htext hunfit
      have hnot (n : Nat) : ¬concurrencyVariable.Holds lookup n := by
        intro hn
        obtain ⟨text', htext', hunsigned⟩ := hn.set
        rw [← htext.unique htext'] at hunsigned
        exact hunfit n hunsigned ⟨of_decide_eq_true hn.admits, h n hn⟩
      refine ⟨Variable.value?_eq_none_iff.mpr hnot, (mem_rejected_iff lookup).mpr ?_⟩
      exact ⟨concurrencyVariable, List.mem_cons_self,
        Variable.rejection?_eq_some_iff.mpr ⟨text, htext, hnot, rfl⟩⟩

/-- Four permits, with blanks and a sign. -/
theorem starts_iff_four :
    let lookup := fun name => if name = concurrencyVariable.name then some "\t+4 " else none
    0 < 8 ∧ 8 ≤ maxPermits ∧ concurrencyVariable.Holds lookup 4 ∧ Starts lookup 8 := by
  intro lookup
  obtain ⟨hstarts, -, hused, -⟩ := starts_iff (by decide : 0 < 8) (by decide) lookup
  have hfour : concurrencyVariable.Holds lookup 4 := by
    rw [← hused]
    decide
  refine ⟨by decide, by decide, hfour, hstarts.mpr fun n hn => ?_⟩
  rw [hn.unique hfour]
  decide

/-- One permit more than can be counted is not rejected, and the service does not start. -/
theorem too_many_permits :
    let lookup := fun name =>
      if name = concurrencyVariable.name then some "2305843009213693952" else none
    maxPermits + 1 = 2305843009213693952 ∧ (fromLookup lookup).rejected = [] ∧
      Server.start? (fromLookup lookup) 8 = none ∧ ¬Starts lookup 8 := by
  intro lookup
  have hstart : Server.start? (fromLookup lookup) 8 = none := start?_eq_none_iff.mpr (by decide)
  refine ⟨by decide, by decide, hstart, fun h => ?_⟩
  obtain ⟨server, hserver, -⟩ := h.server
  rw [hstart] at hserver
  exact nomatch hserver

end Attest.Service.Settings
