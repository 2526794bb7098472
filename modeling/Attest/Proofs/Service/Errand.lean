import Mathlib.Tactic.SplitIfs
import Attest.Service.Dispatch

/-! What a request asks of a service's keys.

A keyring has a cell for each key that it may hold: the proving key and the verifying key of each
predicate. A request looks into one cell at most, and which one is plain before a key or a file is
looked at. So it is an `Errand`: an answer at once, or a cell and what the answer is once there is
a key or none. The answer to a request is its errand carried out (`Server.respond_eq_errand`), and
coming by a cell's key is the only use that a service makes of its keyring and of the disk
(`Keyring.key_run`). -/
namespace Attest.Service

/-! ### Cells -/

/-- One of the keys that a service may hold. -/
inductive Cell where
  | proving (p : Predicate)
  | verifying (p : Predicate)
deriving DecidableEq

/-- What a cell is for. -/
abbrev Cell.Key (PK VK : Type) : Cell → Type
  | proving _ => PK
  | verifying _ => StoredKey VK

/-- The file of a store that a cell's key is loaded from. -/
def Cell.file : Cell → String
  | proving p => Artifact.provingFile p
  | verifying p => Artifact.verifyingFile p

namespace Keyring
variable {PK VK : Type} (keys : Keyring PK VK)

def held : (c : Cell) → Option (c.Key PK VK)
  | .proving p => keys.proving p
  | .verifying p => keys.verifying p

def keep : (c : Cell) → c.Key PK VK → Keyring PK VK
  | .proving p, key => keys.keepProving p key
  | .verifying p, key => keys.keepVerifying p key

theorem ext_held {keys keys' : Keyring PK VK} (h : ∀ c, keys.held c = keys'.held c) :
    keys = keys' := by
  have hproving : keys.proving = keys'.proving := funext fun p => h (.proving p)
  have hverifying : keys.verifying = keys'.verifying := funext fun p => h (.verifying p)
  cases keys
  cases keys'
  congr

@[simp] theorem held_empty (c : Cell) : (empty : Keyring PK VK).held c = none := by
  cases c <;> rfl

@[simp] theorem held_keep (c : Cell) (key : c.Key PK VK) : (keys.keep c key).held c = some key := by
  cases c <;> simp [keep, held]

/-- Filling a cell changes no other. -/
theorem held_keep_of_ne {c d : Cell} (h : d ≠ c) (key : c.Key PK VK) :
    (keys.keep c key).held d = keys.held d := by
  cases c with
  | proving p =>
    cases d with
    | proving q =>
      have hq : q ≠ p := fun hq => h (congrArg Cell.proving hq)
      simp [keep, held, hq]
    | verifying q => rfl
  | verifying p =>
    cases d with
    | proving q => rfl
    | verifying q =>
      have hq : q ≠ p := fun hq => h (congrArg Cell.verifying hq)
      simp [keep, held, hq]

variable (S : Scheme PK VK) (store : Artifact.Store) (depth : Nat) (fs : Files)

/-- The stored key for a cell, if it was made for this configuration. -/
def load : (c : Cell) → Except Failure (c.Key PK VK)
  | .proving p => loadProving S store depth fs p
  | .verifying p => loadVerifying S store depth fs p

/-- Asks for a cell's key. -/
def key : (c : Cell) → Loading PK VK (c.Key PK VK)
  | .proving p => provingKey S store depth fs p
  | .verifying p => verifyingKey S store depth fs p

/-- The key that there is for a cell, in the cell or else on the disk. -/
def now (c : Cell) : Except Failure (c.Key PK VK) :=
  match keys.held c with
  | some key => .ok key
  | none => load S store depth fs c

/-- The keyring after a cell's key was asked for. -/
def kept (c : Cell) : Keyring PK VK :=
  match keys.held c, load S store depth fs c with
  | none, .ok key => keys.keep c key
  | _, _ => keys

variable {keys} in
/-- A key that is held is used, whatever is on the disk. -/
theorem now_of_held {c : Cell} {key : c.Key PK VK} (h : keys.held c = some key) :
    keys.now S store depth fs c = .ok key := by
  rw [now, h]

variable {keys} in
theorem now_of_not_held {c : Cell} (h : keys.held c = none) :
    keys.now S store depth fs c = load S store depth fs c := by
  rw [now, h]

variable {keys} in
theorem kept_of_held {c : Cell} {key : c.Key PK VK} (h : keys.held c = some key) :
    keys.kept S store depth fs c = keys := by
  rw [kept, h]

/-- **A cell that is asked for is filled if it is empty and its key can be loaded**; nothing else
changes. -/
theorem held_kept (c d : Cell) : (keys.kept S store depth fs c).held d =
    (keys.held d).or (if c = d then (load S store depth fs d).toOption else none) := by
  unfold kept
  by_cases hd : c = d
  · subst hd
    rw [if_pos rfl]
    cases hheld : keys.held c with
    | some key => simp [hheld]
    | none =>
      cases load S store depth fs c with
      | ok key => simp [Except.toOption]
      | error f => simp [hheld, Except.toOption]
  · rw [if_neg hd, Option.or_none]
    split
    · exact keys.held_keep_of_ne (Ne.symm hd) _
    · rfl

/-- Looking at the keyring changes nothing. -/
theorem get_bind_run {α : Type} (f : Keyring PK VK → Loading PK VK α) :
    (get >>= f : Loading PK VK α).run.run keys = (f keys).run.run keys := rfl

/-- **Whoever asks for a cell's key gets what is held, or else what can be loaded.** -/
theorem key_run (c : Cell) : (key S store depth fs c).run.run keys =
    (keys.now S store depth fs c, keys.kept S store depth fs c) := by
  unfold now kept
  cases c with
  | proving p =>
    rw [key, provingKey, get_bind_run, held, load]
    cases keys.proving p with
    | some key => rfl
    | none => cases loadProving S store depth fs p <;> rfl
  | verifying p =>
    rw [key, verifyingKey, get_bind_run, held, load]
    cases keys.verifying p with
    | some key => rfl
    | none => cases loadVerifying S store depth fs p <;> rfl

end Keyring

/-! ### Bodies -/

namespace Request
variable {α : Type} {c : Json.Codec α} (r : Request)

/-- A body is read if it is called JSON, is not too long, and holds a value of the kind in front. -/
theorem readJson_eq_ok_iff {x : α} : r.readJson c = .ok x ↔
    r.contentType.any MediaType.isJson ∧ r.body.length ≤ maxBody ∧ c.ofPrefix r.body = .ok x := by
  unfold readJson
  split
  · next h => simp_all
  · next h =>
    split
    · next hlong => simp [Nat.not_le.mpr hlong]
    · next hlong =>
      cases c.ofPrefix r.body <;> simp_all [Except.mapError]

/-- A body that is not read is the caller's fault. -/
theorem status_of_readJson {e : Refusal} (h : r.readJson c = .error e) : e.status = 400 := by
  unfold readJson at h
  split at h
  · cases h
    rfl
  · split at h
    · cases h
      rfl
    · cases hread : c.ofPrefix r.body with
      | ok x =>
        rw [hread] at h
        cases h
      | error fault =>
        rw [hread] at h
        cases h
        cases fault <;> rfl

end Request

/-! ### Errands -/

/-- What a request comes to before any key is looked at. -/
inductive Errand (PK VK : Type) where
  | plain (a : Answer)
  | keyed (c : Cell) (use : Except Failure (c.Key PK VK) → Answer)

namespace Errand
variable {PK VK : Type}

/-- An errand, or a request that is refused at once. -/
def ofResult : Except Refusal (Errand PK VK) → Errand PK VK
  | .ok e => e
  | .error r => plain (.refused r)

/-- The errand with something done to its answer. -/
def map (f : Answer → Answer) : Errand PK VK → Errand PK VK
  | plain a => plain (f a)
  | keyed c use => keyed c fun key => f (use key)

/-- The cell that the errand looks into. -/
def cell? : Errand PK VK → Option Cell
  | plain _ => none
  | keyed c _ => some c

variable (S : Scheme PK VK) (s : Server) (fs : Files)

/-- Carries the errand out. -/
def run : Errand PK VK → StateM (Keyring PK VK) Answer
  | plain a => return a
  | keyed c use => use <$> (Keyring.key S s.store s.settings.merkleDepth fs c).run

theorem run_plain (a : Answer) (keys : Keyring PK VK) :
    ((plain a).run S s fs).run keys = (a, keys) := rfl

theorem run_keyed (c : Cell) (use : Except Failure (c.Key PK VK) → Answer)
    (keys : Keyring PK VK) :
    ((keyed c use).run S s fs).run keys =
      (use (keys.now S s.store s.settings.merkleDepth fs c),
        keys.kept S s.store s.settings.merkleDepth fs c) :=
  congrArg (fun o : Except Failure (c.Key PK VK) × Keyring PK VK => (use o.1, o.2))
    (keys.key_run S s.store s.settings.merkleDepth fs c)

theorem run_map (f : Answer → Answer) (e : Errand PK VK) :
    (e.map f).run S s fs = f <$> e.run S s fs := by
  cases e <;> simp [map, run]

/-- **One cell changes at most, the one that the errand looks into.** -/
theorem held_run (e : Errand PK VK) (keys : Keyring PK VK) (c : Cell) :
    ((e.run S s fs).run keys).2.held c = (keys.held c).or
      (if e.cell? = some c then
        (Keyring.load S s.store s.settings.merkleDepth fs c).toOption
      else none) := by
  cases e with
  | plain a =>
    rw [run_plain, if_neg (fun h => nomatch h), Option.or_none]
  | keyed d use =>
    rw [run_keyed, Keyring.held_kept, cell?]
    simp only [Option.some.injEq]

/-- An errand that looks into no empty cell changes nothing. -/
theorem run_keys_of_held (e : Errand PK VK) {keys : Keyring PK VK}
    (h : ∀ c, e.cell? = some c → ∃ key, keys.held c = some key) :
    ((e.run S s fs).run keys).2 = keys := by
  cases e with
  | plain a => rfl
  | keyed c use =>
    obtain ⟨key, hkey⟩ := h c rfl
    rw [run_keyed, Keyring.kept_of_held _ _ _ _ hkey]

/-- **An answer depends on the key that there is in that cell and on no other**, nor on the disk or
the service. -/
theorem run_congr (e : Errand PK VK) {s' : Server} {fs fs' : Files} {keys keys' : Keyring PK VK}
    (h : ∀ c, e.cell? = some c → keys.now S s.store s.settings.merkleDepth fs c =
      keys'.now S s'.store s'.settings.merkleDepth fs' c) :
    ((e.run S s fs).run keys).1 = ((e.run S s' fs').run keys').1 := by
  cases e with
  | plain a => rfl
  | keyed c use => rw [run_keyed, run_keyed, h c rfl]

end Errand

namespace Server
variable {PK VK : Type} (S : Scheme PK VK) (P : Poseidon.Params) (s : Server) (fs : Files)
  (entropy : Entropy) (r : Request)

/-- The bytes of a proof that is to be verified. -/
def proofBytes (request : VerifyRequest) : Except Refusal Bytes :=
  match Text.Base64.decode? request.proof.toList with
  | none => .error (.badRequest "invalid proof base64")
  | some proof => .ok proof

/-- What is answered once there is a proving key, or none. -/
def proveWith (p : Predicate) (request : GenerateRequest) (key : Except Failure PK) : Answer :=
  .ofResult (Answer.proved <$> do
    return s.attest S P entropy p (← key.mapError .ofFailure) request)

/-- What is answered about a proof once there is a verifying key, or none. -/
def verifyWith (proof : Bytes) (signals : List Scalar) (stored : Except Failure (StoredKey VK)) :
    Answer :=
  .ofResult ((fun ok => Answer.json (Wire.verifyReply ok)) <$> do
    let stored ← stored.mapError .ofFailure
    (S.verify stored.key proof signals).mapError .ofFailure)

/-- What is answered about a verifying key once there is one, or none. -/
def showWith (p : Predicate) (stored : Except Failure (StoredKey VK)) : Answer :=
  .ofResult ((fun reply => Answer.json (Wire.keyReply reply)) <$> do
    return { predicate := p, key := (← stored.mapError .ofFailure).bytes })

/-- The errand of a request on a route. -/
def errandOn : Route → Errand PK VK
  | .health => .plain (.ready ⟨200, .text "ok"⟩)
  | .commitment =>
    .plain (plainly r Wire.commitmentRequest (commitment P) Wire.commitmentReply)
  | .allowListRoot =>
    .plain (plainly r Wire.rootRequest (allowListRoot P s.settings.merkleDepth) Wire.rootReply)
  | .allowListProof =>
    .plain (plainly r Wire.inclusionRequest (allowListProof P s.settings.merkleDepth)
      Wire.inclusionReply)
  | .generate (some name) => .ofResult do
    let request ← r.readJson Wire.generateRequest
    let p ← named name
    return .keyed (.proving p) (s.proveWith S P entropy p request)
  | .verify (some name) => .ofResult do
    let request ← r.readJson Wire.verifyRequest
    let p ← named name
    let proof ← proofBytes request
    return .keyed (.verifying p) (verifyWith S proof request.publicSignals)
  | .verifyingKey (some name) => .ofResult do
    let p ← named name
    return .keyed (.verifying p) (showWith p)
  | .generate none | .verify none | .verifyingKey none => .plain (.ready .badName)

/-- The errand of a request. -/
def errand : Errand PK VK :=
  if r.method = "OPTIONS" then .plain (.empty 200)
  else
    match Route.ofTarget? r.target with
    | none => .plain (.empty 404)
    | some route =>
      if r.method = route.method then s.errandOn S P entropy r route
      else if r.method = "HEAD" ∧ route.method = "GET" then
        (s.errandOn S P entropy r route).map Answer.head
      else .plain (.empty 405)

variable {r} in
/-- The errand of a request with the method of its route. -/
theorem errand_of_method {route : Route} (hroute : Route.ofTarget? r.target = some route)
    (hmethod : r.method = route.method) :
    s.errand S P entropy r = s.errandOn S P entropy r route := by
  have hoptions : r.method ≠ "OPTIONS" := by
    rw [hmethod]
    cases route <;> simp [Route.method]
  rw [errand, if_neg hoptions, hroute]
  exact if_pos hmethod

/-! ### Answers are errands carried out -/

/-- Work that goes on after a load, the load's failure being a refusal. -/
theorem adapt_bind_run {α β : Type} (x : Loading PK VK α) (f : α → Except Refusal β)
    (keys : Keyring PK VK) :
    (x.adapt .ofFailure >>= fun a => ofExcept (f a) : Handler PK VK β).run.run keys =
      ((x.run.run keys).1.mapError .ofFailure >>= f, (x.run.run keys).2) := by
  have hadapt : (x.adapt .ofFailure : Handler PK VK α).run.run keys =
      ((x.run.run keys).1.mapError .ofFailure, (x.run.run keys).2) := rfl
  rw [ExceptT.run_bind, StateT.run_bind, hadapt]
  rcases x.run.run keys with ⟨e | a, kept⟩
  · rfl
  · show (ofExcept (f a) : Handler PK VK β).run.run kept = (f a, kept)
    cases f a <;> rfl

/-- What is sent after a load is made of what was loaded, and the keyring is the load's. -/
theorem finish_adapt_bind {α β : Type} (x : Loading PK VK α) (f : α → Except Refusal β)
    (g : β → Answer) : finish (g <$> (x.adapt .ofFailure >>= fun a => ofExcept (f a))) =
      (fun loaded => .ofResult (g <$> (loaded.mapError .ofFailure >>= f))) <$> x.run := by
  funext keys
  have hrun := adapt_bind_run x f keys
  unfold finish
  rw [ExceptT.run_map]
  show (fun o : Except Refusal β × Keyring PK VK => (Answer.ofResult (g <$> o.1), o.2))
    ((x.adapt .ofFailure >>= fun a => ofExcept (f a) : Handler PK VK β).run.run keys) = _
  rw [hrun]
  rfl

theorem finish_generate (p : Predicate) (request : GenerateRequest) :
    finish (Answer.proved <$> s.generate S P fs entropy p request) =
      (Errand.keyed (.proving p) (s.proveWith S P entropy p request)).run S s fs :=
  finish_adapt_bind (Keyring.provingKey S s.store s.settings.merkleDepth fs p)
    (fun key => .ok (s.attest S P entropy p key request)) Answer.proved

theorem finish_verify (p : Predicate) (request : VerifyRequest) :
    finish (Answer.json <$> Wire.verifyReply <$> s.verify S fs p request) =
      (Errand.ofResult do
        return Errand.keyed (.verifying p)
          (verifyWith S (← proofBytes request) request.publicSignals)).run S s fs := by
  rw [verify, proofBytes]
  cases Text.Base64.decode? request.proof.toList with
  | none => rfl
  | some proof =>
    rw [Functor.map_map]
    exact finish_adapt_bind (Keyring.verifyingKey S s.store s.settings.merkleDepth fs p)
      (fun stored => (S.verify stored.key proof request.publicSignals).mapError .ofFailure)
      fun ok => .json (Wire.verifyReply ok)

theorem finish_showKey (p : Predicate) :
    finish (Answer.json <$> Wire.keyReply <$> s.showKey S fs p) =
      (Errand.keyed (.verifying p) (showWith p)).run S s fs := by
  rw [Functor.map_map]
  exact finish_adapt_bind (Keyring.verifyingKey S s.store s.settings.merkleDepth fs p)
    (fun stored => .ok { predicate := p, key := stored.bytes }) fun reply =>
      .json (Wire.keyReply reply)

theorem answer_eq_errandOn (route : Route) :
    s.answer S P fs entropy r route = (s.errandOn S P entropy r route).run S s fs := by
  cases route with
  | health => rfl
  | commitment => rfl
  | allowListRoot => rfl
  | allowListProof => rfl
  | generate name =>
    cases name with
    | none => rfl
    | some name =>
      rw [answer, errandOn, handle]
      cases r.readJson Wire.generateRequest with
      | error e => rfl
      | ok request =>
        cases named name with
        | error e => rfl
        | ok p => exact s.finish_generate S P fs entropy p request
  | verify name =>
    cases name with
    | none => rfl
    | some name =>
      rw [answer, errandOn, handle]
      cases r.readJson Wire.verifyRequest with
      | error e => rfl
      | ok request =>
        cases named name with
        | error e => rfl
        | ok p => exact s.finish_verify S fs p request
  | verifyingKey name =>
    cases name with
    | none => rfl
    | some name =>
      rw [answer, errandOn]
      cases named name with
      | error e => rfl
      | ok p => exact s.finish_showKey S fs p

/-- **The answer to a request is its errand carried out.** -/
theorem respond_eq_errand :
    s.respond S P fs entropy r = (s.errand S P entropy r).run S s fs := by
  unfold respond errand
  cases Route.ofTarget? r.target with
  | none => split <;> rfl
  | some route =>
    dsimp only
    split_ifs
    · rfl
    · exact s.answer_eq_errandOn S P fs entropy r route
    · rw [Errand.run_map, answer_eq_errandOn]
    · rfl

theorem exchange_run (stamp : Stamp) (keys : Keyring PK VK) :
    (s.exchange S P fs entropy stamp r).run keys =
      let carried := ((s.errand S P entropy r).run S s fs).run keys
      (s.send stamp carried.1, carried.2) := by
  rw [exchange, respond_eq_errand]
  rfl

end Server

end Attest.Service
