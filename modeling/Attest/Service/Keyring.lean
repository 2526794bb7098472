import Attest.Artifact.Store

/-! Keys that a running service has loaded.

A key is loaded when it is first asked for and kept from then on, whatever
becomes of its file. A load that fails keeps nothing, so that the next one tries
again. A predicate's proving key and its verifying key are kept apart, and a key
comes in only past the manifest. -/
namespace Attest.Service
open Artifact

/-- A verifying key and the bytes it was read from. -/
structure StoredKey (VK : Type) where
  bytes : Bytes
  key : VK

structure Keyring (PK VK : Type) where
  proving : Predicate → Option PK
  verifying : Predicate → Option (StoredKey VK)

namespace Keyring
variable {PK VK : Type}

def empty : Keyring PK VK := ⟨fun _ => none, fun _ => none⟩

def keepProving (k : Keyring PK VK) (p : Predicate) (key : PK) : Keyring PK VK :=
  { k with proving := fun q => if q = p then some key else k.proving q }

def keepVerifying (k : Keyring PK VK) (p : Predicate) (key : StoredKey VK) : Keyring PK VK :=
  { k with verifying := fun q => if q = p then some key else k.verifying q }

@[simp] theorem proving_keepProving (k : Keyring PK VK) (p q : Predicate) (key : PK) :
    (k.keepProving p key).proving q = if q = p then some key else k.proving q := rfl

@[simp] theorem verifying_keepProving (k : Keyring PK VK) (p : Predicate) (key : PK) :
    (k.keepProving p key).verifying = k.verifying := rfl

@[simp] theorem verifying_keepVerifying (k : Keyring PK VK) (p q : Predicate)
    (key : StoredKey VK) :
    (k.keepVerifying p key).verifying q = if q = p then some key else k.verifying q := rfl

@[simp] theorem proving_keepVerifying (k : Keyring PK VK) (p : Predicate) (key : StoredKey VK) :
    (k.keepVerifying p key).proving = k.proving := rfl

end Keyring

/-- Work that may load keys; what was loaded stays when the work fails. -/
abbrev Loading (PK VK : Type) := ExceptT Failure (StateM (Keyring PK VK))

namespace Keyring
variable {PK VK : Type} (S : Scheme PK VK) (store : Store) (depth : Nat) (fs : Files)

/-- The stored proving key, if it was made for this configuration. -/
def loadProving (p : Predicate) : Except Failure PK := do
  store.check fs p depth
  store.provingKey S fs p

/-- The stored verifying key, if it was made for this configuration. -/
def loadVerifying (p : Predicate) : Except Failure (StoredKey VK) := do
  store.check fs p depth
  let bytes ← store.verifyingBytes fs p
  return ⟨bytes, ← S.readVerifyingKey bytes⟩

def provingKey (p : Predicate) : Loading PK VK PK := do
  match (← get).proving p with
  | some key => return key
  | none =>
    let key ← ofExcept (loadProving S store depth fs p)
    modify fun k => k.keepProving p key
    return key

def verifyingKey (p : Predicate) : Loading PK VK (StoredKey VK) := do
  match (← get).verifying p with
  | some key => return key
  | none =>
    let key ← ofExcept (loadVerifying S store depth fs p)
    modify fun k => k.keepVerifying p key
    return key

end Keyring

end Attest.Service
