import FundRecovery.Discovery.Request
import FundRecovery.Migration.Execution
import FundRecovery.Simulation.Builder
import FundRecovery.Simulation.Deriver
import FundRecovery.Simulation.Ledger
import FundRecovery.Simulation.Rules

/-!
# Simulated collaborators

All collaborators of scans and migrations in one state, with cancellation tokens and a recorder of
progress events.

* `environment`: the simulation as the environment of a scan, whose token is the current one.
* `migrationHandler`: the simulation as the handler of a migration.
-/

namespace FundRecovery.Simulation

/-- Tokens are numbered in the order in which they are made. -/
structure Tokens where
  current : Nat
  cancelled : List Nat
  deriving DecidableEq, Repr

namespace Tokens

def first : Tokens := ⟨0, []⟩

def isCancelled (t : Tokens) : Bool := t.current ∈ t.cancelled

def cancel (t : Tokens) (token : Nat) : Tokens := { t with cancelled := token :: t.cancelled }

/-- A new token takes the place of the current one. -/
def renew (t : Tokens) : Tokens := { t with current := t.current + 1 }

end Tokens

/-- A bulk call that was answered, by kind. -/
structure BulkCounts where
  activity : Nat
  fetch : Nat
  deriving DecidableEq, Repr

structure State where
  ledger : Ledger
  bulk : BulkBackend
  deriver : Deriver
  builder : Builder
  tokens : Tokens
  /-- The token to cancel once so many lookups were made. -/
  cancelAfter : Option (Nat × Nat)
  /-- The numbers of the events at which the current token is cancelled. -/
  cancelOnEvents : List Nat
  events : Array ScanProgress
  clientRules : ClientRules
  deriverRules : DeriverRules
  bulkRules : BulkRules
  /-- The bulk calls that the backend answered so far. -/
  bulkCounts : BulkCounts

namespace State

def initial : State where
  ledger := .empty
  bulk := .empty
  deriver := .new true
  builder := .new
  tokens := .first
  cancelAfter := none
  cancelOnEvents := []
  events := #[]
  clientRules := .none
  deriverRules := .none
  bulkRules := .none
  bulkCounts := ⟨0, 0⟩

def cancelCurrent (s : State) : State := { s with tokens := s.tokens.cancel s.tokens.current }

/-- Notes a lookup, and cancels the token that was to be cancelled by then. -/
def noteLookup (s : State) (address : String) : State :=
  let s := { s with ledger := s.ledger.note address }
  match s.cancelAfter with
  | some (count, token) =>
    if count ≤ s.ledger.requests.size then { s with tokens := s.tokens.cancel token } else s
  | none => s

def listUtxos (s : State) (address : String) : Except ChainError (List Utxo) × State :=
  let s := s.noteLookup address
  match s.clientRules.failures.lookup address with
  | some e => (.error e, s)
  | none => (s.ledger.lookup address, s)

def validateAddress (s : State) (address : String) : Except ChainError AddressValidation :=
  match s.clientRules.validations.lookup address with
  | some answer => answer
  | none => .ok (s.ledger.validation address)

def seedForPassphrase (s : State) (seed : Seed) (passphrase : String) :
    Except DerivationError Seed :=
  if s.deriverRules.refusesPassphrases then .error .passphraseUnsupported
  else match s.deriverRules.passphraseFailures.lookup passphrase with
    | some e => .error e
    | none => s.deriver.seedFor seed passphrase

def privateKey (s : State) (path : String) : Except DerivationError (List UInt8) × State :=
  let s := { s with deriver := s.deriver.noteKey path }
  match s.deriver.privateKey path with
  | .error e => (.error e, s)
  | .ok key => ((s.deriverRules.keyFailures.lookup path).elim (.ok key) .error, s)

/-- What becomes of bulk call number `number` of its kind. -/
def scriptBulk {α : Type} (s : State) (rules : BulkCallRules) (number : Nat) (answer : α) :
    Except ChainError α × State :=
  let s := if rules.cancelOn = some number then s.cancelCurrent else s
  ((rules.failures.lookup number).elim (.ok answer) .error, s)

def checkActivity (s : State) (addresses : List String) :
    Except ChainError (List AddressActivity) × State :=
  let s := { s with bulk := s.bulk.noteActivity addresses }
  match s.bulk.activity s.ledger addresses with
  | .error e => (.error e, s)
  | .ok entries =>
    let number := s.bulkCounts.activity + 1
    { s with bulkCounts.activity := number }.scriptBulk s.bulkRules.activity number
      (s.bulkRules.editActivity entries)

def fetchUtxos (s : State) (addresses : List String) :
    Except ChainError (List AddressUtxos) × State :=
  let s := { s with bulk := s.bulk.noteFetch addresses }
  match s.bulk.fetch s.ledger addresses with
  | .error e => (.error e, s)
  | .ok entries =>
    let number := s.bulkCounts.fetch + 1
    { s with bulkCounts.fetch := number }.scriptBulk s.bulkRules.fetch number
      (s.bulkRules.editFetch entries)

/-- Records an event, and cancels the current token if this is the event for it. -/
def record (s : State) (event : ScanProgress) : State :=
  let s := { s with events := s.events.push event }
  if s.events.size ∈ s.cancelOnEvents then s.cancelCurrent else s

/-- The answer to a call of a scan, or its crash, and the state after it. -/
def answer : (c : Discovery.Call) → State → Except Crash c.Answer × State
  | .deriveAddress seed coinType account change index, s =>
    let s := { s with deriver := s.deriver.countBip44 }
    (s.deriverRules.apply (s.deriver.bip44 seed coinType account change index), s)
  | .deriveLegacyAddress seed index, s =>
    let s := { s with deriver := s.deriver.countLegacy }
    (s.deriverRules.apply (s.deriver.legacy seed index), s)
  | .seedForPassphrase seed passphrase, s => (.ok (s.seedForPassphrase seed passphrase), s)
  | .listUtxos address, s => (s.listUtxos address).map .ok id
  | .checkActivity addresses, s => (s.checkActivity addresses).map .ok id
  | .fetchUtxos addresses, s => (s.fetchUtxos addresses).map .ok id
  | .report event, s => (.ok (), s.record event)

end State

/-- The simulation as the environment of a scan with the current token. -/
def environment : Discovery.Environment State where
  reply c s :=
    let (answer, s) := s.answer c
    ⟨answer, s, s.tokens.isCancelled⟩
  interrupt s := (s.tokens.isCancelled, s)
  taskError task crash :=
    "task " ++ toString task ++ " panicked with message " ++ Text.showText crash.message

/-- The simulation as the handler of a migration. -/
def migrationHandler : Handler Migration.interface State
  | .validateAddress address, s => (.ok (s.validateAddress address), s)
  | .listUtxos address, s => (s.listUtxos address).map .ok id
  | .derivePrivateKey _ path, s => (s.privateKey path).map .ok id
  | .build inputs destination amount, s =>
    let (r, builder) := s.builder.build inputs destination amount
    (.ok r, { s with builder })
  | .sign tx index key sigHash, s =>
    let (r, builder) := s.builder.sign tx index key sigHash
    (.ok r, { s with builder })
  | .broadcast tx, s =>
    let (r, builder) := s.builder.broadcast tx
    (.ok r, { s with builder })

end FundRecovery.Simulation
