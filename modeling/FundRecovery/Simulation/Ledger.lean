import FundRecovery.Collaborator
import FundRecovery.Error
import FundRecovery.Hex
import FundRecovery.NameMap

/-!
# An in-memory chain

* `Ledger`: which outputs addresses hold, and which addresses ever held any.
* `Ledger.listUtxos`: a logged lookup.
-/

namespace FundRecovery.Simulation

/-- The state of the chain and of what was asked of it. -/
structure Ledger where
  utxos : NameMap (List Utxo)
  /-- Addresses with history, whether they hold anything or not. -/
  activityOnly : List String
  /-- Addresses whose lookups fail. -/
  failing : List String
  /-- Addresses of bad form, with the reason. -/
  invalid : NameMap String
  /-- The addresses looked up, in order. -/
  requests : Array String
  /-- The number of outputs made so far. -/
  created : Nat
  deriving Repr

namespace Ledger

def empty : Ledger := ⟨∅, [], [], ∅, #[], 0⟩

def utxosOf (l : Ledger) (address : String) : List Utxo := (l.utxos.get? address).getD []

def setUtxos (l : Ledger) (address : String) (utxos : List Utxo) : Ledger :=
  { l with utxos := l.utxos.insert address utxos }

/-- A new output at an address, in a transaction of its own. -/
def addUtxo (l : Ledger) (address : String) (amount : Nat) : Ledger :=
  let utxo : Utxo :=
    { txid := Hex.padded 64 (l.created + 1), vout := 0, amount, address, confirmations := 6 }
  { l.setUtxos address (l.utxosOf address ++ [utxo]) with created := l.created + 1 }

def setActive (l : Ledger) (address : String) : Ledger :=
  { l with activityOnly := address :: l.activityOnly }

/-- Spends all that an address holds; its history stays. -/
def spendAll (l : Ledger) (address : String) : Ledger :=
  { l with utxos := l.utxos.erase address }.setActive address

def failAddress (l : Ledger) (address : String) : Ledger :=
  { l with failing := address :: l.failing }

def setInvalid (l : Ledger) (address reason : String) : Ledger :=
  { l with invalid := l.invalid.insert address reason }

def hasActivity (l : Ledger) (address : String) : Bool :=
  !(l.utxosOf address).isEmpty || address ∈ l.activityOnly

/-- Notes a lookup. -/
def note (l : Ledger) (address : String) : Ledger := { l with requests := l.requests.push address }

def lookup (l : Ledger) (address : String) : Except ChainError (List Utxo) :=
  if address ∈ l.failing then .error (.request ("lookup failed for " ++ address))
  else .ok (l.utxosOf address)

def validation (l : Ledger) (address : String) : AddressValidation :=
  match l.invalid.get? address with
  | some reason => ⟨false, some reason⟩
  | none => ⟨true, none⟩

end Ledger

/-- A bulk backend that answers from a ledger. -/
structure BulkBackend where
  activityRequests : Array (List String)
  fetchRequests : Array (List String)
  failActivity : Bool
  failFetch : Bool
  deriving Repr

namespace BulkBackend

def empty : BulkBackend := ⟨#[], #[], false, false⟩

def noteActivity (b : BulkBackend) (addresses : List String) : BulkBackend :=
  { b with activityRequests := b.activityRequests.push addresses }

def noteFetch (b : BulkBackend) (addresses : List String) : BulkBackend :=
  { b with fetchRequests := b.fetchRequests.push addresses }

/-- One entry per address that was asked for. -/
def activity (b : BulkBackend) (l : Ledger) (addresses : List String) :
    Except ChainError (List AddressActivity) :=
  if b.failActivity then .error (.unsupported "activity check")
  else .ok (addresses.map fun a =>
    let active := l.hasActivity a
    ⟨a, active, if active then 1 else 0⟩)

def fetch (b : BulkBackend) (l : Ledger) (addresses : List String) :
    Except ChainError (List AddressUtxos) :=
  if b.failFetch then .error .timeout else .ok (addresses.map fun a => ⟨a, l.utxosOf a⟩)

end BulkBackend

end FundRecovery.Simulation
