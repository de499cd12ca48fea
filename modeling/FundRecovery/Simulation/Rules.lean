import FundRecovery.Collaborator
import FundRecovery.Error
import FundRecovery.Program

/-!
# Scripted answers

Rules that change what simulated collaborators answer, by address, path, passphrase or number of
the call.

* `ClientRules`, `DeriverRules`, `BulkRules`: the rules of each collaborator.
* `BulkRules.editActivity`, `BulkRules.editFetch`: what becomes of the entries of a bulk answer.
-/

namespace FundRecovery.Simulation

structure ClientRules where
  /-- Lookups that fail, by address. -/
  failures : List (String × ChainError)
  /-- Answers to form checks, by address. -/
  validations : List (String × Except ChainError AddressValidation)

namespace ClientRules

def none : ClientRules := ⟨[], []⟩

end ClientRules

structure DeriverRules where
  /-- Paths whose derivation crashes. -/
  panics : List String
  /-- Derivations that fail, by path. -/
  failures : List (String × DerivationError)
  /-- Addresses to answer instead, by path. -/
  aliases : List (String × String)
  /-- Keys that fail, by path. -/
  keyFailures : List (String × DerivationError)
  /-- Seeds that fail, by passphrase. -/
  passphraseFailures : List (String × DerivationError)
  /-- Passphrases are not supported at all. -/
  refusesPassphrases : Bool

namespace DeriverRules

def none : DeriverRules := ⟨[], [], [], [], [], false⟩

/-- The crash that a rule asks for. -/
def scriptedCrash : Crash := ⟨"scripted panic"⟩

/-- What becomes of a derivation. -/
def apply (r : DeriverRules) :
    Except DerivationError DerivedAddress → Except Crash (Except DerivationError DerivedAddress)
  | .error e => .ok (.error e)
  | .ok d =>
    if d.path ∈ r.panics then .error scriptedCrash
    else match r.failures.lookup d.path with
      | some e => .ok (.error e)
      | .none => .ok (.ok { d with address := (r.aliases.lookup d.path).getD d.address })

end DeriverRules

/-- Rules for one kind of bulk call, whose successful calls are counted from 1. -/
structure BulkCallRules where
  /-- The number of the call that cancels the token. -/
  cancelOn : Option Nat
  failures : List (Nat × ChainError)
  /-- Addresses whose entries are left out. -/
  drop : List String

namespace BulkCallRules

def none : BulkCallRules := ⟨.none, [], []⟩

end BulkCallRules

structure BulkRules where
  activity : BulkCallRules
  fetch : BulkCallRules
  /-- Addresses reported active besides. -/
  extraActivity : List String
  /-- Every entry of an activity check is given twice. -/
  duplicateActivity : Bool
  /-- Entries that a fetch gives besides. -/
  extraFetch : List AddressUtxos
  /-- Answers are given backwards. -/
  reversed : Bool

namespace BulkRules

def none : BulkRules := ⟨.none, .none, [], false, [], false⟩

def editActivity (r : BulkRules) (entries : List AddressActivity) : List AddressActivity :=
  let entries := entries.filter (·.address ∉ r.activity.drop)
  let entries := entries ++ r.extraActivity.map fun a => ⟨a, true, 1⟩
  let entries := if r.duplicateActivity then entries ++ entries else entries
  if r.reversed then entries.reverse else entries

def editFetch (r : BulkRules) (entries : List AddressUtxos) : List AddressUtxos :=
  let entries := entries.filter (·.address ∉ r.fetch.drop) ++ r.extraFetch
  if r.reversed then entries.reverse else entries

end BulkRules

end FundRecovery.Simulation
