import FundRecovery.Hex
import FundRecovery.Text.Basic

/-!
# Errors

One type of causes per collaborator and per activity, each with the one function that words it.

* `ChainError`, `DerivationError`, `TxError`: what collaborators report.
* `MigrationError`: what aborts a migration.
* `RecoveryError`: what a call of the library fails with.
-/

namespace FundRecovery

/-- Reported by a chain client or a bulk backend. -/
inductive ChainError where
  | request (reason : String)
  | invalidAddress (address : String)
  | unsupported (operation : String)
  | timeout
  deriving DecidableEq, Repr

namespace ChainError

def message : ChainError → String
  | request reason => "Request failed: " ++ reason
  | invalidAddress address => "Invalid address: " ++ address
  | unsupported operation => "Operation not supported: " ++ operation
  | timeout => "Timeout occurred"

end ChainError

/-- Reported by a key deriver. -/
inductive DerivationError where
  | invalidPath (path : String)
  | failed (reason : String)
  | passphraseUnsupported
  deriving DecidableEq, Repr

namespace DerivationError

def message : DerivationError → String
  | invalidPath path => "Invalid derivation path: " ++ path
  | failed reason => "Key derivation failed: " ++ reason
  | passphraseUnsupported => "Passphrase seeds are not supported by this deriver"

end DerivationError

/-- Reported by a transaction builder. -/
inductive TxError where
  | build (reason : String)
  | sign (index : Nat) (reason : String)
  | broadcast (reason : String)
  deriving DecidableEq, Repr

namespace TxError

def message : TxError → String
  | build reason => "Build failed: " ++ reason
  | sign index reason => "Signing input " ++ toString index ++ " failed: " ++ reason
  | broadcast reason => "Broadcast failed: " ++ reason

end TxError

/-- How a plan differs from what the chain holds now. -/
inductive Staleness where
  /-- A source holds another amount than the plan recorded. -/
  | source (address : String) (live recorded : Nat)
  /-- The sources add up to another amount than the plan's total. -/
  | total (live recorded : Nat)
  | other (reason : String)
  deriving DecidableEq, Repr

namespace Staleness

def message : Staleness → String
  | source address live recorded =>
    address ++ " holds " ++ toString live ++ " sat, plan recorded " ++ toString recorded ++ " sat"
  | total live recorded =>
    "sources hold " ++ toString live ++ " sat in total, plan recorded " ++ toString recorded ++
      " sat"
  | other reason => reason

end Staleness

/-- What aborts a migration. -/
inductive MigrationError where
  | noFunds
  | emptyDestination
  | invalidDestination (reason : String)
  | emptyPlan
  | emptySeed
  | dust (fee totalInput : Nat)
  | noInputs
  | stalePlan (staleness : Staleness)
  | chain (error : ChainError)
  | derivation (error : DerivationError)
  | transaction (error : TxError)
  deriving DecidableEq, Repr

namespace MigrationError

def message : MigrationError → String
  | noFunds => "Scan result holds no funds to migrate"
  | emptyDestination => "Destination address is empty"
  | invalidDestination reason => "Invalid destination address: " ++ reason
  | emptyPlan => "Migration plan has no sources"
  | emptySeed => "Seed is empty"
  | dust fee totalInput =>
    "Amount is dust: fee " ++ toString fee ++ " >= total input " ++ toString totalInput
  | noInputs => "No spendable inputs found for plan sources"
  | stalePlan staleness => "Stale plan: " ++ staleness.message
  | chain error => "Chain client error: " ++ error.message
  | derivation error => "Derivation error: " ++ error.message
  | transaction error => "Transaction error: " ++ error.message

end MigrationError

/-- What is wrong with the settings of a call. -/
inductive ConfigProblem where
  | zeroGapLimit
  | zeroExtendedGapLimit
  | zeroMaxConcurrent
  | duplicateScheme (name : String)
  | unknownMode (text : String)
  | emptyRange (start stop : UInt32)
  | other (reason : String)
  deriving DecidableEq, Repr

namespace ConfigProblem

def message : ConfigProblem → String
  | zeroGapLimit => "gap limit must be greater than zero"
  | zeroExtendedGapLimit => "extended gap limit must be greater than zero"
  | zeroMaxConcurrent => "max concurrent must be greater than zero"
  | duplicateScheme name => "duplicate scheme name: " ++ name
  | unknownMode text => "unknown recovery mode: " ++ text
  | emptyRange start stop =>
    "empty index range " ++ toString start.toNat ++ ".." ++ toString stop.toNat
  | other reason => reason

end ConfigProblem

namespace Hex.DecodeError

def message : DecodeError → String
  | oddLength => "Odd number of digits"
  | invalidCharacter byte position =>
    "Invalid character " ++ Text.showChar (Char.ofNat byte.toNat) ++ " at position " ++
      toString position

end Hex.DecodeError

/-- Why a seed cannot be used. -/
inductive SeedProblem where
  | empty
  | hex (error : Hex.DecodeError)
  | other (reason : String)
  deriving DecidableEq, Repr

namespace SeedProblem

def message : SeedProblem → String
  | empty => "seed is empty"
  | hex error => "Invalid hex: " ++ error.message
  | other reason => reason

end SeedProblem

/-- Reported while setting up log output. -/
inductive LoggingError where
  | subscriberInit (reason : String)
  deriving DecidableEq, Repr

namespace LoggingError

def message : LoggingError → String
  | subscriberInit reason => "Subscriber initialization failed: " ++ reason

end LoggingError

/-- What a call of the library fails with. -/
inductive RecoveryError where
  | config (problem : ConfigProblem)
  | invalidSeed (problem : SeedProblem)
  | unknownScheme (name : String)
  | derivation (error : DerivationError)
  | chain (error : ChainError)
  | tx (error : TxError)
  | migration (error : MigrationError)
  | logging (error : LoggingError)
  deriving DecidableEq, Repr

namespace RecoveryError

def message : RecoveryError → String
  | config problem => "Configuration error: " ++ problem.message
  | invalidSeed problem => "Invalid seed: " ++ problem.message
  | unknownScheme name => "Unknown path scheme: " ++ name
  | derivation error => "Derivation error: " ++ error.message
  | chain error => "Chain client error: " ++ error.message
  | tx error => "Transaction builder error: " ++ error.message
  | migration error => "Migration error: " ++ error.message
  | logging error => "Logging error: " ++ error.message

end RecoveryError

end FundRecovery
