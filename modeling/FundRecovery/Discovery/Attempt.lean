import FundRecovery.Discovery.Outcome
import FundRecovery.Total

/-!
# Passphrase attempts

A scan makes one attempt per passphrase, each with the seed that the passphrase selects. The first
attempt that finds funds is returned, or else the last one that was completed.

* `Attempt.absorb`: a scheme's outcome becomes part of an attempt; a failed scheme contributes its
  failure and no address.
* `Attempts.run`: attempts in order until one finds funds or is cancelled.
* `Attempts.result`: the result, with the failures of earlier attempts under their numbers.
-/

namespace FundRecovery.Discovery

/-- What an attempt has gathered so far. -/
structure Attempt where
  passphrase : String
  foundAddresses : NameMap (List DiscoveredAddress)
  schemesScanned : List String
  addressesScanned : Nat
  errors : List ScanFailure
  cancelled : Bool
  deriving DecidableEq, Repr

namespace Attempt

def start (passphrase : String) : Attempt :=
  { passphrase, foundAddresses := ∅, schemesScanned := [], addressesScanned := 0, errors := [],
    cancelled := false }

/-- Every scheme counts as scanned. -/
def absorb (a : Attempt) (o : SchemeOutcome) : Attempt :=
  let a := { a with
    schemesScanned := a.schemesScanned ++ [o.schemeName]
    addressesScanned := a.addressesScanned + o.scanned
    cancelled := a.cancelled || o.cancelled }
  match o.failure with
  | some failure =>
    { a with errors := a.errors ++ [ScanFailure.forScheme o.schemeName failure.message] }
  | none =>
    if o.addresses.isEmpty then a
    else { a with foundAddresses := a.foundAddresses.insert o.schemeName o.addresses }

def recordFailure (a : Attempt) (f : ScanFailure) : Attempt := { a with errors := a.errors ++ [f] }

/-- Takes over a look at the token. -/
def noteToken (a : Attempt) (cancelled : Bool) : Attempt :=
  { a with cancelled := a.cancelled || cancelled }

def discoveries (a : Attempt) : List DiscoveredAddress := a.foundAddresses.values.flatten

def hasFunds (a : Attempt) : Bool := a.discoveries.any (0 < ·.balance)

/-- The failure that a cancelled scan ends with. -/
def cancelledNote : ScanFailure := .general "scan cancelled"

/-- The totals are those of the addresses found, in words. -/
def result (a : Attempt) : ScanResult where
  foundAddresses := a.foundAddresses
  totalBalance := wordTotal (·.balance) a.discoveries
  totalUtxos := wordTotal (·.utxoCount) a.discoveries
  schemesScanned := a.schemesScanned
  addressesScanned := a.addressesScanned
  duration := .zero
  passphraseUsed := a.passphrase
  errors := if a.cancelled then a.errors ++ [cancelledNote] else a.errors
  cancelled := a.cancelled

end Attempt

/-- Names the attempt, counted from 1, that a message comes from. -/
def attemptMessage (number : Nat) (message : String) : String :=
  "passphrase attempt " ++ toString number ++ ": " ++ message

/-- The attempts made so far. -/
structure Attempts where
  /-- The failures of attempts that will not be returned. -/
  carried : List ScanFailure
  /-- The last completed attempt and its number. -/
  last : Option (Nat × Attempt)
  deriving DecidableEq, Repr

namespace Attempts

def none : Attempts := ⟨[], .none⟩

/-- The seed of attempt `number` could not be obtained. -/
def seedFailed (as : Attempts) (number : Nat) (e : DerivationError) : Attempts :=
  { as with carried := as.carried ++ [ScanFailure.general (attemptMessage number e.message)] }

/-- The failures of an attempt that is not returned, under its number. -/
def renumbered : Option (Nat × Attempt) → List ScanFailure
  | .none => []
  | some (number, a) => a.errors.map fun f => { f with message := attemptMessage number f.message }

/-- Attempt `number` takes the place of the last one. -/
def complete (as : Attempts) (number : Nat) (a : Attempt) : Attempts :=
  ⟨as.carried ++ renumbered as.last, some (number, a)⟩

/-- The result of the last attempt, after the failures carried along. -/
def result (as : Attempts) : ScanResult :=
  let a := (as.last.map (·.2)).getD (.start "")
  { a with errors := as.carried ++ a.errors : Attempt }.result

/-- Makes attempts, the first of them number `number`, until one finds funds or is cancelled. -/
def run {m : Type → Type} [Monad m] (seedFor : String → m (Except DerivationError Seed))
    (scan : Nat → Seed → String → m Attempt) (number : Nat) (as : Attempts) :
    List String → m Attempts
  | [] => pure as
  | passphrase :: rest => do
    match ← seedFor passphrase with
    | .error e => run seedFor scan (number + 1) (as.seedFailed number e) rest
    | .ok seed =>
      let a ← scan number seed passphrase
      if a.hasFunds || a.cancelled then return as.complete number a
      run seedFor scan (number + 1) (as.complete number a) rest

end Attempts

end FundRecovery.Discovery
