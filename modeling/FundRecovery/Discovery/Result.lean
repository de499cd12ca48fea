import FundRecovery.FirstOccurrence
import FundRecovery.NameMap
import FundRecovery.Total

/-!
# Scan results

* `DiscoveredAddress`: a funded address, with the position it was derived at.
* `ScanFailure`: a failure that was recorded and did not end the scan.
* `ScanResult.addresses`: every discovery once, schemes in scan order.
-/

namespace FundRecovery

/-- An address found holding funds. -/
structure DiscoveredAddress where
  address : String
  /-- The derivation path as the key deriver reported it. -/
  path : String
  schemeName : String
  /-- The sum of the outputs when the address was discovered. -/
  balance : Nat
  utxoCount : Nat
  isChange : Bool
  index : UInt32
  account : UInt32
  coinType : UInt32
  deriving DecidableEq, Repr

/-- A failure while scanning, of one scheme or of the whole scan. -/
structure ScanFailure where
  scheme : Option String
  message : String
  deriving DecidableEq, Repr

namespace ScanFailure

def forScheme (scheme message : String) : ScanFailure := ⟨some scheme, message⟩

def general (message : String) : ScanFailure := ⟨none, message⟩

def text (f : ScanFailure) : String :=
  match f.scheme with
  | some scheme => scheme ++ ": " ++ f.message
  | none => f.message

end ScanFailure

/-- A span of time. -/
structure Duration where
  secs : Nat
  nanos : Nat
  nanos_lt : nanos < 1000000000 := by decide
  deriving DecidableEq, Repr

namespace Duration

def zero : Duration := { secs := 0, nanos := 0 }

end Duration

/-- What a scan returns. -/
structure ScanResult where
  /-- Funded addresses by scheme, each list in derivation order. -/
  foundAddresses : NameMap (List DiscoveredAddress)
  totalBalance : Nat
  totalUtxos : Nat
  /-- The schemes that were scanned, in scan order. -/
  schemesScanned : List String
  addressesScanned : Nat
  /-- How long the scan took; zero unless whoever ran it took the time. -/
  duration : Duration
  /-- The passphrase of the attempt that the result belongs to. -/
  passphraseUsed : String
  errors : List ScanFailure
  /-- The scan was stopped early. -/
  cancelled : Bool
  deriving DecidableEq, Repr

namespace ScanResult

def empty : ScanResult where
  foundAddresses := ∅
  totalBalance := 0
  totalUtxos := 0
  schemesScanned := []
  addressesScanned := 0
  duration := .zero
  passphraseUsed := ""
  errors := []
  cancelled := false

instance : Inhabited ScanResult := ⟨empty⟩

def hasFunds (r : ScanResult) : Bool := 0 < r.totalBalance

/-- The number of funded addresses of all schemes, which are in memory at once. -/
def addressCount (r : ScanResult) : Nat := totalOf List.length r.foundAddresses.values

/-- The funded addresses of one scheme. -/
def addressesOf (r : ScanResult) (scheme : String) : List DiscoveredAddress :=
  (r.foundAddresses.get? scheme).getD []

/-- Every funded address, schemes in scan order. A scheme listed twice counts once. -/
def addresses (r : ScanResult) : List DiscoveredAddress :=
  (firstOccurrences id r.schemesScanned).flatMap r.addressesOf

end ScanResult

end FundRecovery
