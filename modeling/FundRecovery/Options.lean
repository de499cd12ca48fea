import FundRecovery.GapLimit
import FundRecovery.Scheme.Registry

/-!
# Options and progress

* `ScanOptions.validate`: limits are positive and scheme names unique.
* `ScanOptions.passphraseAttempts`: the attempts a scan makes, one without passphrase if none are
  configured.
* `ScanOptions.describe`: the options as diagnostics show them, passphrases by their number only.
* `LogConfig.install`: log output goes to one subscriber per process, which can be installed once.
-/

namespace FundRecovery

def version : String := "0.1.0"

/-! ## Scans -/

/-- What a progress event tells. -/
inductive ScanPhase where
  /-- An address is being checked. -/
  | scanning
  /-- Funds were found at an address. -/
  | found
  /-- A failure that does not end the scan. -/
  | error
  deriving DecidableEq, Repr

namespace ScanPhase

def text : ScanPhase → String
  | scanning => "scanning"
  | found => "found"
  | error => "error"

end ScanPhase

/-- A progress event. Its counters are those of its scheme so far. -/
structure ScanProgress where
  phase : ScanPhase
  schemeName : String
  addressesScanned : Nat
  utxosFound : Nat
  balanceFound : Nat
  currentAddress : String
  message : String
  deriving DecidableEq, Repr

/-- What controls a scan. -/
structure ScanOptions where
  /-- Unused addresses in a row that end a chain. -/
  gapLimit : UInt32
  /-- The same for the scheme of the highest priority. -/
  extendedGapLimit : UInt32
  /-- The number of workers of a parallel scan. -/
  maxConcurrent : Nat
  pathSchemes : List PathScheme
  /-- Whether change chains are scanned at all. -/
  scanChangeAddresses : Bool
  /-- Passphrases to try in order. -/
  passphrases : List String
  /-- Whether a bulk backend is used when one is attached. -/
  useBulkOperations : Bool
  /-- Whether an observer receives progress events. -/
  observed : Bool
  deriving DecidableEq, Repr

namespace ScanOptions

def default : ScanOptions where
  gapLimit := GapLimit.standard
  extendedGapLimit := GapLimit.extended
  maxConcurrent := 3
  pathSchemes := registry
  scanChangeAddresses := true
  passphrases := []
  useBulkOperations := true
  observed := false

instance : Inhabited ScanOptions := ⟨default⟩

/-- Checked before any work: the limits in this order, then the names of the schemes. -/
def validate (o : ScanOptions) : Except RecoveryError Unit :=
  if o.gapLimit = 0 then .error (.config .zeroGapLimit)
  else if o.extendedGapLimit = 0 then .error (.config .zeroExtendedGapLimit)
  else if o.maxConcurrent = 0 then .error (.config .zeroMaxConcurrent)
  else ensureUniqueNames o.pathSchemes

def passphraseAttempts (o : ScanOptions) : List String :=
  if o.passphrases.isEmpty then [""] else o.passphrases

/-- The scheme of the highest priority gets the extended limit. -/
def gapLimitAt (o : ScanOptions) (priorityIndex : Nat) : UInt32 :=
  if priorityIndex = 0 then o.extendedGapLimit else o.gapLimit

end ScanOptions

/-- A record as diagnostics show it: its name, then its fields in braces. -/
def describeRecord (name : String) (fields : List (String × String)) : String :=
  name ++ " \x7b " ++ ", ".intercalate (fields.map fun f => f.1 ++ ": " ++ f.2) ++ " \x7d"

/-- A list as diagnostics show it. -/
def describeList (items : List String) : String := "[" ++ ", ".intercalate items ++ "]"

namespace PathScheme

def describe (s : PathScheme) : String :=
  describeRecord "PathScheme" [
    ("name", Text.showText s.name),
    ("coin_type", toString s.coinType.toNat),
    ("purpose", toString s.purpose.toNat),
    ("accounts", describeList (s.accounts.map fun a => toString a.toNat)),
    ("scan_change", toString s.scanChange),
    ("is_legacy", toString s.isLegacy),
    ("priority", toString s.priority.toNat),
    ("description", Text.showText s.description)]

end PathScheme

namespace ScanOptions

/-- The options with the number of passphrases in place of their texts. -/
def describe (o : ScanOptions) : String :=
  describeRecord "ScanOptions" [
    ("gap_limit", toString o.gapLimit.toNat),
    ("extended_gap_limit", toString o.extendedGapLimit.toNat),
    ("max_concurrent", toString o.maxConcurrent),
    ("path_schemes", describeList (o.pathSchemes.map PathScheme.describe)),
    ("scan_change_addresses", toString o.scanChangeAddresses),
    ("passphrases", toString o.passphrases.length),
    ("use_bulk_operations", toString o.useBulkOperations),
    ("progress_callback", toString o.observed)]

end ScanOptions

/-! ## Log output -/

inductive LogLevel where
  | off
  | error
  | warn
  | info
  | debug
  | trace
  deriving DecidableEq, Repr

structure LogConfig where
  /-- Without a level the environment decides. -/
  level : Option LogLevel
  console : Bool
  deriving DecidableEq, Repr

namespace LogConfig

def default : LogConfig := ⟨none, true⟩

/-- Sets up log output where `installed` says whether the process has a subscriber already; the
answer says whether it has one then. Without console output nothing is installed. -/
def install (c : LogConfig) (installed : Bool) : Except LoggingError Bool :=
  if !c.console then .ok installed
  else if installed then .error (.subscriberInit "a subscriber has already been set")
  else .ok true

end LogConfig

end FundRecovery
