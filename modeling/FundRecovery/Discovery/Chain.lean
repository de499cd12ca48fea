import FundRecovery.Discovery.Request
import FundRecovery.Discovery.Result

/-!
# Scanning one chain, address by address

A chain is scanned from index 0 upwards until the gap limit is reached, a derivation fails, the
token is cancelled or the index space ends.

* `SchemeScan`: what the scan of a scheme has gathered so far.
* `scanIndividually`: the scan of one chain that looks up each address by itself.
-/

namespace FundRecovery.Discovery

/-- A derivation failure, which ends the scan of its scheme. -/
structure DerivationFailure where
  index : UInt32
  error : DerivationError
  deriving DecidableEq, Repr

namespace DerivationFailure

def message (f : DerivationFailure) : String :=
  "derivation failed at index " ++ toString f.index.toNat ++ ": " ++ f.error.message

end DerivationFailure

/-- What the scan of one scheme has gathered so far. -/
structure SchemeScan where
  schemeName : String
  found : List DiscoveredAddress
  scanned : Nat
  utxoCount : Nat
  balance : Nat
  failure : Option DerivationFailure
  cancelled : Bool
  deriving DecidableEq, Repr

namespace SchemeScan

def start (schemeName : String) : SchemeScan :=
  { schemeName, found := [], scanned := 0, utxoCount := 0, balance := 0, failure := none,
    cancelled := false }

/-- An event with the counters as they stand. -/
def event (scan : SchemeScan) (phase : ScanPhase) (address message : String) : ScanProgress where
  phase := phase
  schemeName := scan.schemeName
  addressesScanned := scan.scanned
  utxosFound := scan.utxoCount
  balanceFound := scan.balance
  currentAddress := address
  message := message

/-- Nothing more of the scheme is scanned. -/
def ended (scan : SchemeScan) : Bool := scan.failure.isSome || scan.cancelled

end SchemeScan

/-- A chain to scan. -/
structure Target where
  options : ScanOptions
  seed : Seed
  scheme : PathScheme
  chain : Chain
  deriving DecidableEq, Repr

namespace Target

/-- Legacy chains have a derivation of their own. -/
def derive (t : Target) (index : UInt32) : Scan (Except DerivationError DerivedAddress) :=
  if t.scheme.isLegacy then call (.deriveLegacyAddress t.seed index)
  else call (.deriveAddress t.seed t.scheme.coinType t.chain.account t.chain.level index)

/-- The discovery of `utxos` at an address of the chain. -/
def discovery (t : Target) (schemeName : String) (index : UInt32) (derived : DerivedAddress)
    (utxos : List Utxo) : DiscoveredAddress where
  address := derived.address
  path := derived.path
  schemeName := schemeName
  balance := totalAmount utxos
  utxoCount := utxos.length
  isChange := t.chain.isChange
  index := index
  account := t.chain.account
  coinType := t.scheme.coinType

end Target

namespace SchemeScan

/-- Adds a discovery to the counters, which are words, and to the list. -/
def add (scan : SchemeScan) (d : DiscoveredAddress) : SchemeScan :=
  { scan with
    found := scan.found ++ [d]
    balance := inWord (scan.balance + d.balance)
    utxoCount := inWord (scan.utxoCount + d.utxoCount) }

end SchemeScan

/-- Counts an address and reports that it is being checked. -/
def visit (t : Target) (address : String) (scan : SchemeScan) : Scan SchemeScan := do
  let scan := { scan with scanned := scan.scanned + 1 }
  report t.options (scan.event .scanning address "")
  return scan

/-- Records outputs found at an address, if there are any, and reports them. -/
def recordFound (t : Target) (index : UInt32) (derived : DerivedAddress) (utxos : List Utxo)
    (scan : SchemeScan) : Scan SchemeScan := do
  if utxos.isEmpty then return scan
  let d := t.discovery scan.schemeName index derived utxos
  let scan := scan.add d
  report t.options (scan.event .found derived.address
    (toString d.utxoCount ++ " UTXOs, " ++ toString d.balance ++ " sat"))
  return scan

/-- The outputs of one address. A lookup that fails is reported and counts as an empty address. -/
def lookupUtxos (t : Target) (address : String) (scan : SchemeScan) : Scan (List Utxo) := do
  match ← call (.listUtxos address) with
  | .ok utxos => return utxos
  | .error e =>
    report t.options (scan.event .error address ("UTXO lookup failed: " ++ e.message))
    return []

/-- Scans `left` indices from `index` on, or fewer. -/
def scanIndices (t : Target) (left index : Nat) (gap : GapLimit) (scan : SchemeScan) :
    Scan SchemeScan :=
  match left with
  | 0 => return scan
  | left + 1 =>
    if gap.reached then return scan
    else do
      if ← isCancelled then return { scan with cancelled := true }
      match ← t.derive (UInt32.ofNat index) with
      | .error e => return { scan with failure := some ⟨UInt32.ofNat index, e⟩ }
      | .ok derived =>
        let scan ← visit t derived.address scan
        let utxos ← lookupUtxos t derived.address scan
        let scan ← recordFound t (UInt32.ofNat index) derived utxos scan
        scanIndices t left (index + 1) (gap.mark !utxos.isEmpty) scan

/-- Scans a chain with one lookup per address. -/
def scanIndividually (t : Target) (gapLimit : UInt32) (scan : SchemeScan) : Scan SchemeScan :=
  scanIndices t indexSpace 0 (.new gapLimit.toNat) scan

end FundRecovery.Discovery
