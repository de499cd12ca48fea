import FundRecovery.Discovery.Bulk

/-!
# Scanning one scheme

* `Scanner`: the options of a scan and whether a bulk backend is attached.
* `Scanner.scanScheme`: the chains of a scheme, one after the other, up to the first that fails.
-/

namespace FundRecovery.Discovery

/-- What the scan of one scheme produced. -/
structure SchemeOutcome where
  schemeName : String
  /-- The position of the scheme in priority order. -/
  priorityIndex : Nat
  addresses : List DiscoveredAddress
  balance : Nat
  utxoCount : Nat
  scanned : Nat
  failure : Option DerivationFailure
  cancelled : Bool
  deriving DecidableEq, Repr

namespace SchemeScan

def outcome (scan : SchemeScan) (priorityIndex : Nat) : SchemeOutcome where
  schemeName := scan.schemeName
  priorityIndex := priorityIndex
  addresses := scan.found
  balance := scan.balance
  utxoCount := scan.utxoCount
  scanned := scan.scanned
  failure := scan.failure
  cancelled := scan.cancelled

end SchemeScan

/-- The settings of a scan. -/
structure Scanner where
  options : ScanOptions
  /-- Whether a bulk backend is attached. -/
  bulkAttached : Bool
  deriving DecidableEq, Repr

namespace Scanner

def usesBulk (s : Scanner) : Bool := s.options.useBulkOperations && s.bulkAttached

def scanChain (s : Scanner) (t : Target) (gapLimit : UInt32) (scan : SchemeScan) :
    Scan SchemeScan :=
  if s.usesBulk then scanInBatches t gapLimit scan else scanIndividually t gapLimit scan

/-- Scans chains in order until one ends the scan of the scheme. -/
def scanChains (s : Scanner) (seed : Seed) (scheme : PathScheme) (gapLimit : UInt32) :
    List Chain → SchemeScan → Scan SchemeScan
  | [], scan => return scan
  | chain :: rest, scan => do
    if ← isCancelled then return { scan with cancelled := true }
    let scan ← s.scanChain ⟨s.options, seed, scheme, chain⟩ gapLimit scan
    if scan.ended then return scan
    s.scanChains seed scheme gapLimit rest scan

/-- Scans all chains of a scheme. -/
def scanScheme (s : Scanner) (seed : Seed) (scheme : PathScheme) (gapLimit : UInt32)
    (priorityIndex : Nat) : Scan SchemeOutcome := do
  let scan ← s.scanChains seed scheme gapLimit (scheme.chains s.options.scanChangeAddresses)
    (.start scheme.name)
  return scan.outcome priorityIndex

end Scanner

end FundRecovery.Discovery
