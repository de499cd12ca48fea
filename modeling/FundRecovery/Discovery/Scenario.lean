import FundRecovery.Discovery.Scanner

/-!
# Recovery scenarios

* `Scanner.recoverOldWallet`: discovery again with a wider gap limit, over chosen schemes.
* `Scanner.recoverBeyondGap`: every index of a range, whatever gaps lie between.
-/

namespace FundRecovery.Discovery

/-- What to look for in an old wallet. -/
structure OldWalletRecovery where
  mode : RecoveryMode
  /-- Counts in place of the mode's limit when it is set. -/
  gapLimit : Option UInt32
  /-- Names of registry schemes; all schemes if none of them is known. -/
  schemes : List String
  deriving DecidableEq, Repr

namespace OldWalletRecovery

def effectiveGapLimit (r : OldWalletRecovery) : UInt32 := r.gapLimit.getD r.mode.gapLimit

/-- The known schemes among the requested ones, each once. -/
def knownSchemes (r : OldWalletRecovery) : List PathScheme :=
  firstOccurrences (·.name) (r.schemes.filterMap scheme?)

/-- The schemes to scan. -/
def selectedSchemes (r : OldWalletRecovery) : List PathScheme :=
  if r.knownSchemes.isEmpty then registry else r.knownSchemes

end OldWalletRecovery

/-- A range of indices to check on all chains of a registry scheme. -/
structure BeyondGapRecovery where
  scheme : String
  /-- The first index to check. -/
  start : UInt32
  /-- The first index not to check. -/
  stop : UInt32
  deriving DecidableEq, Repr

namespace BeyondGapRecovery

def indices (r : BeyondGapRecovery) : List Nat :=
  List.range' r.start.toNat (r.stop.toNat - r.start.toNat)

end BeyondGapRecovery

/-- Derives the addresses at `indices`, and the failures between them. -/
def deriveRange (t : Target) : List Nat → Scan (List Position × List DerivationFailure)
  | [] => return ([], [])
  | i :: rest => do
    match ← t.derive (UInt32.ofNat i) with
    | .error e =>
      let (positions, failures) ← deriveRange t rest
      return (positions, ⟨UInt32.ofNat i, e⟩ :: failures)
    | .ok derived =>
      let (positions, failures) ← deriveRange t rest
      return (⟨UInt32.ofNat i, derived⟩ :: positions, failures)

/-- Counts positions and records what a view holds for them. -/
def recordRange (t : Target) : List Position → BulkView → SchemeScan → Scan SchemeScan
  | [], _, scan => return scan
  | p :: rest, view, scan => do
    let scan := { scan with scanned := scan.scanned + 1 }
    let utxos := (view.find? p.derived.address).getD []
    let scan ← recordFound t p.index p.derived utxos scan
    recordRange t rest (view.erase p.derived.address) scan

namespace Scanner

/-- Checks the indices on chains in order, with one bulk query per chain. Failing derivations are
noted and skipped; a failing bulk call ends the whole. -/
def scanRange (s : Scanner) (seed : Seed) (scheme : PathScheme) (indices : List Nat) :
    List Chain → List ScanFailure → SchemeScan →
      Scan (Except ChainError (List ScanFailure × SchemeScan))
  | [], noted, scan => return .ok (noted, scan)
  | chain :: rest, noted, scan => do
    if ← isCancelled then return .ok (noted, { scan with cancelled := true })
    let t : Target := ⟨s.options, seed, scheme, chain⟩
    let (positions, failures) ← deriveRange t indices
    let noted := noted ++ failures.map fun f => ScanFailure.forScheme scheme.name f.message
    match ← bulkLookup (positions.map (·.derived.address)) with
    | .error e => return .error e
    | .ok view =>
      let scan ← recordRange t positions view scan
      s.scanRange seed scheme indices rest noted scan

/-- The result of a range scan, or the chain error that ended it. -/
def scanRangeInBulk (s : Scanner) (seed : Seed) (scheme : PathScheme) (indices : List Nat) :
    Scan (Except ChainError ScanResult) := do
  match ← s.scanRange seed scheme indices (scheme.chains s.options.scanChangeAddresses) []
      (.start scheme.name) with
  | .error e => return .error e
  | .ok (noted, scan) =>
    let a := noted.foldl Attempt.recordFailure (.start "")
    return .ok (a.absorb (scan.outcome 0)).result

/-- The settings with one gap limit for every scheme. -/
def withGapLimit (s : Scanner) (limit : UInt32) : Scanner :=
  { s with options := { s.options with gapLimit := limit, extendedGapLimit := limit } }

/-- Discovery with the gap limit of the request over the schemes it selects. -/
def recoverOldWallet (s : Scanner) (seed : Seed) (r : OldWalletRecovery) :
    Scan (Except RecoveryError ScanResult) :=
  let s := s.withGapLimit r.effectiveGapLimit
  { s with options := { s.options with pathSchemes := r.selectedSchemes } : Scanner }.scan seed

/-- Discovery one address at a time, with a gap limit that covers the indices below `stop`. -/
def scanWidened (s : Scanner) (seed : Seed) (scheme : PathScheme) (stop : UInt32) :
    Scan (Except RecoveryError ScanResult) :=
  let s := s.withGapLimit stop
  { s with
    options := { s.options with useBulkOperations := false }
    bulkAttached := false : Scanner }.scanSchemes seed [scheme]

/-- Checks every index of a range. With a bulk backend there is one query per chain; without one,
or when it fails, a scan with a gap limit as wide as the range takes its place. -/
def recoverBeyondGap (s : Scanner) (seed : Seed) (r : BeyondGapRecovery) :
    Scan (Except RecoveryError ScanResult) :=
  if r.stop ≤ r.start then return .error (.config (.emptyRange r.start r.stop))
  else
    match scheme? r.scheme with
    | none => return .error (.unknownScheme r.scheme)
    | some scheme =>
      match s.checkReady seed [scheme] with
      | .error e => return .error e
      | .ok () =>
        if s.usesBulk then do
          match ← s.scanRangeInBulk seed scheme r.indices with
          | .ok result => return .ok result
          | .error _ => s.scanWidened seed scheme r.stop
        else s.scanWidened seed scheme r.stop

end Scanner

end FundRecovery.Discovery
