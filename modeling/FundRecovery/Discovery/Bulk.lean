import FundRecovery.Discovery.Chain

/-!
# Scanning one chain in batches

A bulk backend is asked which addresses of a batch have any history, and for the outputs of those
alone. Its answers are matched by address. Where it fails, the addresses of the batch are looked up
one by one.

* `BulkView`: the answers of a bulk backend by address.
* `bulkLookup`: an activity check, then a fetch of the active addresses.
* `scanInBatches`: the scan of one chain that asks for a batch at a time.
-/

namespace FundRecovery.Discovery

/-- The outputs of the active addresses. -/
structure BulkView where
  entries : List (String × List Utxo)
  deriving DecidableEq, Repr

namespace BulkView

def empty : BulkView := ⟨[]⟩

/-- Each active address, holding nothing yet. -/
def ofActive (active : List String) : BulkView :=
  ⟨(firstOccurrences id active).map fun address => (address, [])⟩

/-- What was fetched for an address replaces what the view has for it; other addresses are left
out. -/
def update (view : BulkView) (fetched : AddressUtxos) : BulkView :=
  ⟨view.entries.map fun entry =>
    if entry.1 = fetched.address then (entry.1, fetched.utxos) else entry⟩

/-- The outputs of an active address. -/
def find? (view : BulkView) (address : String) : Option (List Utxo) :=
  (view.entries.find? (·.1 = address)).map (·.2)

/-- The view without an address. -/
def erase (view : BulkView) (address : String) : BulkView :=
  ⟨view.entries.filter (·.1 ≠ address)⟩

end BulkView

/-- The addresses that were asked for and are reported active, in the order of the report. -/
def activeAddresses (addresses : List String) (activity : List AddressActivity) : List String :=
  (activity.filter fun a => a.hasActivity && a.address ∈ addresses).map (·.address)

/-- An activity check of `addresses`, then a fetch of the active ones if there are any. -/
def bulkLookup (addresses : List String) : Scan (Except ChainError BulkView) := do
  match ← call (.checkActivity addresses) with
  | .error e => return .error e
  | .ok activity =>
    let active := activeAddresses addresses activity
    if active.isEmpty then return .ok .empty
    match ← call (.fetchUtxos active) with
    | .error e => return .error e
    | .ok fetched => return .ok (fetched.foldl BulkView.update (.ofActive active))

/-- An index of a chain with the address derived at it. -/
structure Position where
  index : UInt32
  derived : DerivedAddress
  deriving DecidableEq, Repr

/-- Derives the addresses at `indices` up to the first failure. -/
def deriveBatch (t : Target) : List Nat → Scan (List Position × Option DerivationFailure)
  | [] => return ([], none)
  | i :: rest => do
    match ← t.derive (UInt32.ofNat i) with
    | .error e => return ([], some ⟨UInt32.ofNat i, e⟩)
    | .ok derived =>
      let (batch, failure) ← deriveBatch t rest
      return (⟨UInt32.ofNat i, derived⟩ :: batch, failure)

/-- Whether an address has history, its outputs, and the view that is left: taken out of `view`, or
looked up where there is none. -/
def takeOrLookup (t : Target) (view : Option BulkView) (address : String) (scan : SchemeScan) :
    Scan (Bool × List Utxo × Option BulkView) :=
  match view with
  | some view =>
    let utxos := view.find? address
    return (utxos.isSome, utxos.getD [], some (view.erase address))
  | none => do
    let utxos ← lookupUtxos t address scan
    return (!utxos.isEmpty, utxos, none)

/-- Goes through a batch until the gap limit is reached or the token is cancelled. -/
def scanBatch (t : Target) : List Position → Option BulkView → GapLimit → SchemeScan →
    Scan (GapLimit × SchemeScan)
  | [], _, gap, scan => return (gap, scan)
  | p :: rest, view, gap, scan =>
    if gap.reached then return (gap, scan)
    else do
      if ← isCancelled then return (gap, { scan with cancelled := true })
      let scan ← visit t p.derived.address scan
      let (active, utxos, view) ← takeOrLookup t view p.derived.address scan
      let scan ← recordFound t p.index p.derived utxos scan
      scanBatch t rest view (gap.mark active) scan

/-- The number of addresses in a bulk query. -/
def batchSize : Nat := 20

/-- The number of batches in the index space; the last one is short. -/
def batchCount : Nat := (indexSpace + batchSize - 1) / batchSize

/-- Scans `left` batches from index `start` on, or fewer. A short batch, cut off by a failing
derivation or by the end of the index space, is the last. The failure counts only if the gap limit
is not reached before it. -/
def scanBatches (t : Target) (left start : Nat) (gap : GapLimit) (scan : SchemeScan) :
    Scan SchemeScan :=
  match left with
  | 0 => return scan
  | left + 1 =>
    if gap.reached then return scan
    else do
      if ← isCancelled then return { scan with cancelled := true }
      let (batch, failure) ←
        deriveBatch t (List.range' start (min batchSize (indexSpace - start)))
      if batch.isEmpty then return { scan with failure := failure }
      let view ← bulkLookup (batch.map (·.derived.address))
      let (gap, scan) ← scanBatch t batch view.toOption gap scan
      if scan.cancelled then return scan
      if batch.length < batchSize then
        return if gap.reached then scan else { scan with failure := failure }
      scanBatches t left (start + batchSize) gap scan

/-- Scans a chain with one bulk query per batch. -/
def scanInBatches (t : Target) (gapLimit : UInt32) (scan : SchemeScan) : Scan SchemeScan :=
  scanBatches t batchCount 0 (.new gapLimit.toNat) scan

end FundRecovery.Discovery
