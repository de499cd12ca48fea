import FundRecovery.Discovery.Outcome

/-!
# The options of a chain

Of its options, the scan of a chain reads whether there is an observer. Limits, schemes and
passphrases are read by those who start it.

* `Target.under`: a chain to scan, with other options.
* `Scanner.scanChain_under`: with the same strategy and the same observer, its scan is the same.
-/

namespace FundRecovery.Discovery

/-- The chain with other options. -/
def Target.under (t : Target) (options : ScanOptions) : Target := { t with options }

section Chain

variable {t : Target} {options : ScanOptions} (h : options.observed = t.options.observed)

include h

theorem visit_under (address : String) (scan : SchemeScan) :
    visit (t.under options) address scan = visit t address scan := by
  simp only [visit, report, Target.under, h]

theorem lookupUtxos_under (address : String) (scan : SchemeScan) :
    lookupUtxos (t.under options) address scan = lookupUtxos t address scan := by
  simp only [lookupUtxos, report, Target.under, h]

theorem recordFound_under (index : UInt32) (derived : DerivedAddress) (utxos : List Utxo)
    (scan : SchemeScan) :
    recordFound (t.under options) index derived utxos scan =
      recordFound t index derived utxos scan := by
  simp only [recordFound, report, Target.discovery, Target.under, h]

theorem takeOrLookup_under (view : Option BulkView) (address : String) (scan : SchemeScan) :
    takeOrLookup (t.under options) view address scan = takeOrLookup t view address scan := by
  cases view with
  | some view => rfl
  | none => simp only [takeOrLookup, lookupUtxos_under h]

theorem scanIndices_under (left index : Nat) (gap : GapLimit) (scan : SchemeScan) :
    scanIndices (t.under options) left index gap scan = scanIndices t left index gap scan := by
  have hderive : (t.under options).derive = t.derive := rfl
  induction left generalizing index gap scan with
  | zero => rfl
  | succ left ih =>
    simp only [scanIndices, hderive, visit_under h, lookupUtxos_under h, recordFound_under h, ih]

omit h in
theorem deriveBatch_under (indices : List Nat) :
    deriveBatch (t.under options) indices = deriveBatch t indices := by
  have hderive : (t.under options).derive = t.derive := rfl
  induction indices with
  | nil => rfl
  | cons i rest ih => simp only [deriveBatch, hderive, ih]

theorem scanBatch_under (batch : List Position) (view : Option BulkView) (gap : GapLimit)
    (scan : SchemeScan) :
    scanBatch (t.under options) batch view gap scan = scanBatch t batch view gap scan := by
  induction batch generalizing view gap scan with
  | nil => rfl
  | cons p rest ih =>
    simp only [scanBatch, visit_under h, takeOrLookup_under h, recordFound_under h, ih]

theorem scanBatches_under (left start : Nat) (gap : GapLimit) (scan : SchemeScan) :
    scanBatches (t.under options) left start gap scan = scanBatches t left start gap scan := by
  induction left generalizing start gap scan with
  | zero => rfl
  | succ left ih => simp only [scanBatches, deriveBatch_under, scanBatch_under h, ih]

/-- With the same strategy and the same observer, the scan of a chain is the same. -/
theorem Scanner.scanChain_under {s s' : Scanner} (hbulk : s'.usesBulk = s.usesBulk)
    (gapLimit : UInt32) (scan : SchemeScan) :
    s'.scanChain (t.under options) gapLimit scan = s.scanChain t gapLimit scan := by
  simp only [scanChain, hbulk, scanInBatches, scanIndividually, scanBatches_under h,
    scanIndices_under h]

end Chain

end FundRecovery.Discovery
