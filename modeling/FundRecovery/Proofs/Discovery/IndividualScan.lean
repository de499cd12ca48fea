import FundRecovery.Discovery.Outcome
import FundRecovery.Proofs.Discovery.ScanInvariant

/-!
# One address of a chain, with fixed answers

With answers that depend on the calls alone, each index of a chain has one derivation and one list
of outputs, and a scan takes one step at it.

* `Target.derived`, `outputsAt`: what an index derives to, and what an address holds.
* `SchemeScan.passed`: what is gathered once an index is passed. `passage`: the calls on the way.
* `scanIndices_reached`, `scanIndices_failed`, `scanIndices_passed`: a step of `scanIndices`.
-/

namespace FundRecovery.Discovery

variable (answer : (c : Call) → c.Answer)

/-- What the derivation at position `i` gives. -/
def Target.derived (t : Target) (i : Nat) : Except DerivationError DerivedAddress :=
  (t.derive (UInt32.ofNat i)).value answer

/-- The outputs of an address; a failed lookup counts as none. -/
def outputsAt (address : String) : List Utxo :=
  match answer (.listUtxos address) with
  | .ok utxos => utxos
  | .error _ => []

namespace SchemeScan

/-- With the outputs found at an index, if there are any. -/
def recorded (scan : SchemeScan) (t : Target) (index : UInt32) (derived : DerivedAddress)
    (utxos : List Utxo) : SchemeScan :=
  if utxos.isEmpty then scan else scan.add (t.discovery scan.schemeName index derived utxos)

/-- Once an index with these outputs is passed. -/
def passed (scan : SchemeScan) (t : Target) (index : UInt32) (derived : DerivedAddress)
    (utxos : List Utxo) : SchemeScan :=
  scan.counted.recorded t index derived utxos

variable {scan : SchemeScan} {t : Target} {index : UInt32} {derived : DerivedAddress}
  {utxos : List Utxo}

@[simp] theorem schemeName_recorded :
    (scan.recorded t index derived utxos).schemeName = scan.schemeName := by
  unfold recorded
  split <;> rfl

@[simp] theorem failure_recorded :
    (scan.recorded t index derived utxos).failure = scan.failure := by
  unfold recorded
  split <;> rfl

@[simp] theorem cancelled_recorded :
    (scan.recorded t index derived utxos).cancelled = scan.cancelled := by
  unfold recorded
  split <;> rfl

theorem scanned_passed : (scan.passed t index derived utxos).scanned = scan.scanned + 1 := by
  unfold passed recorded
  split <;> rfl

@[simp] theorem schemeName_passed :
    (scan.passed t index derived utxos).schemeName = scan.schemeName := schemeName_recorded

@[simp] theorem failure_passed : (scan.passed t index derived utxos).failure = scan.failure :=
  failure_recorded

@[simp] theorem cancelled_passed :
    (scan.passed t index derived utxos).cancelled = scan.cancelled := cancelled_recorded

end SchemeScan

/-- The report of a visit. -/
def visitReports (t : Target) (address : String) (scan : SchemeScan) : List Call :=
  reports t.options (scan.counted.event .scanning address "")

/-- The report of a failed lookup. -/
def missReports (t : Target) (address : String) (scan : SchemeScan) : List Call :=
  match answer (.listUtxos address) with
  | .ok _ => []
  | .error e =>
    reports t.options (scan.event .error address ("UTXO lookup failed: " ++ e.message))

/-- The report of a discovery. -/
def foundReports (t : Target) (index : UInt32) (derived : DerivedAddress) (utxos : List Utxo)
    (scan : SchemeScan) : List Call :=
  if utxos.isEmpty then []
  else reports t.options (scan.foundEvent (t.discovery scan.schemeName index derived utxos))

/-- The calls on the way past an index, once its address is derived. -/
def passage (t : Target) (index : UInt32) (derived : DerivedAddress) (scan : SchemeScan) :
    List Call :=
  visitReports t derived.address scan ++
    .listUtxos derived.address :: missReports answer t derived.address scan.counted ++
    foundReports t index derived (outputsAt answer derived.address) scan.counted

@[simp] theorem queries_reports (options : ScanOptions) (event : ScanProgress) :
    queries (reports options event) = [] := by
  unfold reports
  split <;> rfl

/-- Past an index there is one lookup. -/
theorem queries_passage (t : Target) (index : UInt32) (derived : DerivedAddress)
    (scan : SchemeScan) :
    queries (passage answer t index derived scan) = [.listUtxos derived.address] := by
  have hmiss : queries (missReports answer t derived.address scan.counted) = [] := by
    unfold missReports
    split <;> simp
  have hfound (utxos : List Utxo) :
      queries (foundReports t index derived utxos scan.counted) = [] := by
    unfold foundReports
    split <;> simp
  rw [passage, ← List.singleton_append, queries_append, queries_append, queries_append, hmiss,
    hfound, visitReports, queries_reports]
  rfl

section Values

variable {answer} {t : Target} {index : UInt32} {derived : DerivedAddress} {utxos : List Utxo}
  {address : String} {scan : SchemeScan}

@[simp] theorem issued_derive :
    (t.derive index).issued answer = [t.derivation index] := by
  unfold Target.derive Target.derivation
  split <;> rfl

@[simp] theorem value_visit : (visit t address scan).value answer = scan.counted := by
  simp [visit, SchemeScan.counted]

@[simp] theorem issued_visit :
    (visit t address scan).issued answer = visitReports t address scan := by
  simp [visit, visitReports, SchemeScan.counted]

@[simp] theorem value_lookupUtxos :
    (lookupUtxos t address scan).value answer = outputsAt answer address := by
  rw [lookupUtxos, Scan.value_bind, Scan.value_call, outputsAt]
  cases answer (.listUtxos address) <;> simp

@[simp] theorem issued_lookupUtxos :
    (lookupUtxos t address scan).issued answer =
      .listUtxos address :: missReports answer t address scan := by
  rw [lookupUtxos, Scan.issued_bind, Scan.issued_call, Scan.value_call, missReports]
  cases answer (.listUtxos address) <;> simp

@[simp] theorem value_recordFound :
    (recordFound t index derived utxos scan).value answer =
      scan.recorded t index derived utxos := by
  unfold recordFound SchemeScan.recorded
  split <;> simp

@[simp] theorem issued_recordFound :
    (recordFound t index derived utxos scan).issued answer =
      foundReports t index derived utxos scan := by
  unfold recordFound foundReports SchemeScan.foundEvent
  split
  · simp
  · simp
    rfl

end Values

/-! ## Steps of a scan -/

section Steps

variable {answer} {t : Target} {i : Nat} {gap : GapLimit}

theorem scanIndices_reached {left : Nat} {scan : SchemeScan} (h : gap.reached = true) :
    scanIndices t left i gap scan = .done scan := by
  cases left with
  | zero => rfl
  | succ left => rw [scanIndices, if_pos h]; rfl

theorem scanIndices_failed (left : Nat) (scan : SchemeScan) (h : gap.reached = false)
    {e : DerivationError} (hd : t.derived answer i = .error e) :
    (scanIndices t (left + 1) i gap scan).value answer =
        { scan with failure := some ⟨UInt32.ofNat i, e⟩ } ∧
      (scanIndices t (left + 1) i gap scan).issued answer = [t.derivation (UInt32.ofNat i)] := by
  rw [Target.derived] at hd
  simp [scanIndices, h, hd]

theorem scanIndices_passed (left : Nat) (scan : SchemeScan) (h : gap.reached = false)
    {d : DerivedAddress} (hd : t.derived answer i = .ok d) :
    (scanIndices t (left + 1) i gap scan).value answer =
        (scanIndices t left (i + 1) (gap.mark !(outputsAt answer d.address).isEmpty)
          (scan.passed t (UInt32.ofNat i) d (outputsAt answer d.address))).value answer ∧
      (scanIndices t (left + 1) i gap scan).issued answer =
        t.derivation (UInt32.ofNat i) :: passage answer t (UInt32.ofNat i) d scan ++
          (scanIndices t left (i + 1) (gap.mark !(outputsAt answer d.address).isEmpty)
            (scan.passed t (UInt32.ofNat i) d (outputsAt answer d.address))).issued answer := by
  rw [Target.derived] at hd
  simp [scanIndices, h, hd, SchemeScan.passed, passage]

end Steps

end FundRecovery.Discovery
