import FundRecovery.Proofs.Discovery.CutScans

/-!
# Chains with wider gaps

Two scans of a chain are compared that differ in their gap limits. With answers that depend on the
calls alone they go the same way until the narrower one ends; the wider one may go on, so what it
finds starts with what the other found. What was gathered on chains before makes no difference.

* `GapLimit.Within`: two gaps that differ in their limits. `scanChain_wider`: with the wider one, a
  chain is scanned no less far, whichever strategy is used.
* `SchemeScan.atop`: what is gathered, on top of what was gathered before. `scanChain_atop`: the
  scan of a chain depends on the latter in no other way.
-/

namespace FundRecovery

/-! ## Gaps -/

/-- Both gaps have counted the same run, and the limit of `wide` is no lower. -/
structure GapLimit.Within (narrow wide : GapLimit) : Prop where
  limit : narrow.limit ≤ wide.limit
  unused : narrow.unused = wide.unused

namespace GapLimit.Within

variable {narrow wide : GapLimit}

theorem new {n m : Nat} (h : n ≤ m) : (GapLimit.new n).Within (.new m) := ⟨h, rfl⟩

theorem mark (h : narrow.Within wide) (used : Bool) :
    (narrow.mark used).Within (wide.mark used) :=
  ⟨h.limit, by rw [GapLimit.mark, GapLimit.mark, h.unused]⟩

theorem going (h : narrow.Within wide) (hr : narrow.reached = false) : wide.reached = false := by
  have hlimit := h.limit
  have hunused := h.unused
  simp only [reached, decide_eq_false_iff_not] at hr ⊢
  omega

end GapLimit.Within

namespace Discovery

variable {answer : (c : Call) → c.Answer}

/-! ## The scan of a chain with a wider gap -/

section Wider

variable {t : Target} {gap narrow wide : GapLimit} {scan : SchemeScan}

theorem scanIndices_wider (h : narrow.Within wide) (left i : Nat) (scan : SchemeScan) :
    ((scanIndices t left i narrow scan).value answer).Grown
      ((scanIndices t left i wide scan).value answer) := by
  induction left generalizing i narrow wide scan with
  | zero => exact .refl scan
  | succ left ih =>
    cases hr : narrow.reached with
    | true =>
      rw [scanIndices_reached hr]
      exact grown_scanIndices (left + 1) i
    | false =>
      have hw := h.going hr
      cases hd : t.derived answer i with
      | error e =>
        rw [(scanIndices_failed left scan hr hd).1, (scanIndices_failed left scan hw hd).1]
        exact .refl _
      | ok d =>
        rw [(scanIndices_passed left scan hr hd).1, (scanIndices_passed left scan hw hd).1]
        exact ih (h.mark _) (i + 1) _

/-! ### In batches -/

/-- What a scan of a batch learns of an address, and the view that is left. -/
def takenFrom (answer : (c : Call) → c.Answer) (view : Option BulkView) (address : String) :
    Bool × List Utxo × Option BulkView :=
  match view with
  | some view =>
    ((view.find? address).isSome, (view.find? address).getD [], some (view.erase address))
  | none => (!(outputsAt answer address).isEmpty, outputsAt answer address, none)

theorem value_takeOrLookup (view : Option BulkView) (address : String) :
    (takeOrLookup t view address scan).value answer = takenFrom answer view address := by
  cases view with
  | some view => rfl
  | none => simp [takeOrLookup, takenFrom]

theorem scanBatch_reached {batch : List Position} {view : Option BulkView}
    (h : gap.reached = true) : scanBatch t batch view gap scan = .done (gap, scan) := by
  cases batch with
  | nil => rfl
  | cons p rest => rw [scanBatch, if_pos h]; rfl

theorem scanBatch_passed (p : Position) (rest : List Position) (view : Option BulkView)
    (h : gap.reached = false) :
    (scanBatch t (p :: rest) view gap scan).value answer =
      (scanBatch t rest (takenFrom answer view p.derived.address).2.2
        (gap.mark (takenFrom answer view p.derived.address).1)
        (scan.passed t p.index p.derived (takenFrom answer view p.derived.address).2.1)).value
          answer := by
  simp [scanBatch, h, value_takeOrLookup, SchemeScan.passed]

/-- Through a batch the scans go together, unless the narrower gap is closed in it. -/
theorem scanBatch_wider (h : narrow.Within wide) (batch : List Position) (view : Option BulkView)
    (scan : SchemeScan) :
    (((scanBatch t batch view narrow scan).value answer).1.reached = true ∧
        ((scanBatch t batch view narrow scan).value answer).2.Grown
          ((scanBatch t batch view wide scan).value answer).2) ∨
      ((scanBatch t batch view narrow scan).value answer).1.Within
          ((scanBatch t batch view wide scan).value answer).1 ∧
        ((scanBatch t batch view narrow scan).value answer).2 =
          ((scanBatch t batch view wide scan).value answer).2 := by
  induction batch generalizing view narrow wide scan with
  | nil => exact .inr ⟨h, rfl⟩
  | cons p rest ih =>
    cases hr : narrow.reached with
    | true =>
      rw [scanBatch_reached hr]
      exact .inl ⟨hr, grown_scanBatch (p :: rest) view⟩
    | false =>
      rw [scanBatch_passed p rest view hr, scanBatch_passed p rest view (h.going hr)]
      exact ih (h.mark _) _ _

theorem scanBatches_reached {left start : Nat} (h : gap.reached = true) :
    scanBatches t left start gap scan = .done scan := by
  cases left with
  | zero => rfl
  | succ left => rw [scanBatches, if_pos h]; rfl

/-- Once the gap is closed, no batch follows. -/
theorem value_afterBatch_reached {left start : Nat} {batch : List Position}
    {failure : Option DerivationFailure} {r : GapLimit × SchemeScan} (h : r.1.reached = true) :
    (afterBatch t left start batch failure r).value answer = r.2 := by
  unfold afterBatch
  split
  · rfl
  split
  · rfl
  · rw [scanBatches_reached h]
    rfl

/-- After a batch, the narrower scan ends or they go on together. -/
theorem afterBatch_wider {left start : Nat}
    (hnext : ∀ {narrow wide : GapLimit}, narrow.Within wide → ∀ start (scan : SchemeScan),
      ((scanBatches t left start narrow scan).value answer).Grown
        ((scanBatches t left start wide scan).value answer))
    (batch : List Position) (failure : Option DerivationFailure) {r r' : GapLimit × SchemeScan}
    (h : (r.1.reached = true ∧ r.2.Grown r'.2) ∨ r.1.Within r'.1 ∧ r.2 = r'.2) :
    ((afterBatch t left start batch failure r).value answer).Grown
      ((afterBatch t left start batch failure r').value answer) := by
  rcases h with ⟨hclosed, hgrown⟩ | ⟨hwithin, hsame⟩
  · rw [value_afterBatch_reached hclosed]
    exact hgrown.trans (grown_afterBatch (grown_scanBatches left (start + batchSize)) _ _ _)
  · unfold afterBatch
    rw [← hsame]
    split
    · exact .refl _
    split
    · split <;> split <;> exact ⟨rfl, List.prefix_rfl, Nat.le_refl _⟩
    · exact hnext hwithin _ _

theorem scanBatches_wider (h : narrow.Within wide) (left start : Nat) (scan : SchemeScan) :
    ((scanBatches t left start narrow scan).value answer).Grown
      ((scanBatches t left start wide scan).value answer) := by
  induction left generalizing start narrow wide scan with
  | zero => exact .refl scan
  | succ left ih =>
    cases hr : narrow.reached with
    | true =>
      rw [scanBatches_reached hr]
      exact grown_scanBatches (left + 1) start wide scan
    | false =>
      -- The batch and what is asked about it do not depend on the gap.
      rw [scanBatches_succ left start hr, scanBatches_succ left start (h.going hr)]
      simp only [Scan.value_bind, Scan.value_isCancelled, Bool.false_eq_true, ↓reduceIte]
      split
      · exact .refl _
      simp only [Scan.value_bind]
      exact afterBatch_wider ih _ _ (scanBatch_wider h _ _ scan)

/-- **With a wider gap, a chain is scanned no less far.** -/
theorem scanChain_wider (s : Scanner) (t : Target) {gapLimit gapLimit' : UInt32}
    (h : gapLimit ≤ gapLimit') (scan : SchemeScan) :
    ((s.scanChain t gapLimit scan).value answer).Grown
      ((s.scanChain t gapLimit' scan).value answer) := by
  have hwithin : (GapLimit.new gapLimit.toNat).Within (.new gapLimit'.toNat) :=
    .new (UInt32.le_iff_toNat_le.mp h)
  unfold Scanner.scanChain
  split
  · exact scanBatches_wider hwithin batchCount 0 scan
  · exact scanIndices_wider hwithin indexSpace 0 scan

end Wider

/-! ## On top of what was gathered before -/

/-- What is gathered, on top of what was gathered `before`. -/
def SchemeScan.atop (scan before : SchemeScan) : SchemeScan :=
  { scan with
    found := before.found ++ scan.found
    scanned := before.scanned + scan.scanned
    utxoCount := inWord (before.utxoCount + scan.utxoCount)
    balance := inWord (before.balance + scan.balance) }

/-- The counters are words. -/
structure SchemeScan.InWords (scan : SchemeScan) : Prop where
  utxoCount : inWord scan.utxoCount = scan.utxoCount
  balance : inWord scan.balance = scan.balance

theorem SchemeScan.inWords_start (schemeName : String) : (start schemeName).InWords := ⟨rfl, rfl⟩

theorem SchemeScan.inWords_atop (scan before : SchemeScan) : (scan.atop before).InWords :=
  ⟨inWord_inWord _, inWord_inWord _⟩

section Atop

variable {t : Target} {gap : GapLimit} {scan before : SchemeScan}

theorem SchemeScan.passed_atop (index : UInt32) (derived : DerivedAddress) (utxos : List Utxo) :
    (scan.atop before).passed t index derived utxos =
      (scan.passed t index derived utxos).atop before := by
  unfold passed recorded
  split <;> simp [atop, counted, add, Nat.add_assoc]

theorem SchemeScan.start_atop (hended : before.ended = false) (hwords : before.InWords) :
    (start before.schemeName).atop before = before := by
  obtain ⟨hfailure, hcancelled⟩ := Bool.or_eq_false_iff.mp hended
  rw [Option.isSome_eq_false_iff, Option.isNone_iff_eq_none] at hfailure
  simp [atop, start, ← hfailure, ← hcancelled, hwords.utxoCount, hwords.balance]

theorem scanIndices_atop (left i : Nat) :
    (scanIndices t left i gap (scan.atop before)).value answer =
      ((scanIndices t left i gap scan).value answer).atop before := by
  induction left generalizing i gap scan with
  | zero => rfl
  | succ left ih =>
    cases hr : gap.reached with
    | true => rw [scanIndices_reached hr, scanIndices_reached hr]; rfl
    | false =>
      cases hd : t.derived answer i with
      | error e =>
        rw [(scanIndices_failed left _ hr hd).1, (scanIndices_failed left _ hr hd).1]
        rfl
      | ok d =>
        rw [(scanIndices_passed left _ hr hd).1, (scanIndices_passed left _ hr hd).1,
          SchemeScan.passed_atop, ih]

theorem scanBatch_atop (batch : List Position) (view : Option BulkView) :
    (scanBatch t batch view gap (scan.atop before)).value answer =
      (((scanBatch t batch view gap scan).value answer).1,
        ((scanBatch t batch view gap scan).value answer).2.atop before) := by
  induction batch generalizing view gap scan with
  | nil => rfl
  | cons p rest ih =>
    cases hr : gap.reached with
    | true => rw [scanBatch_reached hr, scanBatch_reached hr]; rfl
    | false =>
      rw [scanBatch_passed p rest view hr, scanBatch_passed p rest view hr, SchemeScan.passed_atop,
        ih]

theorem afterBatch_atop {left start : Nat}
    (hnext : ∀ gap scan, (scanBatches t left (start + batchSize) gap (scan.atop before)).value
      answer = ((scanBatches t left (start + batchSize) gap scan).value answer).atop before)
    (batch : List Position) (failure : Option DerivationFailure) :
    (afterBatch t left start batch failure (gap, scan.atop before)).value answer =
      ((afterBatch t left start batch failure (gap, scan)).value answer).atop before := by
  have hcancelled : (scan.atop before).cancelled = scan.cancelled := rfl
  simp only [afterBatch, hcancelled]
  split
  · rfl
  split
  · split <;> rfl
  · exact hnext gap scan

theorem scanBatches_atop (left start : Nat) (gap : GapLimit) (scan : SchemeScan) :
    (scanBatches t left start gap (scan.atop before)).value answer =
      ((scanBatches t left start gap scan).value answer).atop before := by
  induction left generalizing start gap scan with
  | zero => rfl
  | succ left ih =>
    cases hr : gap.reached with
    | true => rw [scanBatches_reached hr, scanBatches_reached hr]; rfl
    | false =>
      rw [scanBatches_succ left start hr, scanBatches_succ left start hr]
      simp only [Scan.value_bind, Scan.value_isCancelled, Bool.false_eq_true, ↓reduceIte]
      split
      · rfl
      simp only [Scan.value_bind, scanBatch_atop]
      exact afterBatch_atop (ih (start + batchSize)) _ _

/-- The scan of a chain adds to what was gathered before. -/
theorem scanChain_atop (s : Scanner) (t : Target) (gapLimit : UInt32) :
    (s.scanChain t gapLimit (scan.atop before)).value answer =
      ((s.scanChain t gapLimit scan).value answer).atop before := by
  unfold Scanner.scanChain
  split
  · exact scanBatches_atop batchCount 0 _ scan
  · exact scanIndices_atop indexSpace 0

end Atop

end Discovery

end FundRecovery
