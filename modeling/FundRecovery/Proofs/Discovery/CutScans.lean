import FundRecovery.Proofs.Discovery.Conduct
import FundRecovery.Proofs.Discovery.IndividualScan

/-!
# Scans that are cut short

A scan looks at its token between two steps and ends where it finds it cancelled. With answers that
depend on the calls alone, it has made the first of its calls by then, and what it has gathered is
what the whole scan gathers first.

* `CutsShort answer Cut log p`: the program comes to its value, or to something that `Cut` allows in
  place of it. The rules follow the syntax of programs (`CutsShort.bind`, `CutsShort.look`).
* `SchemeScan.Grown`: what is gathered when a scan has gone on. `SchemeScan.Stopped`: what is
  gathered when it was cut short.
* `scanIndices_cutsShort`, `scanBatches_cutsShort`: so do the scans of a chain.
* `SchemeOutcome.Truncates full o`: the outcome of a whole scan of a scheme, or of one that was cut
  short. `scanScheme_truncates`: where no derivation fails, scans of a scheme give such outcomes.
-/

namespace FundRecovery.Discovery

variable {α β : Type} {answer : (c : Call) → c.Answer} {log : List Call}

/-! ## Programs -/

/-- With fixed answers the program comes to its value and makes all its calls, or it finds the token
cancelled and comes to what `Cut` allows in place of its value, after the first of its calls. -/
def CutsShort (answer : (c : Call) → c.Answer) (Cut : α → α → Prop) (log : List Call)
    (p : Scan α) : Prop :=
  Records (fun c a => a = answer c) (fun _ => True) log p fun a log' =>
    (a = p.value answer ∧ log' = log ++ p.issued answer) ∨
      (Cut (p.value answer) a ∧ log' <+: log ++ p.issued answer)

/-- The program is never cut short. -/
abbrev Uncut (answer : (c : Call) → c.Answer) (log : List Call) (p : Scan α) : Prop :=
  CutsShort answer (fun _ _ => False) log p

namespace CutsShort

variable {Cut : α → α → Prop} {Cut' : β → β → Prop} {p : Scan α} {f : α → Scan β}

theorem done (a : α) : CutsShort answer Cut log (.done a) :=
  Records.done (.inl ⟨rfl, by simp⟩)

/-- A program that ends at once where the one before it was cut short. -/
theorem bind (hp : CutsShort answer Cut log p)
    (hf : CutsShort answer Cut' (log ++ p.issued answer) (f (p.value answer)))
    (hcut : ∀ a, Cut (p.value answer) a →
      ∃ b, f a = .done b ∧ Cut' ((f (p.value answer)).value answer) b) :
    CutsShort answer Cut' log (p >>= f) := by
  refine Records.bind hp fun a log' ha => ?_
  rw [Scan.value_bind, Scan.issued_bind, ← List.append_assoc]
  rcases ha with ⟨rfl, rfl⟩ | ⟨ha, hlog⟩
  · exact hf
  · obtain ⟨b, hb, hcut⟩ := hcut a ha
    rw [hb]
    exact .done (.inr ⟨hcut, hlog.trans (List.prefix_append _ _)⟩)

/-- After a program that is never cut short. -/
theorem after (hp : Uncut answer log p)
    (hf : CutsShort answer Cut' (log ++ p.issued answer) (f (p.value answer))) :
    CutsShort answer Cut' log (p >>= f) := bind hp hf fun _ ha => ha.elim

/-- A program that ends where it finds the token cancelled. -/
theorem look {f : Bool → Scan β} {b : β} (hstop : f true = .done b)
    (hcut : Cut' ((f false).value answer) b) (hf : CutsShort answer Cut' log (f false)) :
    CutsShort answer Cut' log (isCancelled >>= f) := by
  refine Records.bind (.isCancelled (Q := fun _ log' => log' = log) fun _ _ => rfl) ?_
  rintro c _ rfl
  cases c with
  | true =>
    rw [hstop]
    exact .done (.inr ⟨hcut, List.prefix_append _ _⟩)
  | false => exact hf

theorem call (c : Call) {Cut : c.Answer → c.Answer → Prop} :
    CutsShort answer Cut log (Discovery.call c) :=
  Records.call (by rintro _ rfl; exact .inl ⟨rfl, rfl⟩)

theorem report (options : ScanOptions) (event : ScanProgress) {Cut : Unit → Unit → Prop} :
    CutsShort answer Cut log (Discovery.report options event) := by
  unfold Discovery.report
  split
  · exact call _
  · exact done _

/-- What a program gives in place of its value is one of its outcomes. -/
theorem gives (h : CutsShort answer Cut log p) : Gives (fun c a => a = answer c) p fun a =>
    a = p.value answer ∨ Cut (p.value answer) a :=
  Program.Ensures.mono h fun _ _ ha => ha.imp And.left And.left

end CutsShort

/-- Never cut short, a program comes to its value with its calls. -/
theorem Uncut.records {p : Scan α} (h : Uncut answer log p) :
    Records (fun c a => a = answer c) (fun _ => True) log p fun a log' =>
      a = p.value answer ∧ log' = log ++ p.issued answer :=
  h.mono fun _ _ ha => ha.resolve_right fun hcut => hcut.1

/-! ## The parts of a scan that never look at the token -/

section Parts

variable {t : Target} {scan : SchemeScan} {index : UInt32} {address : String}
  {derived : DerivedAddress} {utxos : List Utxo}

theorem derive_uncut : Uncut answer log (t.derive index) := by
  unfold Target.derive
  split
  · exact .call (.deriveLegacyAddress t.seed index)
  · exact .call (.deriveAddress t.seed t.scheme.coinType t.chain.account t.chain.level index)

theorem visit_uncut : Uncut answer log (visit t address scan) := .after (.report _ _) (.done _)

theorem lookupUtxos_uncut : Uncut answer log (lookupUtxos t address scan) := by
  refine .after (.call _) ?_
  rw [Scan.value_call]
  cases answer (.listUtxos address) with
  | ok utxos => exact .done _
  | error e => exact .after (.report _ _) (.done _)

theorem recordFound_uncut : Uncut answer log (recordFound t index derived utxos scan) := by
  unfold recordFound
  split
  · exact .done _
  · exact .after (.report _ _) (.done _)

theorem deriveBatch_uncut (indices : List Nat) : Uncut answer log (deriveBatch t indices) := by
  induction indices generalizing log with
  | nil => exact .done _
  | cons i rest ih =>
    refine .after derive_uncut ?_
    cases (t.derive (UInt32.ofNat i)).value answer with
    | error e => exact .done _
    | ok derived => exact .after ih (.done _)

theorem bulkLookup_uncut (addresses : List String) :
    Uncut answer log (bulkLookup addresses) := by
  refine .after (.call _) ?_
  rw [Scan.value_call]
  cases answer (.checkActivity addresses) with
  | error e => exact .done _
  | ok activity =>
    dsimp only
    split
    · exact .done _
    · refine .after (.call _) ?_
      rw [Scan.value_call]
      cases answer (.fetchUtxos (activeAddresses addresses activity)) with
      | error e => exact .done _
      | ok fetched => exact .done _

theorem takeOrLookup_uncut (view : Option BulkView) :
    Uncut answer log (takeOrLookup t view address scan) := by
  cases view with
  | some view => exact .done _
  | none => exact .after lookupUtxos_uncut (.done _)

end Parts

/-! ## What is gathered -/

namespace SchemeScan

/-- What is gathered once a scan has gone on from `before`. -/
structure Grown (before after : SchemeScan) : Prop where
  schemeName : after.schemeName = before.schemeName
  found : before.found <+: after.found
  scanned : before.scanned ≤ after.scanned

/-- What is gathered where a scan was cut short, instead of `full`. -/
structure Stopped (full scan : SchemeScan) : Prop where
  cancelled : scan.cancelled = true
  grown : scan.Grown full

namespace Grown

variable {before scan after : SchemeScan}

theorem refl (scan : SchemeScan) : scan.Grown scan := ⟨rfl, List.prefix_rfl, Nat.le_refl _⟩

theorem trans (h : before.Grown scan) (h' : scan.Grown after) : before.Grown after :=
  ⟨h'.schemeName.trans h.schemeName, h.found.trans h'.found, Nat.le_trans h.scanned h'.scanned⟩

theorem passed (scan : SchemeScan) (t : Target) (index : UInt32) (derived : DerivedAddress)
    (utxos : List Utxo) : scan.Grown (scan.passed t index derived utxos) := by
  unfold SchemeScan.passed recorded
  split
  · exact ⟨rfl, List.prefix_rfl, Nat.le_succ _⟩
  · exact ⟨rfl, List.prefix_append _ _, Nat.le_succ _⟩

theorem failed (scan : SchemeScan) (failure : Option DerivationFailure) :
    scan.Grown { scan with failure } := ⟨rfl, List.prefix_rfl, Nat.le_refl _⟩

/-- Cut short here, a scan has what it gathers first. -/
theorem stopped (h : before.Grown scan) : Stopped scan { before with cancelled := true } :=
  ⟨rfl, h.schemeName, h.found, h.scanned⟩

end Grown

/-- What a longer scan would have gathered on top makes no difference. -/
theorem Stopped.trans {full longer scan : SchemeScan} (h : Stopped full scan)
    (hg : full.Grown longer) : Stopped longer scan := ⟨h.cancelled, h.grown.trans hg⟩

end SchemeScan

open SchemeScan (Grown Stopped)

/-! ## The scan of a chain -/

section Chain

variable {t : Target} {gap : GapLimit} {scan : SchemeScan}

theorem grown_scanIndices (left index : Nat) :
    scan.Grown ((scanIndices t left index gap scan).value answer) := by
  induction left generalizing index gap scan with
  | zero => exact .refl scan
  | succ left ih =>
    rw [scanIndices]
    split
    · exact .refl scan
    simp only [Scan.value_bind, Scan.value_isCancelled, Bool.false_eq_true, ↓reduceIte]
    cases (t.derive (UInt32.ofNat index)).value answer with
    | error e => exact .failed scan _
    | ok derived =>
      simp only [Scan.value_bind, value_visit, value_lookupUtxos, value_recordFound]
      exact (Grown.passed scan t _ derived _).trans (ih (index + 1))

theorem scanIndices_cutsShort (left index : Nat) :
    CutsShort answer Stopped log (scanIndices t left index gap scan) := by
  induction left generalizing index gap scan log with
  | zero => exact .done _
  | succ left ih =>
    have hgrown : scan.Grown ((scanIndices t (left + 1) index gap scan).value answer) :=
      grown_scanIndices (left + 1) index
    rw [scanIndices] at hgrown ⊢
    cases hgap : gap.reached with
    | true => exact .done _
    | false =>
      rw [hgap] at hgrown
      refine .look rfl hgrown.stopped (.after derive_uncut ?_)
      cases (t.derive (UInt32.ofNat index)).value answer with
      | error e => exact .done _
      | ok derived =>
        exact .after visit_uncut (.after lookupUtxos_uncut (.after recordFound_uncut
          (ih (index + 1))))

theorem grown_scanBatch (batch : List Position) (view : Option BulkView) :
    scan.Grown ((scanBatch t batch view gap scan).value answer).2 := by
  induction batch generalizing view gap scan with
  | nil => exact .refl scan
  | cons p rest ih =>
    rw [scanBatch]
    split
    · exact .refl scan
    simp only [Scan.value_bind, Scan.value_isCancelled, Bool.false_eq_true, ↓reduceIte, value_visit,
      value_recordFound]
    exact (Grown.passed scan t p.index p.derived _).trans (ih _)

theorem scanBatch_cutsShort (batch : List Position) (view : Option BulkView) :
    CutsShort answer (fun full r => Stopped full.2 r.2) log (scanBatch t batch view gap scan) := by
  induction batch generalizing view gap scan log with
  | nil => exact .done _
  | cons p rest ih =>
    have hgrown : scan.Grown ((scanBatch t (p :: rest) view gap scan).value answer).2 :=
      grown_scanBatch (p :: rest) view
    rw [scanBatch] at hgrown ⊢
    cases hgap : gap.reached with
    | true => exact .done _
    | false =>
      rw [hgap] at hgrown
      refine .look rfl hgrown.stopped (.after visit_uncut (.after (takeOrLookup_uncut view) ?_))
      exact .after recordFound_uncut (ih _)

/-- What comes after a batch: nothing, or the batches that follow. -/
def afterBatch (t : Target) (left start : Nat) (batch : List Position)
    (failure : Option DerivationFailure) (r : GapLimit × SchemeScan) : Scan SchemeScan :=
  if r.2.cancelled then return r.2
  else if batch.length < batchSize then return if r.1.reached then r.2 else { r.2 with failure }
  else scanBatches t left (start + batchSize) r.1 r.2

theorem scanBatches_succ (left start : Nat) (h : gap.reached = false) :
    scanBatches t (left + 1) start gap scan = isCancelled >>= fun cancelled =>
      if cancelled then return { scan with cancelled := true }
      else deriveBatch t (List.range' start (min batchSize (indexSpace - start))) >>= fun r =>
        if r.1.isEmpty then return { scan with failure := r.2 }
        else bulkLookup (r.1.map (·.derived.address)) >>= fun view =>
          scanBatch t r.1 view.toOption gap scan >>= afterBatch t left start r.1 r.2 := by
  rw [scanBatches, h]
  rfl

theorem grown_afterBatch {left start : Nat}
    (hnext : ∀ gap (scan : SchemeScan),
      scan.Grown ((scanBatches t left (start + batchSize) gap scan).value answer))
    (batch : List Position) (failure : Option DerivationFailure) (r : GapLimit × SchemeScan) :
    r.2.Grown ((afterBatch t left start batch failure r).value answer) := by
  unfold afterBatch
  split
  · exact .refl r.2
  split
  · split
    · exact .refl r.2
    · exact .failed r.2 failure
  · exact hnext r.1 r.2

theorem grown_scanBatches (left start : Nat) (gap : GapLimit) (scan : SchemeScan) :
    scan.Grown ((scanBatches t left start gap scan).value answer) := by
  induction left generalizing start gap scan with
  | zero => exact .refl scan
  | succ left ih =>
    cases hgap : gap.reached with
    | true => rw [scanBatches, hgap]; exact .refl scan
    | false =>
      rw [scanBatches_succ left start hgap]
      simp only [Scan.value_bind, Scan.value_isCancelled, Bool.false_eq_true, ↓reduceIte]
      split
      · exact .failed scan _
      simp only [Scan.value_bind]
      exact .trans (grown_scanBatch _ _) (grown_afterBatch (ih (start + batchSize)) _ _ _)

theorem scanBatches_cutsShort (left start : Nat) (gap : GapLimit) (scan : SchemeScan) :
    CutsShort answer Stopped log (scanBatches t left start gap scan) := by
  induction left generalizing start gap scan log with
  | zero => exact .done _
  | succ left ih =>
    have hgrown : scan.Grown ((scanBatches t (left + 1) start gap scan).value answer) :=
      grown_scanBatches (left + 1) start gap scan
    cases hgap : gap.reached with
    | true => rw [scanBatches, hgap]; exact .done _
    | false =>
      rw [scanBatches_succ left start hgap] at hgrown ⊢
      refine .look rfl hgrown.stopped (.after (deriveBatch_uncut _) ?_)
      split
      · exact .done _
      refine .after (bulkLookup_uncut _) (.bind (scanBatch_cutsShort _ _) ?_ fun r hr => ?_)
      · unfold afterBatch
        split
        · exact .done _
        split
        · exact .done _
        · exact ih _ _ _
      · -- Where the batch was cut short, nothing comes after it.
        refine ⟨r.2, by rw [afterBatch, if_pos hr.cancelled]; rfl, hr.trans ?_⟩
        exact grown_afterBatch (grown_scanBatches left (start + batchSize)) _ _ _

end Chain

/-! ## The scan of a scheme -/

section Scheme

variable {s : Scanner} {seed : Seed} {scheme : PathScheme}

theorem grown_scanChain (s : Scanner) (t : Target) (gapLimit : UInt32) (scan : SchemeScan) :
    scan.Grown ((s.scanChain t gapLimit scan).value answer) := by
  unfold Scanner.scanChain
  split
  · exact grown_scanBatches batchCount 0 (.new gapLimit.toNat) scan
  · exact grown_scanIndices indexSpace 0

theorem scanChain_cutsShort (s : Scanner) (t : Target) (gapLimit : UInt32) (scan : SchemeScan) :
    CutsShort answer Stopped log (s.scanChain t gapLimit scan) := by
  unfold Scanner.scanChain
  split
  · exact scanBatches_cutsShort batchCount 0 (.new gapLimit.toNat) scan
  · exact scanIndices_cutsShort indexSpace 0

theorem grown_scanChains (gapLimit : UInt32) (chains : List Chain) (scan : SchemeScan) :
    scan.Grown ((s.scanChains seed scheme gapLimit chains scan).value answer) := by
  induction chains generalizing scan with
  | nil => exact .refl scan
  | cons chain rest ih =>
    simp only [Scanner.scanChains, Scan.value_bind, Scan.value_isCancelled, Bool.false_eq_true,
      ↓reduceIte]
    have hchain : scan.Grown ((s.scanChain ⟨s.options, seed, scheme, chain⟩ gapLimit scan).value
        answer) := grown_scanChain s _ gapLimit scan
    split
    · exact hchain
    · exact hchain.trans (ih _)

theorem scanChains_cutsShort (gapLimit : UInt32) (chains : List Chain) (scan : SchemeScan) :
    CutsShort answer Stopped log (s.scanChains seed scheme gapLimit chains scan) := by
  induction chains generalizing scan log with
  | nil => exact .done _
  | cons chain rest ih =>
    refine .look rfl (grown_scanChains gapLimit (chain :: rest) scan).stopped ?_
    refine .bind (scanChain_cutsShort s _ gapLimit scan) ?_ fun r hr => ?_
    · split
      · exact .done _
      · exact ih _
    · have hended : r.ended = true := by simp [SchemeScan.ended, hr.cancelled]
      refine ⟨r, by rw [hended]; rfl, hr.trans ?_⟩
      split
      · exact .refl _
      · exact grown_scanChains gapLimit rest _

end Scheme

/-! ## Outcomes -/

/-- The key deriver never fails. -/
structure Unfailing (answer : (c : Call) → c.Answer) : Prop where
  address : ∀ seed coinType account change index,
    ∃ derived, answer (.deriveAddress seed coinType account change index) = .ok derived
  legacy : ∀ seed index, ∃ derived, answer (.deriveLegacyAddress seed index) = .ok derived
  seed : ∀ seed passphrase, ∃ used, answer (.seedForPassphrase seed passphrase) = .ok used

theorem unfailing_ledgerAnswer (utxos : String → List Utxo) :
    Unfailing (Environment.ledgerAnswer utxos) where
  address _ _ _ _ _ := ⟨_, rfl⟩
  legacy _ _ := ⟨_, rfl⟩
  seed _ _ := ⟨_, rfl⟩

theorem Unfailing.derives (h : Unfailing answer) (t : Target) (index : UInt32)
    (e : DerivationError) : ¬ t.Derives (fun c a => a = answer c) index (.error e) := by
  unfold Target.Derives
  intro herror
  split at herror
  · obtain ⟨derived, hderived⟩ := h.legacy t.seed index
    rw [hderived] at herror
    cases herror
  · obtain ⟨derived, hderived⟩ := h.address t.seed t.scheme.coinType t.chain.account t.chain.level
      index
    rw [hderived] at herror
    cases herror

/-- Where no derivation fails, no scan does. -/
theorem sustained_sound {A : (c : Call) → c.Answer → Prop} {t : Target}
    (h : ∀ index e, ¬ t.Derives A index (.error e)) :
    Sustained A t fun _ scan _ => scan.failure = none where
  asked _ hs := hs
  visited _ hs := hs
  missed _ _ hs := hs
  found _ _ _ _ hs := hs
  passed _ hs := hs
  stopped hs := hs
  failed failure hf _ := by
    cases failure with
    | none => rfl
    | some f => exact absurd (hf f rfl) (h f.index f.error)

/-- The outcome of a scan that was cut short or not, instead of `full`. -/
structure SchemeOutcome.Truncates (full o : SchemeOutcome) : Prop where
  schemeName : o.schemeName = full.schemeName
  priorityIndex : o.priorityIndex = full.priorityIndex
  addresses : o.addresses <+: full.addresses
  scanned : o.scanned ≤ full.scanned
  whole : o.cancelled = false → o = full

theorem SchemeOutcome.Truncates.refl (o : SchemeOutcome) : o.Truncates o :=
  ⟨rfl, rfl, List.prefix_rfl, Nat.le_refl _, fun _ => rfl⟩

theorem SchemeScan.Stopped.truncates {full scan : SchemeScan} (h : full.Stopped scan)
    (priorityIndex : Nat) :
    (full.outcome priorityIndex).Truncates (scan.outcome priorityIndex) where
  schemeName := h.grown.schemeName.symm
  priorityIndex := rfl
  addresses := h.grown.found
  scanned := h.grown.scanned
  whole hgoing := by
    have hcancelled : (scan.outcome priorityIndex).cancelled = true := h.cancelled
    rw [hcancelled] at hgoing
    cases hgoing

section Outcomes

variable {s : Scanner} {seed : Seed} {scheme : PathScheme} {gapLimit : UInt32} {priorityIndex : Nat}

theorem scanScheme_cutsShort : CutsShort answer SchemeOutcome.Truncates log
    (s.scanScheme seed scheme gapLimit priorityIndex) :=
  .bind (scanChains_cutsShort gapLimit _ _) (.done _) fun _ hs => ⟨_, rfl, hs.truncates _⟩

/-- Whenever the token is cancelled, the outcome of a scheme is that of the whole scan or a part of
it, and where no derivation fails, no scan does. -/
theorem scanScheme_truncates (h : Unfailing answer) :
    Gives (fun c a => a = answer c) (s.scanScheme seed scheme gapLimit priorityIndex) fun o =>
      ((s.scanScheme seed scheme gapLimit priorityIndex).value answer).Truncates o ∧
        o.failure = none := by
  refine Gives.and ?_ ?_
  · have hcuts : CutsShort answer SchemeOutcome.Truncates []
        (s.scanScheme seed scheme gapLimit priorityIndex) := scanScheme_cutsShort
    refine hcuts.gives.mono fun o ho => ?_
    rcases ho with rfl | ho
    · exact .refl _
    · exact ho
  · have hrecords : Records (fun c a => a = answer c) (fun _ => True) []
        (s.scanScheme seed scheme gapLimit priorityIndex) fun o _ => ∃ (scan : SchemeScan)
          (_ : List Chain) (_ : Nat), o = scan.outcome priorityIndex ∧ scan.failure = none :=
      Relayed.scanScheme (.of_sustained fun chain _ => sustained_sound (h.derives _)) rfl gapLimit
        priorityIndex
    refine (Gives.of_records hrecords).mono ?_
    rintro _ ⟨scan, -, -, rfl, hscan⟩
    exact hscan

end Outcomes

end FundRecovery.Discovery
