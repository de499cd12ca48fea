import FundRecovery.Proofs.Discovery.BulkReports
import FundRecovery.Proofs.Discovery.WiderChains

/-!
# How far reports take the scan of a chain

Whichever strategy is used, the scan of a chain goes from one index to the next and marks each
address as used that holds outputs or was reported. In batches it asks about several addresses at a
time, and what is reported of them stays what it is for the rest of the scan: as the addresses of a
chain are distinct, no report about one batch says anything about another.

* `Reaches`: a scan goes from one index to another, with these addresses reported active.
* `scanIndices_reaches`, `scanBatch_reaches`: so does a scan with single lookups, and the scan of a
  batch.
* `Batched`: so does a scan in batches, with the addresses that its bulk queries lead to as active.
  `scanBatches_batched` puts the batches together.
-/

namespace FundRecovery.Discovery

variable {answer : (c : Call) → c.Answer} {t : Target} {active others : List String}
  {gap gap' gap'' : GapLimit} {scan scan' scan'' : SchemeScan} {i m n : Nat}

/-- No derivation on the chain fails. -/
def Derivable (answer : (c : Call) → c.Answer) (t : Target) : Prop :=
  ∀ i < indexSpace, ∃ d, t.derived answer i = .ok d

/-! ## From one index to another -/

/-- From index `i` to index `n`, with these addresses reported active: the gap is marked at each
index between them, and what the indices hold is gathered. -/
structure Reaches (answer : (c : Call) → c.Answer) (t : Target) (active : List String) (i n : Nat)
    (gap gap' : GapLimit) (scan scan' : SchemeScan) : Prop where
  passes : Passes (fun j => ¬Resets answer t active j) i gap n gap'
  gathers : scan.Gathers scan' (discoveriesIn answer t i n) (n - i)
  cancelled : scan'.cancelled = scan.cancelled

namespace Reaches

theorem refl (i : Nat) (gap : GapLimit) (scan : SchemeScan) :
    Reaches answer t active i i gap gap scan scan where
  passes := .refl i gap
  gathers := by
    rw [discoveriesIn_self, Nat.sub_self]
    exact .refl scan
  cancelled := rfl

theorem trans (h : Reaches answer t active i m gap gap' scan scan')
    (h' : Reaches answer t active m n gap' gap'' scan' scan'') :
    Reaches answer t active i n gap gap'' scan scan'' where
  passes := h.passes.trans h'.passes
  gathers := by
    have him := h.passes.le
    have hmn := h'.passes.le
    rw [← discoveriesIn_append him hmn, show n - i = m - i + (n - m) by omega]
    exact h.gathers.trans h'.gathers
  cancelled := h'.cancelled.trans h.cancelled

/-- Past one index. -/
theorem pass {d : DerivedAddress} {used : Bool} (hopen : gap.reached = false)
    (hd : t.derived answer i = .ok d)
    (hused : used = true ↔ outputsAt answer d.address ≠ [] ∨ d.address ∈ active)
    (hname : scan.schemeName = t.scheme.name) :
    Reaches answer t active i (i + 1) gap (gap.mark used) scan
      (scan.passed t (UInt32.ofNat i) d (outputsAt answer d.address)) where
  passes := .step hopen (by rw [resets_iff hd, ← hused, Bool.not_eq_true]) (.refl _ _)
  gathers := {
    schemeName := SchemeScan.schemeName_passed
    found := by
      rw [discoveriesIn_step (Nat.lt_succ_self i), discoveriesIn_self, List.append_nil]
      exact found_passed hname hd
    scanned := by
      rw [show i + 1 - i = 1 by omega]
      exact SchemeScan.scanned_passed
    failure := SchemeScan.failure_passed }
  cancelled := SchemeScan.cancelled_passed

/-- Only the reports about the indices that are passed matter. -/
theorem congr (h : Reaches answer t active i n gap gap' scan scan')
    (hsame : ∀ j d, i ≤ j → j < n → t.derived answer j = .ok d →
      (d.address ∈ active ↔ d.address ∈ others)) :
    Reaches answer t others i n gap gap' scan scan' where
  passes := h.passes.congr fun j hij hjn => by
    refine not_congr (exists_congr fun d => and_congr_right fun hd => or_congr_right ?_)
    exact hsame j d hij hjn hd
  gathers := h.gathers
  cancelled := h.cancelled

end Reaches

/-! ## One chain -/

/-- Single lookups go on until the gap is closed. -/
theorem scanIndices_reaches (hderivable : Derivable answer t) {left : Nat}
    (hspace : i + left = indexSpace) (hname : scan.schemeName = t.scheme.name) :
    Consults (Attests answer) (scanIndices t left i gap scan) fun scan' u =>
      inBulk u = [] ∧ ∃ n gap', n ≤ indexSpace ∧ (gap'.reached = true ∨ n = indexSpace) ∧
        Reaches answer t [] i n gap gap' scan scan' := by
  induction left generalizing i gap scan with
  | zero => exact .done ⟨rfl, i, gap, by omega, .inr hspace, .refl i gap scan⟩
  | succ left ih =>
    rw [scanIndices]
    cases hr : gap.reached with
    | true => exact .done ⟨rfl, i, gap, by omega, .inl hr, .refl i gap scan⟩
    | false =>
      simp only [Bool.false_eq_true, ↓reduceIte]
      refine .look_bind ?_
      refine .bind (.derive (Q := fun r u => r = t.derived answer i ∧ inBulk u = []) fun r hr =>
        ⟨derives_attests hr, inBulk_derivedAs _ _⟩) ?_
      rintro _ u₁ ⟨rfl, hu₁⟩
      obtain ⟨d, hd⟩ := hderivable i (by omega)
      rw [hd]
      refine .bind (.visit d.address) ?_
      rintro _ _ ⟨rfl, rfl⟩
      refine .bind (lookupUtxos_lists d.address _) ?_
      rintro _ u₂ ⟨hu₂, rfl⟩
      refine .bind (.recordFound ..) ?_
      rintro _ _ ⟨rfl, rfl⟩
      refine (ih (by omega) (SchemeScan.schemeName_passed.trans hname)).mono ?_
      rintro scan' u₃ ⟨hu₃, n, gap', hn, hend, hrest⟩
      refine ⟨by simp [hu₁, hu₂, hu₃], n, gap', hn, hend, .trans (.pass hr hd ?_ hname) hrest⟩
      simp

/-- A batch is gone through until the gap is closed. -/
theorem scanBatch_reaches {batch : List Position} (hbatch : Consecutive answer t i batch)
    (hnodup : (batch.map (·.derived.address)).Nodup) {view : Option BulkView}
    (hoffers : Offers answer (batch.map (·.derived.address)) active view)
    (hname : scan.schemeName = t.scheme.name) :
    Consults (Attests answer) (scanBatch t batch view gap scan) fun r u =>
      inBulk u = [] ∧ ∃ n, n ≤ i + batch.length ∧ (r.1.reached = true ∨ n = i + batch.length) ∧
        Reaches answer t active i n gap r.1 scan r.2 := by
  induction batch generalizing i view gap scan with
  | nil => exact .done ⟨rfl, i, Nat.le_refl i, .inr rfl, .refl i gap scan⟩
  | cons p rest ih =>
    obtain ⟨hindex, hd, hrest⟩ := hbatch
    obtain ⟨hfresh, hnodup⟩ := List.nodup_cons.mp hnodup
    rw [scanBatch]
    cases hr : gap.reached with
    | true => exact .done ⟨rfl, i, Nat.le_add_right .., .inl hr, .refl i gap scan⟩
    | false =>
      simp only [Bool.false_eq_true, ↓reduceIte]
      refine .look_bind ?_
      refine .bind (.visit p.derived.address) ?_
      rintro _ _ ⟨rfl, rfl⟩
      refine .bind (takeOrLookup_offers hoffers hfresh _) ?_
      rintro ⟨used, utxos, view⟩ u₁ ⟨hu₁, hused, hutxos, hoffers⟩
      dsimp only at hused hutxos hoffers
      subst hutxos
      refine .bind (.recordFound ..) ?_
      rintro _ _ ⟨rfl, rfl⟩
      rw [hindex]
      refine (ih hrest hnodup hoffers (SchemeScan.schemeName_passed.trans hname)).mono ?_
      rintro r u₂ ⟨hu₂, n, hn, hend, hreaches⟩
      rw [List.length_cons, show i + (rest.length + 1) = i + 1 + rest.length by omega]
      exact ⟨by simp [hu₁, hu₂], n, hn, hend, .trans (.pass hr hd hused hname) hreaches⟩

/-- Where no derivation fails, a batch has all its positions. -/
theorem deriveBatch_whole (hderivable : Derivable answer t) (i k : Nat)
    (hspace : i + k ≤ indexSpace) :
    Consults (Attests answer) (deriveBatch t (List.range' i k)) fun r u => inBulk u = [] ∧
      r = ((List.range' i k).filterMap (positionAt answer t), none) ∧ r.1.length = k ∧
        Consecutive answer t i r.1 := by
  induction k generalizing i with
  | zero => exact .done ⟨rfl, rfl, rfl, .intro⟩
  | succ k ih =>
    rw [List.range'_succ, deriveBatch]
    refine .bind (.derive (Q := fun r u => r = t.derived answer i ∧ inBulk u = []) fun r hr =>
      ⟨derives_attests hr, inBulk_derivedAs _ _⟩) ?_
    rintro _ u₁ ⟨rfl, hu₁⟩
    obtain ⟨d, hd⟩ := hderivable i (by omega)
    rw [hd]
    refine .bind (ih (i + 1) (by omega)) ?_
    rintro _ u₂ ⟨hu₂, rfl, hlength, hconsecutive⟩
    have hposition : positionAt answer t i = some ⟨UInt32.ofNat i, d⟩ := by rw [positionAt, hd]
    refine .done ⟨by simp [hu₁, hu₂], ?_, ?_, rfl, hd, hconsecutive⟩
    · rw [List.filterMap_cons_some hposition]
    · exact congrArg (· + 1) hlength

/-- How the scan of a chain in batches from index `start` on ends: the bulk queries are `asked`, and
what they report takes the scan to an index below the last batch. There the gap is closed, or the
index space ends. -/
def Batched (answer : (c : Call) → c.Answer) (t : Target) (start : Nat) (gap : GapLimit)
    (scan scan' : SchemeScan) (asked : List Answered) : Prop :=
  ∃ stop active n gap', Reports answer t start stop active asked ∧ n ≤ stop ∧ n ≤ indexSpace ∧
    (gap'.reached = true ∨ n = indexSpace) ∧ Reaches answer t active start n gap gap' scan scan'

section Chain

variable {start stop : Nat} {asked rest : List Answered}

theorem behindBatch_le (start : Nat) : behindBatch start ≤ indexSpace := Nat.min_le_right ..

/-- No batch is asked for any more. -/
theorem Batched.refl (hstart : start ≤ indexSpace)
    (hend : gap.reached = true ∨ start = indexSpace) (scan : SchemeScan) :
    Batched answer t start gap scan scan [] :=
  ⟨start, [], start, gap, .nil start, Nat.le_refl start, hstart, hend, .refl start gap scan⟩

/-- A batch in which the scan ends. -/
theorem Batched.last (hfirst : Reported (addressesIn answer t start (behindBatch start)) active
      asked) (hn : n ≤ behindBatch start) (hend : gap'.reached = true ∨ n = indexSpace)
    (h : Reaches answer t active start n gap gap' scan scan') :
    Batched answer t start gap scan scan' asked := by
  have hreports := Reports.cons hfirst (.nil (behindBatch start))
  rw [List.append_nil, List.append_nil] at hreports
  exact ⟨_, _, n, gap', hreports, hn, hn.trans (behindBatch_le start), hend, h⟩

/-- A whole batch, and those that follow. No address of the one is an address of the others, so what
is reported of the others makes no difference to it. -/
theorem Batched.cons (hdistinct : Distinct answer t)
    (hfirst : Reported (addressesIn answer t start (behindBatch start)) active asked)
    (h : Reaches answer t active start (behindBatch start) gap gap' scan scan')
    (hrest : Batched answer t (behindBatch start) gap' scan' scan'' rest) :
    Batched answer t start gap scan scan'' (asked ++ rest) := by
  obtain ⟨stop, others, n, gap'', hreports, hn, hspace, hend, hothers⟩ := hrest
  have hbehind := behindBatch_le start
  refine ⟨stop, active ++ others, n, gap'', .cons hfirst hreports, hn, hspace, hend,
    .trans (h.congr fun j d _ hj hd => ?_) (hothers.congr fun j d hj hjn hd => ?_)⟩
  · rw [List.mem_append, or_iff_left]
    intro hother
    obtain ⟨k, d', hk, hks, hd', haddress⟩ := hreports.derived hbehind hother
    have hjk := hdistinct j (by omega) k hks d d' hd hd' haddress.symm
    omega
  · rw [List.mem_append, or_iff_right]
    intro hfirst'
    obtain ⟨k, d', -, hk, hd', haddress⟩ := mem_addressesIn.mp (hfirst.mem hfirst')
    have hjk := hdistinct j (by omega) k (by omega) d d' hd hd' haddress.symm
    omega

/-- After a batch the scan ends or the next batch is asked for. -/
theorem afterBatch_batched (hdistinct : Distinct answer t) {left : Nat} {batch : List Position}
    (hlength : start + batch.length = behindBatch start)
    (hfirst : Reported (addressesIn answer t start (behindBatch start)) active asked)
    (hn : n ≤ behindBatch start) (hend : gap'.reached = true ∨ n = behindBatch start)
    (h : Reaches answer t active start n gap gap' scan scan') (hfailure : scan.failure = none)
    (hgoing : scan.cancelled = false)
    (hnext : start + batchSize = behindBatch start →
      Consults (Attests answer) (scanBatches t left (behindBatch start) gap' scan') fun scan'' u =>
        Batched answer t (behindBatch start) gap' scan' scan'' (inBulk u)) :
    Consults (Attests answer) (afterBatch t left start batch none (gap', scan')) fun scan'' u =>
      Batched answer t start gap scan scan'' (asked ++ inBulk u) := by
  have hlast (hstop : gap'.reached = true ∨ n = indexSpace) :
      Batched answer t start gap scan scan' (asked ++ []) :=
    (List.append_nil asked).symm ▸ .last hfirst hn hstop h
  have hsame : { scan' with failure := none } = scan' := by
    rw [← h.gathers.failure.trans hfailure]
  rw [afterBatch, h.cancelled, hgoing, if_neg Bool.false_ne_true, hsame, ite_self]
  by_cases hshort : batch.length < batchSize
  · rw [if_pos hshort]
    refine .done (hlast (hend.imp_right fun hwhole => ?_))
    -- The batch is short because the index space ends with it.
    rw [hwhole]
    rw [behindBatch] at hlength ⊢
    omega
  · rw [if_neg hshort]
    have hfull : start + batchSize = behindBatch start := by
      rw [behindBatch] at hlength ⊢
      omega
    rw [hfull]
    rcases hend with hr | rfl
    · rw [scanBatches_reached hr]
      exact .done (hlast (.inl hr))
    · exact (hnext hfull).mono fun scan'' u hrest => .cons hdistinct hfirst h hrest

/-- A batch goes up to where the next one starts, or to the end of the index space. -/
theorem deriveBatch_full (hderivable : Derivable answer t) (hstart : start ≤ indexSpace) :
    Consults (Attests answer)
      (deriveBatch t (List.range' start (min batchSize (indexSpace - start)))) fun r u =>
        inBulk u = [] ∧ r.2 = none ∧ start + r.1.length = behindBatch start ∧
          Consecutive answer t start r.1 ∧
          r.1.map (·.derived.address) = addressesIn answer t start (behindBatch start) := by
  obtain ⟨k, hk⟩ : ∃ k, start + k = behindBatch start :=
    ⟨behindBatch start - start, by rw [behindBatch]; omega⟩
  have hmin : min batchSize (indexSpace - start) = k := by
    rw [behindBatch] at hk
    omega
  have hbehind := behindBatch_le start
  rw [hmin]
  refine (deriveBatch_whole hderivable start k (by omega)).mono ?_
  rintro ⟨batch, failure⟩ u ⟨hu, heq, hlength, hbatch⟩
  obtain ⟨hpositions, hfailure⟩ := Prod.mk.inj heq
  dsimp only at hlength hbatch ⊢
  refine ⟨hu, hfailure, by rw [hlength, hk], hbatch, ?_⟩
  rw [addressesIn, positionsIn, ← hk, Nat.add_sub_cancel_left, hpositions]

/-- Batch after batch is asked for until the gap is closed. -/
theorem scanBatches_batched (hderivable : Derivable answer t) (hdistinct : Distinct answer t)
    {left : Nat} (hstart : start ≤ indexSpace) (hleft : indexSpace ≤ start + left * batchSize)
    (hname : scan.schemeName = t.scheme.name) (hfailure : scan.failure = none)
    (hgoing : scan.cancelled = false) :
    Consults (Attests answer) (scanBatches t left start gap scan) fun scan' u =>
      Batched answer t start gap scan scan' (inBulk u) := by
  -- The induction is on the batches left: what is gathered before a batch stays as it is.
  induction left generalizing start gap scan with
  | zero => exact .done (.refl hstart (.inr (by omega)) scan)
  | succ left ih =>
    cases hr : gap.reached with
    | true =>
      rw [scanBatches_reached hr]
      exact .done (.refl hstart (.inl hr) scan)
    | false =>
      rw [scanBatches_succ left start hr]
      refine .look_bind ?_
      simp only [Bool.false_eq_true, ↓reduceIte]
      refine .bind (deriveBatch_full hderivable hstart) ?_
      rintro ⟨batch, failure⟩ u₁ ⟨hu₁, hnone, hlength, hbatch, haddresses⟩
      dsimp only at hnone hlength hbatch haddresses ⊢
      subst hnone
      by_cases hempty : batch.isEmpty
      · -- There is no index left.
        rw [if_pos hempty]
        have hspace : start = indexSpace := by
          rw [List.isEmpty_iff.mp hempty, List.length_nil, behindBatch, batchSize] at hlength
          omega
        have hsame : { scan with failure := none } = scan := by rw [← hfailure]
        rw [hsame]
        refine .done ?_
        rw [List.append_nil, hu₁]
        exact .refl hstart (.inr hspace) scan
      · rw [if_neg hempty]
        have hbehind := behindBatch_le start
        refine .bind (bulkLookup_offers _) ?_
        rintro view u₂ ⟨active, hreported, hoffers⟩
        have hnodup : (batch.map (·.derived.address)).Nodup :=
          haddresses ▸ nodup_positionsIn hdistinct (by omega) hbehind
        refine .bind (scanBatch_reaches hbatch hnodup hoffers hname) ?_
        rintro ⟨gap', scan'⟩ u₃ ⟨hu₃, n, hn, hend, hreaches⟩
        rw [haddresses] at hreported
        rw [hlength] at hn hend
        refine (afterBatch_batched hdistinct hlength hreported hn hend hreaches hfailure hgoing
          fun hfull => ?_).mono fun scan'' u₄ hbatched => ?_
        · rw [Nat.succ_mul] at hleft
          exact ih hbehind (by omega) (hreaches.gathers.schemeName.trans hname)
            (hreaches.gathers.failure.trans hfailure) (hreaches.cancelled.trans hgoing)
        · simpa [hu₁, hu₃, hreported.inBulk] using hbatched

end Chain

end FundRecovery.Discovery
