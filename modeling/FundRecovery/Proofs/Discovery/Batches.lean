import FundRecovery.Proofs.Discovery.BulkViews
import Mathlib.Data.List.Basic

/-!
# Batches and single lookups agree

A scan that asks a truthful bulk backend for a batch at a time finds and reports what a scan with
one lookup per address does, wherever the batches are cut and whichever bulk calls fail.

* `Follows`: a program ends in the value of another one, and reports the same events.
* `scanBatch_follows`: going through a batch leaves the gap and what is gathered where the single
  lookups of its positions do. `scanBatches_follows` puts the batches together.
* `scanScheme_bulk_agrees`: the two strategies give one outcome and one sequence of events.
-/

namespace FundRecovery.Discovery

variable {σ α β : Type} {answer : (c : Call) → c.Answer} {t : Target} {log : List Call}

/-- With answers of a truthful backend, `p` ends in the value that `q` has with fixed answers, and
reports the same events. -/
def Follows (answer : (c : Call) → c.Answer) (p q : Scan α) : Prop :=
  ∀ log, Records (Truthful answer) (· = false) log p fun a log' =>
    a = q.value answer ∧ events log' = events log ++ events (q.issued answer)

namespace Follows

variable {p q : Scan α} {f g : α → Scan β}

theorem done (a : α) : Follows answer (.done a) (.done a) := fun log => .done ⟨rfl, by simp⟩

theorem bind (hp : Follows answer p q)
    (hf : Follows answer (f (q.value answer)) (g (q.value answer))) :
    Follows answer (p >>= f) (q >>= g) := by
  intro log
  refine .bind (hp log) ?_
  rintro _ log₁ ⟨rfl, hlog₁⟩
  refine (hf log₁).mono fun b log₂ ⟨hb, hlog₂⟩ => ⟨by rw [hb, Scan.value_bind], ?_⟩
  rw [hlog₂, hlog₁, Scan.issued_bind, events_append, List.append_assoc]

/-- The token is not cancelled, so a look at it may be left out. -/
theorem look_bind {f : Bool → Scan α} (hf : Follows answer (f false) q) :
    Follows answer (isCancelled >>= f) q := by
  intro log
  refine .bind (.isCancelled (Q := fun b log' => b = false ∧ log' = log) fun b hb => ⟨hb, rfl⟩) ?_
  rintro _ _ ⟨rfl, rfl⟩
  exact hf _

end Follows

/-! ## Steps -/

theorem derives_truthful {i : Nat} {r : Except DerivationError DerivedAddress}
    (h : t.Derives (Truthful answer) (UInt32.ofNat i) r) : r = t.derived answer i := by
  unfold Target.Derives at h
  unfold Target.derived Target.derive
  split at h <;> rename_i hl <;> simp only [hl, Bool.false_eq_true, ↓reduceIte] <;> exact h

theorem derive_follows (i : Nat) :
    Follows answer (t.derive (UInt32.ofNat i)) (t.derive (UInt32.ofNat i)) := fun log =>
  .derive fun r hr => ⟨derives_truthful hr, by rw [issued_derive, events_append]⟩

theorem report_follows (options : ScanOptions) (event : ScanProgress) :
    Follows answer (report options event) (report options event) := fun log =>
  .report ⟨rfl, by rw [Scan.issued_report, events_append]⟩

theorem visit_follows (address : String) (scan : SchemeScan) :
    Follows answer (visit t address scan) (visit t address scan) :=
  .bind (report_follows _ _) (.done _)

theorem recordFound_follows (index : UInt32) (derived : DerivedAddress) (utxos : List Utxo)
    (scan : SchemeScan) :
    Follows answer (recordFound t index derived utxos scan)
      (recordFound t index derived utxos scan) := by
  unfold recordFound
  split
  · exact .done _
  · exact .bind (report_follows _ _) (.done _)

theorem lookupUtxos_follows (address : String) (scan : SchemeScan) :
    Follows answer (lookupUtxos t address scan) (lookupUtxos t address scan) := by
  have hcall : Follows answer (call (.listUtxos address)) (call (.listUtxos address)) :=
    fun log => .call fun r hr => ⟨hr, by rw [Scan.issued_call, events_append]⟩
  refine hcall.bind ?_
  split
  · exact .done _
  · exact .bind (report_follows _ _) (.done _)

theorem isCancelled_follows : Follows answer isCancelled isCancelled := fun log =>
  .isCancelled fun b hb => ⟨hb, by simp⟩

theorem scanIndices_follows (left i : Nat) (gap : GapLimit) (scan : SchemeScan) :
    Follows answer (scanIndices t left i gap scan) (scanIndices t left i gap scan) := by
  induction left generalizing i gap scan with
  | zero => exact .done _
  | succ left ih =>
    simp only [scanIndices]
    split
    · exact .done _
    refine .bind isCancelled_follows (.bind (derive_follows i) ?_)
    split
    · exact .done _
    · exact .bind (visit_follows _ _) (.bind (lookupUtxos_follows _ _)
        (.bind (recordFound_follows _ _ _ _) (ih _ _ _)))

/-! ## Batches -/

/-- Single lookups of `k` positions from `i` on, and of those that follow, end as those that follow
do from another gap, another state and another log. -/
structure Resumes (answer : (c : Call) → c.Answer) (t : Target) (i k : Nat) (gap : GapLimit)
    (scan : SchemeScan) (log : List Call) (gap' : GapLimit) (scan' : SchemeScan)
    (log' : List Call) : Prop where
  failure : scan'.failure = scan.failure
  cancelled : scan'.cancelled = scan.cancelled
  value : ∀ left, (scanIndices t (k + left) i gap scan).value answer =
    (scanIndices t left (i + k) gap' scan').value answer
  reported : ∀ left, events log ++ events ((scanIndices t (k + left) i gap scan).issued answer) =
    events log' ++ events ((scanIndices t left (i + k) gap' scan').issued answer)

namespace Resumes

variable {i k : Nat} {gap gap' : GapLimit} {scan scan' : SchemeScan} {log' log₁ : List Call}

theorem zero (hlog : events log' = events log) :
    Resumes answer t i 0 gap scan log gap scan log' where
  failure := rfl
  cancelled := rfl
  value left := by rw [Nat.zero_add]; rfl
  reported left := by rw [hlog, Nat.zero_add]; rfl

/-- Where the gap is closed nothing more happens. -/
theorem reached (h : gap.reached = true) : Resumes answer t i k gap scan log gap scan log where
  failure := rfl
  cancelled := rfl
  value left := by rw [scanIndices_reached h, scanIndices_reached h]
  reported left := by rw [scanIndices_reached h, scanIndices_reached h]

theorem pass (hr : gap.reached = false) {d : DerivedAddress} (hd : t.derived answer i = .ok d)
    (hlog : events log₁ = events log ++
      events (passage answer t (UInt32.ofNat i) d scan))
    (h : Resumes answer t (i + 1) k (gap.mark !(outputsAt answer d.address).isEmpty)
      (scan.passed t (UInt32.ofNat i) d (outputsAt answer d.address)) log₁ gap' scan' log') :
    Resumes answer t i (k + 1) gap scan log gap' scan' log' where
  failure := h.failure.trans SchemeScan.failure_passed
  cancelled := h.cancelled.trans SchemeScan.cancelled_passed
  value left := by
    rw [Nat.add_right_comm, (scanIndices_passed _ scan hr hd).1, h.value, Nat.add_right_comm,
      Nat.add_assoc]
  reported left := by
    have hderivation : events [t.derivation (UInt32.ofNat i)] = [] := by
      simp [events]
    have hrest := h.reported left
    rw [hlog, Nat.add_right_comm, Nat.add_assoc] at hrest
    rw [Nat.add_right_comm, (scanIndices_passed _ scan hr hd).2, ← List.singleton_append,
      events_append, events_append, hderivation, List.nil_append, ← List.append_assoc]
    exact hrest

end Resumes

/-- The batch has the positions from `i` on with what they derive to. -/
def Consecutive (answer : (c : Call) → c.Answer) (t : Target) : Nat → List Position → Prop
  | _, [] => True
  | i, p :: rest =>
    p.index = UInt32.ofNat i ∧ t.derived answer i = .ok p.derived ∧
      Consecutive answer t (i + 1) rest

/-- Different positions derive to different addresses. -/
def Distinct (answer : (c : Call) → c.Answer) (t : Target) : Prop :=
  ∀ i < indexSpace, ∀ j < indexSpace, ∀ d d', t.derived answer i = .ok d →
    t.derived answer j = .ok d' → d.address = d'.address → i = j

theorem Consecutive.derived {i : Nat} {batch : List Position} (h : Consecutive answer t i batch)
    {p : Position} (hp : p ∈ batch) :
    ∃ j, i ≤ j ∧ j < i + batch.length ∧ t.derived answer j = .ok p.derived := by
  induction batch generalizing i with
  | nil => simp at hp
  | cons q rest ih =>
    obtain ⟨-, hq, hrest⟩ := h
    rcases List.mem_cons.mp hp with rfl | hp
    · exact ⟨i, Nat.le_refl i, by simp, hq⟩
    · obtain ⟨j, hij, hj, hd⟩ := ih hrest hp
      exact ⟨j, by omega, by rw [List.length_cons]; omega, hd⟩

/-- The addresses of a batch are distinct. -/
theorem Consecutive.nodup (hdistinct : Distinct answer t) {i : Nat} {batch : List Position}
    (h : Consecutive answer t i batch) (hspace : i + batch.length ≤ indexSpace) :
    (batch.map (·.derived.address)).Nodup := by
  induction batch generalizing i with
  | nil => exact .nil
  | cons p rest ih =>
    obtain ⟨-, hp, hrest⟩ := h
    rw [List.length_cons] at hspace
    refine List.nodup_cons.mpr ⟨fun hmem => ?_, ih hrest (by omega)⟩
    obtain ⟨q, hq, haddress⟩ := List.mem_map.mp hmem
    obtain ⟨j, hij, hj, hd⟩ := hrest.derived hq
    have heq := hdistinct j (by omega) i (by omega) _ _ hd hp haddress
    omega

/-- A batch has the positions up to the first failing derivation. -/
theorem deriveBatch_consecutive (i k : Nat) :
    Records (Truthful answer) (· = false) log (deriveBatch t (List.range' i k)) fun r log' =>
      events log' = events log ∧ Consecutive answer t i r.1 ∧
        (r.1.length = k ∧ r.2 = none ∨ r.1.length < k ∧ ∃ e,
          t.derived answer (i + r.1.length) = .error e ∧
          r.2 = some ⟨UInt32.ofNat (i + r.1.length), e⟩) := by
  induction k generalizing i log with
  | zero => exact .done ⟨rfl, trivial, .inl ⟨rfl, rfl⟩⟩
  | succ k ih =>
    rw [List.range'_succ, deriveBatch]
    refine .bind (.derive (Q := fun r log' => events log' = events log ∧ r = t.derived answer i)
      fun r hr => ⟨events_append_asked (Target.event?_derivation _) log, derives_truthful hr⟩)
      fun r log₁ ⟨hlog₁, hr⟩ => ?_
    cases r with
    | error e => exact .done ⟨hlog₁, trivial, .inr ⟨Nat.succ_pos k, e, hr.symm, rfl⟩⟩
    | ok d =>
      refine .bind (ih (i + 1)) fun ⟨batch, failure⟩ log₂ ⟨hlog₂, hbatch, hend⟩ => .done ?_
      refine ⟨hlog₂.trans hlog₁, ⟨rfl, hr.symm, hbatch⟩, ?_⟩
      have hlength : i + (batch.length + 1) = i + 1 + batch.length := by omega
      rcases hend with ⟨hk, hfailure⟩ | ⟨hk, e, he, hfailure⟩
      · exact .inl ⟨congrArg (· + 1) hk, hfailure⟩
      · refine .inr ⟨Nat.succ_lt_succ hk, e, ?_, ?_⟩
        · rw [List.length_cons, hlength]
          exact he
        · rw [List.length_cons, hlength]
          exact hfailure

/-- A view, where there is one, holds what lookups give. -/
def Sees (answer : (c : Call) → c.Answer) (view : Option BulkView) (addresses : List String) :
    Prop :=
  ∀ v, view = some v → v.Shows answer addresses

/-- The answer of a bulk lookup is a view, or none. -/
theorem sees_toOption {r : Except ChainError BulkView} {addresses : List String}
    (h : ∀ view, r = .ok view → view.Shows answer addresses) :
    Sees answer r.toOption addresses := by
  intro view hview
  cases r with
  | error e => simp [Except.toOption] at hview
  | ok v =>
    obtain rfl : v = view := by simpa [Except.toOption] using hview
    exact h v rfl

theorem takeOrLookup_sees {view : Option BulkView} {address : String} {rest : List String}
    (hv : Sees answer view (address :: rest)) (hfresh : address ∉ rest)
    (hlookup : ∃ utxos, answer (.listUtxos address) = .ok utxos) (scan : SchemeScan) :
    Records (Truthful answer) (· = false) log (takeOrLookup t view address scan) fun r log' =>
      events log' = events log ∧ r.1 = (!(outputsAt answer address).isEmpty) ∧
        r.2.1 = outputsAt answer address ∧ Sees answer r.2.2 rest := by
  cases view with
  | none =>
    refine .bind (lookupUtxos_follows address scan log) fun utxos log₁ ⟨hutxos, hlog₁⟩ => ?_
    rw [value_lookupUtxos] at hutxos
    obtain ⟨held, hheld⟩ := hlookup
    refine .done ⟨?_, by rw [hutxos], hutxos, fun v hv => by simp at hv⟩
    rw [hlog₁, issued_lookupUtxos, missReports, hheld]
    simp [events, Call.event?]
  | some view =>
    have hfind := hv view rfl address List.mem_cons_self
    refine .done ⟨rfl, ?_, ?_, ?_⟩
    · dsimp only
      rw [hfind]
      cases outputsAt answer address <;> rfl
    · dsimp only
      rw [hfind]
      cases outputsAt answer address <;> rfl
    · rintro _ ⟨rfl⟩ other hother
      rw [BulkView.find?_erase_ne fun h : other = address => hfresh (h ▸ hother)]
      exact hv view rfl other (List.mem_cons_of_mem _ hother)

/-- Where no lookup fails, an index reports its visit and its discovery. -/
theorem events_passage {index : UInt32} {d : DerivedAddress} {scan : SchemeScan}
    (hlookup : ∃ utxos, answer (.listUtxos d.address) = .ok utxos) :
    events (passage answer t index d scan) = events (visitReports t d.address scan) ++
      events (foundReports t index d (outputsAt answer d.address) scan.counted) := by
  obtain ⟨held, hheld⟩ := hlookup
  have hquery : events [.listUtxos d.address] = [] := rfl
  rw [passage, missReports, hheld, ← List.singleton_append, events_append, events_append,
    events_append, hquery, List.nil_append]
  dsimp only
  rw [events_nil, List.append_nil]

/-- A short batch is the last one: it ends where single lookups do, in the failure that cut it short
unless the gap is closed before, or at the end of the index space. -/
theorem Resumes.last {i k space : Nat} {gap gap' : GapLimit} {scan scan' : SchemeScan}
    {log' : List Call} {failure : Option DerivationFailure}
    (h : Resumes answer t i k gap scan log gap' scan' log')
    (hend : k = min batchSize space ∧ failure = none ∨ k < min batchSize space ∧ ∃ e,
      t.derived answer (i + k) = .error e ∧ failure = some ⟨UInt32.ofNat (i + k), e⟩)
    (hshort : k < batchSize) (hfailure : scan.failure = none) :
    (if gap'.reached = true then scan' else { scan' with failure := failure }) =
        (scanIndices t space i gap scan).value answer ∧
      events log' = events log ++ events ((scanIndices t space i gap scan).issued answer) := by
  rcases hend with ⟨hk, rfl⟩ | ⟨hk, e, he, rfl⟩
  · obtain rfl : k = space := by omega
    have hnone : { scan' with failure := none } = scan' := by rw [← hfailure, ← h.failure]
    have hvalue := h.value 0
    have hreported := h.reported 0
    rw [hnone, ite_self]
    exact ⟨hvalue.symm, by simpa [scanIndices] using hreported.symm⟩
  · obtain ⟨left, rfl⟩ : ∃ left, space = k + (left + 1) := ⟨space - k - 1, by omega⟩
    rw [h.value, h.reported]
    cases hr : gap'.reached with
    | true =>
      rw [scanIndices_reached hr]
      exact ⟨rfl, (List.append_nil _).symm⟩
    | false =>
      obtain ⟨hvalue, hissued⟩ := scanIndices_failed left scan' hr he
      rw [hvalue, hissued]
      exact ⟨rfl, by simp [events]⟩

/-- Whatever follows the single lookups behind a batch makes up, with the batch, all of them. -/
theorem Resumes.next {i k space : Nat} {gap gap' : GapLimit} {scan scan' : SchemeScan}
    {log' : List Call} {p : Scan SchemeScan}
    (h : Resumes answer t i k gap scan log gap' scan' log') (hk : k ≤ space)
    (hp : Follows answer p (scanIndices t (space - k) (i + k) gap' scan')) :
    Records (Truthful answer) (· = false) log' p fun a log'' =>
      a = (scanIndices t space i gap scan).value answer ∧
      events log'' = events log ++ events ((scanIndices t space i gap scan).issued answer) := by
  have hspace : k + (space - k) = space := by omega
  have hvalue := h.value (space - k)
  have hreported := h.reported (space - k)
  rw [hspace] at hvalue hreported
  refine (hp log').mono fun a log'' hend => ?_
  rw [hvalue, hreported]
  exact hend

/-! ## Where no lookup fails -/

section Lookups

variable {scan : SchemeScan} {seed : Seed} {scheme : PathScheme}
  (hlookup : ∀ address, ∃ utxos, answer (.listUtxos address) = .ok utxos)

include hlookup

/-- Going through a batch leads where the single lookups of its positions lead. -/
theorem scanBatch_resumes {i : Nat} {batch : List Position}
    (hbatch : Consecutive answer t i batch)
    (hnodup : (batch.map (·.derived.address)).Nodup) {view : Option BulkView}
    (hv : Sees answer view (batch.map (·.derived.address))) (gap : GapLimit) (scan : SchemeScan)
    (log : List Call) :
    Records (Truthful answer) (· = false) log (scanBatch t batch view gap scan) fun r log' =>
      Resumes answer t i batch.length gap scan log r.1 r.2 log' := by
  induction batch generalizing i view gap scan log with
  | nil => exact .done (.zero rfl)
  | cons p rest ih =>
    obtain ⟨hindex, hd, hrest⟩ := hbatch
    obtain ⟨hfresh, hnodup⟩ := List.nodup_cons.mp hnodup
    rw [scanBatch]
    cases hr : gap.reached with
    | true => exact .done (.reached hr)
    | false =>
      simp only [Bool.false_eq_true, ↓reduceIte]
      refine .bind (.isCancelled (Q := fun b log' => b = false ∧ log' = log)
        fun b hb => ⟨hb, rfl⟩) ?_
      rintro _ _ ⟨rfl, rfl⟩
      refine .bind (visit_follows p.derived.address scan _) ?_
      rintro scan₁ log₁ ⟨hscan₁, hlog₁⟩
      refine .bind (takeOrLookup_sees hv hfresh (hlookup _) scan₁) ?_
      rintro ⟨active, utxos, view⟩ log₂ ⟨hlog₂, hactive, hutxos, hv⟩
      refine .bind (recordFound_follows p.index p.derived utxos scan₁ log₂) ?_
      rintro scan₂ log₃ ⟨hscan₂, hlog₃⟩
      simp only [value_visit, issued_visit] at hscan₁ hlog₁
      simp only [value_recordFound, issued_recordFound] at hscan₂ hlog₃
      dsimp only at hactive hutxos hv
      subst hscan₁ hactive hutxos hscan₂
      rw [hindex] at hlog₃ ⊢
      refine (ih hrest hnodup hv _ _ log₃).mono fun r log' h => .pass hr hd ?_ h
      rw [events_passage (hlookup _), hlog₃, hlog₂, hlog₁, List.append_assoc]

/-- Batch after batch leads where single lookups lead. -/
theorem scanBatches_follows (hdistinct : Distinct answer t) {left start : Nat}
    (hleft : indexSpace ≤ start + left * batchSize) {gap : GapLimit}
    (hfailure : scan.failure = none) (hcancelled : scan.cancelled = false) :
    Follows answer (scanBatches t left start gap scan)
      (scanIndices t (indexSpace - start) start gap scan) := by
  induction left generalizing start gap scan with
  | zero =>
    rw [show indexSpace - start = 0 by omega]
    exact .done scan
  | succ left ih =>
    rw [scanBatches]
    cases hr : gap.reached with
    | true =>
      rw [scanIndices_reached hr]
      exact .done scan
    | false =>
      simp only [Bool.false_eq_true, ↓reduceIte]
      refine .look_bind fun log => ?_
      simp only [Bool.false_eq_true, ↓reduceIte]
      refine .bind (deriveBatch_consecutive start (min batchSize (indexSpace - start))) ?_
      rintro ⟨batch, failure⟩ log₁ ⟨hlog₁, hbatch, hend⟩
      dsimp only at hbatch hend ⊢
      by_cases hempty : batch.isEmpty
      · obtain rfl := List.isEmpty_iff.mp hempty
        have hzero : Resumes answer t start 0 gap scan log gap scan log₁ := .zero hlog₁
        have hlast := hzero.last hend (by decide) hfailure
        simp only [hr, Bool.false_eq_true, ↓reduceIte] at hlast
        exact .done hlast
      · have hpos : 0 < batch.length := List.length_pos_iff.mpr (by simpa using hempty)
        have hspace : start + batch.length ≤ indexSpace := by
          rcases hend with ⟨hk, -⟩ | ⟨hk, -⟩ <;> omega
        simp only [hempty, Bool.false_eq_true, ↓reduceIte]
        refine .bind (bulkLookup_shows (batch.map (·.derived.address))) ?_
        rintro view log₂ ⟨hlog₂, hshows⟩
        refine .bind (scanBatch_resumes hlookup hbatch (hbatch.nodup hdistinct hspace)
          (sees_toOption hshows) gap scan log₂) ?_
        rintro ⟨gap', scan'⟩ log₃ hres
        dsimp only at hres
        have hlog : events log₂ = events log := hlog₂.trans hlog₁
        have hgoing : scan'.cancelled = false := hres.cancelled.trans hcancelled
        simp only [hgoing, Bool.false_eq_true, ↓reduceIte]
        split
        · rename_i hshort
          have hlast := hres.last hend hshort hfailure
          rw [hlog, hgoing] at hlast
          exact .done hlast
        · -- A full batch: go on behind it.
          rename_i hfull
          have hlength : batch.length = batchSize := by
            rcases hend with ⟨hk, -⟩ | ⟨hk, -⟩ <;> omega
          have hrest : Follows answer (scanBatches t left (start + batchSize) gap' scan')
              (scanIndices t (indexSpace - start - batch.length) (start + batch.length) gap'
                scan') := by
            rw [hlength, Nat.sub_sub]
            rw [Nat.succ_mul] at hleft
            exact ih (by omega) (hres.failure.trans hfailure) hgoing
          have hnext := hres.next (by omega) hrest
          rw [hlog] at hnext
          exact hnext

theorem scanChain_follows (hdistinct : Distinct answer t) (s : Scanner) (gapLimit : UInt32)
    (hended : scan.ended = false) :
    Follows answer (s.scanChain t gapLimit scan) (scanIndividually t gapLimit scan) := by
  obtain ⟨hfailure, hcancelled⟩ := Bool.or_eq_false_iff.mp hended
  unfold Scanner.scanChain
  split
  · exact scanBatches_follows hlookup hdistinct (by decide) (by simpa using hfailure) hcancelled
  · exact scanIndices_follows _ _ _ _

theorem scanChains_follows (s : Scanner) {chains : List Chain}
    (hdistinct : ∀ chain ∈ chains, Distinct answer ⟨s.options, seed, scheme, chain⟩)
    (gapLimit : UInt32) (hended : scan.ended = false) :
    Follows answer (s.scanChains seed scheme gapLimit chains scan)
      ((⟨s.options, false⟩ : Scanner).scanChains seed scheme gapLimit chains scan) := by
  induction chains generalizing scan with
  | nil => exact .done scan
  | cons chain rest ih =>
    obtain ⟨hchain, hrest⟩ := List.forall_mem_cons.mp hdistinct
    have hsingle :
        (⟨s.options, false⟩ : Scanner).scanChain ⟨s.options, seed, scheme, chain⟩ gapLimit
        scan = scanIndividually ⟨s.options, seed, scheme, chain⟩ gapLimit scan := by
      simp [Scanner.scanChain, Scanner.usesBulk]
    refine .bind isCancelled_follows ?_
    simp only [Scan.value_isCancelled, Bool.false_eq_true, ↓reduceIte]
    rw [hsingle]
    refine .bind (scanChain_follows hlookup hchain s gapLimit hended) ?_
    split
    · exact .done _
    · rename_i hgoing
      exact ih hrest (by simpa using hgoing)

theorem scanScheme_follows (s : Scanner)
    (hdistinct : ∀ chain ∈ scheme.chains s.options.scanChangeAddresses,
      Distinct answer ⟨s.options, seed, scheme, chain⟩) (gapLimit : UInt32) (priorityIndex : Nat) :
    Follows answer (s.scanScheme seed scheme gapLimit priorityIndex)
      ((⟨s.options, false⟩ : Scanner).scanScheme seed scheme gapLimit priorityIndex) :=
  .bind (scanChains_follows hlookup s hdistinct gapLimit rfl) (.done _)

end Lookups

/-! ## The two strategies -/

/-- **Bulk queries agree with single lookups.** On a fixed chain state, and with a bulk backend that
tells it truthfully or fails, at any batch, the outcome of a scheme and its events do not depend on
whether the backend is attached. -/
theorem scanScheme_bulk_agrees {seed : Seed} {scheme : PathScheme} {env : Environment σ}
    (h : env.Answers (Truthful answer)) (hu : env.Uncancelled)
    (hlookup : ∀ address, ∃ utxos, answer (.listUtxos address) = .ok utxos)
    {options : ScanOptions} (hdistinct : ∀ chain ∈ scheme.chains options.scanChangeAddresses,
      Distinct answer ⟨options, seed, scheme, chain⟩)
    (gapLimit : UInt32) (priorityIndex : Nat) {w : World (σ × List Answered)}
    (hw : w.cancelled = false) :
    ∃ o wb wi,
      ((⟨options, true⟩ : Scanner).scanScheme seed scheme gapLimit priorityIndex).run
        env.logged.handler w = (.ok o, wb) ∧
      ((⟨options, false⟩ : Scanner).scanScheme seed scheme gapLimit priorityIndex).run
        env.logged.handler w = (.ok o, wi) ∧
      wb.events = wi.events := by
  obtain ⟨o, wb, hrb, -, hob, heb⟩ := h.run hu
    (scanScheme_follows hlookup ⟨options, true⟩ hdistinct gapLimit priorityIndex w.calls) hw
  obtain ⟨o', wi, hri, -, hoi, hei⟩ := h.run hu
    (scanScheme_follows hlookup ⟨options, false⟩ hdistinct gapLimit priorityIndex w.calls) hw
  obtain rfl : o = o' := hob.trans hoi.symm
  exact ⟨o, wb, wi, hrb, hri, heb.trans hei.symm⟩

/-- A ledger tells in bulk what it tells address by address. -/
theorem truthful_ledgerAnswer (utxos : String → List Utxo) :
    (Environment.ofAnswers (Environment.ledgerAnswer utxos)).Answers
      (Truthful (Environment.ledgerAnswer utxos)) := by
  intro c _
  refine ⟨Environment.ledgerAnswer utxos c, rfl, ?_⟩
  cases c with
  | checkActivity addresses =>
    rintro _ ⟨rfl⟩ address ha
    constructor
    · rintro ⟨x, hx, rfl, hactive⟩
      obtain ⟨a, -, rfl⟩ := List.mem_map.mp hx
      simpa [outputsAt, Environment.ledgerAnswer] using hactive
    · intro hheld
      refine ⟨_, List.mem_map_of_mem ha, rfl, ?_⟩
      simpa [outputsAt, Environment.ledgerAnswer] using hheld
  | fetchUtxos addresses =>
    rintro _ ⟨rfl⟩
    refine ⟨fun f hf => ?_, fun address ha => ⟨_, List.mem_map_of_mem ha, rfl⟩⟩
    obtain ⟨a, -, rfl⟩ := List.mem_map.mp hf
    rfl
  | _ => rfl

theorem distinct_ledgerAnswer (utxos : String → List Utxo) (t : Target) :
    Distinct (Environment.ledgerAnswer utxos) t := by
  have hlength {i : Nat} (hi : i < indexSpace) {d : DerivedAddress}
      (hd : t.derived (Environment.ledgerAnswer utxos) i = .ok d) : d.address.length = i := by
    have hd' : (Except.ok ⟨"".pushn 'a' (UInt32.ofNat i).toNat, "m"⟩ :
        Except DerivationError DerivedAddress) = .ok d := by
      rw [← hd, Target.derived, Target.derive]
      split <;> rfl
    obtain rfl := Except.ok.inj hd'
    rw [String.length_pushn, UInt32.toNat_ofNat_of_lt' hi]
    exact Nat.zero_add i
  intro i hi j hj d d' hd hd' haddress
  rw [← hlength hi hd, ← hlength hj hd', haddress]

/-- An output at index 25 of every chain, which is in the second batch. -/
def outputAt25 (address : String) : List Utxo :=
  if address = "aaaaaaaaaaaaaaaaaaaaaaaaa" then [⟨"t", 0, 5, address, 1⟩] else []

/-- Fetches fail; whatever else is asked, the ledger answers. -/
def unfetched : (c : Call) → c.Answer
  | .fetchUtxos _ => .error .timeout
  | c => Environment.ledgerAnswer outputAt25 c

theorem truthful_unfetched : (Environment.ofAnswers unfetched).Answers
    (Truthful (Environment.ledgerAnswer outputAt25)) := by
  intro c s
  cases c with
  | fetchUtxos addresses => exact ⟨.error .timeout, rfl, nofun⟩
  | checkActivity addresses => exact truthful_ledgerAnswer outputAt25 (.checkActivity addresses) s
  | _ => exact ⟨_, rfl, rfl⟩

/-- A gap of 26 reaches the second batch, whose fetch fails. The output is found either way, and the
observer is told the same. -/
theorem scanScheme_bulk_agrees_second_batch :
    let run (bulkAttached : Bool) := (Scanner.scanScheme ⟨{ ScanOptions.default with
        scanChangeAddresses := false, observed := true }, bulkAttached⟩ ⟨[7]⟩
        (.bip44 "wallet" 5 [0] 1) 26 0).run (Environment.ofAnswers unfetched).logged.handler
      ⟨((), []), false, 0⟩
    ∃ o wb wi, run true = (.ok o, wb) ∧ run false = (.ok o, wi) ∧ wb.events = wi.events ∧
      o.addresses.map (·.index) = [25] ∧ o.scanned = 52 ∧ wb.events.length = 53 ∧
      .fetchUtxos ["aaaaaaaaaaaaaaaaaaaaaaaaa"] ∈ wb.queries := by
  intro run
  obtain ⟨o, wb, wi, hrb, hri, hevents⟩ := scanScheme_bulk_agrees truthful_unfetched
    (Environment.uncancelled_ofAnswers unfetched) (fun _ => ⟨_, rfl⟩)
    (fun _ _ => distinct_ledgerAnswer outputAt25 _) 26 0 (w := ⟨((), []), false, 0⟩) rfl
  have hrb : run true = (.ok o, wb) := hrb
  have ho : (run true).1.map (fun o => (o.addresses.map (·.index), o.scanned)) =
      .ok ([25], 52) := by decide +kernel
  have hasked : (run true).2.events.length = 53 ∧
      .fetchUtxos ["aaaaaaaaaaaaaaaaaaaaaaaaa"] ∈ (run true).2.queries := by decide +kernel
  rw [hrb] at ho hasked
  obtain ⟨hfound, hscanned⟩ := Prod.mk.inj (Except.ok.inj ho)
  exact ⟨o, wb, wi, hrb, hri, hevents, hfound, hscanned, hasked⟩

end FundRecovery.Discovery
