import FundRecovery.Proofs.Discovery.LateCalls
import FundRecovery.Proofs.Discovery.ParallelTruncation
import FundRecovery.Proofs.Discovery.WorkerCrashes

/-!
# Parallel scans whose workers crash

The result of a parallel scan has every scheme that its workers reach and whose scan does not crash,
as a scan in order would have it, and a failure for each crash. Schemes that are queued when the
last worker crashes are in no list of the result, and no failure tells of them.

* `SchemeOutcome.errors`: the failures an attempt has are those of its outcomes.
* `Attempt.get?_gathered_part`, `Attempt.errors_gathered_part`: outcomes of some of the schemes make
  what they make of the whole.
* `Isolates`: a result in which a crash is that of one scheme. `scanSchemesParallel_isolates`: so is
  the result of a parallel scan, up to the schemes that no worker was left for.
-/

namespace FundRecovery.Discovery

variable {σ : Type} {env : Environment σ} {fails : Call → Option Crash}
  {answer : (c : Call) → c.Answer} {s : Scanner} {schemes : List PathScheme} {seed used : Seed}

/-! ## Outcomes of some of the schemes -/

/-- A part of a list is what it selects by keys that do not repeat. -/
theorem filter_mem_part {α β : Type} [DecidableEq β] {key : α → β} {part whole : List α}
    (h : part.Sublist whole) (hn : (whole.map key).Nodup) :
    whole.filter (fun a => decide (key a ∈ part.map key)) = part := by
  induction h with
  | slnil => rfl
  | @cons part whole a hsub ih =>
    obtain ⟨hfresh, hn⟩ := List.nodup_cons.mp (List.map_cons ▸ hn)
    have hnot : key a ∉ part.map key := fun hmem => hfresh ((hsub.map key).subset hmem)
    rw [List.filter_cons_of_neg (by simpa using hnot), ih hn]
  | @cons_cons part whole a hsub ih =>
    obtain ⟨hfresh, hn⟩ := List.nodup_cons.mp (List.map_cons ▸ hn)
    have hothers : whole.filter (fun b => decide (key b ∈ (a :: part).map key)) =
        whole.filter fun b => decide (key b ∈ part.map key) := by
      refine List.filter_congr fun b hb => ?_
      have hne : key b ≠ key a := fun he => hfresh (he ▸ List.mem_map_of_mem hb)
      simp [hne]
    rw [List.filter_cons_of_pos (by simp), hothers, ih hn]

/-- The failure that an outcome leaves, if its scan failed. -/
def SchemeOutcome.error? (o : SchemeOutcome) : Option ScanFailure :=
  o.failure.map fun failure => .forScheme o.schemeName failure.message

namespace Attempt

variable {part whole outcomes : List SchemeOutcome} {passphrase : String}

theorem errors_absorb (a : Attempt) (o : SchemeOutcome) :
    (a.absorb o).errors = a.errors ++ o.error?.toList := by
  unfold absorb SchemeOutcome.error?
  dsimp only
  cases o.failure with
  | some failure => rfl
  | none => dsimp only; split <;> simp

theorem errors_gathered (passphrase : String) (outcomes : List SchemeOutcome) :
    (gathered passphrase outcomes).errors = outcomes.filterMap (·.error?) := by
  have hfold (a : Attempt) :
      (outcomes.foldl absorb a).errors = a.errors ++ outcomes.filterMap (·.error?) := by
    induction outcomes generalizing a with
    | nil => simp
    | cons o rest ih =>
      rw [List.foldl_cons, ih, errors_absorb, List.filterMap_cons, List.append_assoc]
      cases o.error? <;> rfl
  exact (hfold _).trans (List.nil_append _)

theorem cancelled_gathered (passphrase : String) (h : ∀ o ∈ outcomes, o.cancelled = false) :
    (gathered passphrase outcomes).cancelled = false := by
  have hfold (a : Attempt) : (outcomes.foldl absorb a).cancelled = a.cancelled := by
    induction outcomes generalizing a with
    | nil => rfl
    | cons o rest ih =>
      obtain ⟨ho, hrest⟩ := List.forall_mem_cons.mp h
      rw [List.foldl_cons, ih hrest, cancelled_absorb, ho, Bool.or_false]
  exact hfold _

@[simp] theorem noteToken_false (a : Attempt) : a.noteToken false = a := by
  rw [noteToken, Bool.or_false]

theorem errors_result {a : Attempt} (h : a.cancelled = false) : a.result.errors = a.errors :=
  if_neg (by rw [h]; exact Bool.false_ne_true)

/-- Failures of workers change nothing of a result but that they are added to its failures. -/
theorem result_recorded {a : Attempt} (h : a.cancelled = false) (failures : List ScanFailure) :
    (failures.foldl recordFailure a).result =
      { a.result with errors := a.result.errors ++ failures } := by
  rw [foldl_recordFailure, errors_result h]
  simp only [result, h]
  rfl

section Part

variable (h : part.Sublist whole) (hn : (whole.map (·.schemeName)).Nodup)

include h hn

/-- A scheme of the part has the entry it has in the whole. -/
theorem get?_gathered_part {name : String} (hname : name ∈ part.map (·.schemeName)) :
    (gathered passphrase part).foundAddresses.get? name =
      (gathered passphrase whole).foundAddresses.get? name := by
  obtain ⟨o, ho, rfl⟩ := List.mem_map.mp hname
  rw [get?_gathered (hn.sublist (h.map _)) ho, get?_gathered hn (h.subset ho)]

/-- The failures of the part are those that the whole has of its schemes. -/
theorem errors_gathered_part :
    (gathered passphrase part).errors = (gathered passphrase whole).errors.filter fun f =>
      f.scheme.any fun name => decide (name ∈ part.map (·.schemeName)) := by
  conv_lhs => rw [← filter_mem_part h hn]
  rw [errors_gathered, errors_gathered, List.filter_filterMap, List.filterMap_filter]
  refine List.filterMap_congr fun o _ => ?_
  unfold SchemeOutcome.error?
  cases o.failure with
  | none => simp
  | some failure => simp [ScanFailure.forScheme, Option.filter_some]

end Part

end Attempt

/-! ## Results -/

/-- The scan of a job never finds the token cancelled. -/
theorem value_scanJob_cancelled (s : Scanner) (used : Seed) (j : Job) :
    ((s.scanJob used j).value answer).cancelled = false := by
  have hheeds : Heeds (fun c a => a = answer c) (fun _ => True) [] (s.scanJob used j) fun o log =>
      o.cancelled = false ∧ Brief (probes log) := scanScheme_heeds j.gapLimit j.priorityIndex .idle
  obtain ⟨-, hcancelled, -⟩ := hheeds.value
  exact hcancelled

/-- The crash that the scan of a job runs into, if it does. -/
def Scanner.crashOf (s : Scanner) (fails : Call → Option Crash) (answer : (c : Call) → c.Answer)
    (used : Seed) (j : Job) : Option Crash :=
  (s.scanJob used j).crash? fails answer

/-- The jobs that the workers of a scan get to, schemes given in priority order. -/
def Scanner.reached (s : Scanner) (fails : Call → Option Crash) (answer : (c : Call) → c.Answer)
    (used : Seed) (schemes : List PathScheme) : List Job :=
  Pool.reached (fun j => (s.crashOf fails answer used j).isSome) (s.workerCount schemes.length)
    (s.jobs schemes)

/-- The result `r` of a scan of the jobs `first`, some of which crash: it has the schemes of the
others, with what the whole result `full` has of them, and a failure for each crash. -/
structure Isolates (env : Environment σ) (crash? : Job → Option Crash) (first : List Job)
    (full r : ScanResult) : Prop where
  schemesScanned : r.schemesScanned =
    (first.filter fun j => (crash? j).isNone).map (·.scheme.name)
  found : ∀ name ∈ r.schemesScanned, r.foundAddresses.get? name = full.foundAddresses.get? name
  nothingElse : ∀ name ∉ r.schemesScanned, r.foundAddresses.get? name = none
  errors : ∃ crashed failures, crashed.Perm (first.filter fun j => (crash? j).isSome) ∧
    List.Forall₂ (fun j f => ∃ task e, crash? j = some e ∧ .failure f = Delivery.crashed env task e)
      crashed failures ∧
    r.errors = (full.errors.filter fun f =>
      f.scheme.any fun name => decide (name ∈ r.schemesScanned)) ++ failures
  cancelled : r.cancelled = false

/-- A pool that survives its crashes makes such a result. -/
theorem isolates_of_survives {first : List Job} {p : Pool} (passphrase : String)
    (hp : Pool.Survives env (s.crashOf fails answer used)
      (fun j => (s.scanJob used j).value answer) first p)
    (hfirst : first <+: s.jobs schemes) (hn : (schemes.map (·.name)).Nodup) :
    Isolates env (s.crashOf fails answer used) first
      ((wholeAttempt answer s schemes used passphrase).noteToken false).result
      ((p.failures.foldl Attempt.recordFailure
        (.gathered passphrase p.sortedOutcomes)).noteToken false).result := by
  let whole := (s.jobs schemes).map fun j => (s.scanJob used j).value answer
  have hsub : p.sortedOutcomes.Sublist whole := by
    rw [hp.outcomes]
    exact (List.filter_sublist.trans hfirst.sublist).map _
  have hnames (jobs : List Job) : (jobs.map fun j => (s.scanJob used j).value answer).map
      (·.schemeName) = jobs.map (·.scheme.name) := by
    rw [List.map_map]
    exact List.map_congr_left fun j _ => value_scanJob_schemeName s used j
  have hn' : (whole.map (·.schemeName)).Nodup := by rwa [hnames, Scanner.map_name_jobs]
  have hgoing : ∀ o ∈ whole, o.cancelled = false := by
    intro o ho
    obtain ⟨j, -, rfl⟩ := List.mem_map.mp ho
    exact value_scanJob_cancelled s used j
  have hgathered := Attempt.cancelled_gathered passphrase fun o ho => hgoing o (hsub.subset ho)
  have hscanned : (Attempt.gathered passphrase p.sortedOutcomes).result.schemesScanned =
      p.sortedOutcomes.map (·.schemeName) := Attempt.schemesScanned_gathered
  have herrors : (Attempt.gathered passphrase whole).result.errors =
      (Attempt.gathered passphrase whole).errors :=
    Attempt.errors_result (Attempt.cancelled_gathered passphrase hgoing)
  rw [Attempt.noteToken_false, Attempt.noteToken_false, Attempt.result_recorded hgathered]
  obtain ⟨crashed, hcrashed, hfailures⟩ := hp.failures
  constructor
  case schemesScanned => rw [hscanned, hp.outcomes, hnames]
  case found =>
    rw [hscanned]
    exact fun name => Attempt.get?_gathered_part hsub hn'
  case nothingElse =>
    rw [hscanned]
    exact fun name => Attempt.get?_foldl_absorb_of_not_mem
  case errors =>
    refine ⟨crashed, p.failures, hcrashed, hfailures, congrArg (· ++ p.failures) ?_⟩
    rw [Attempt.errors_result hgathered, Attempt.errors_gathered_part hsub hn', hscanned, ← herrors]
    rfl
  case cancelled => exact hgathered

/-! ## Parallel scans -/

/-- A pool of workers reaches the same schemes under every schedule. -/
theorem runPool_survives (h : env.AnswersUnless fails answer) (hu : env.Uncancelled)
    (schedule : List Nat) (schemes : List PathScheme) (used : Seed) {w : World σ}
    (hw : w.cancelled = false) :
    ∃ p w', s.runPool env schedule schemes used w = (.ok p, w') ∧ w'.cancelled = false ∧
      Pool.Survives env (s.crashOf fails answer used) (fun j => (s.scanJob used j).value answer)
        (s.reached fails answer used schemes) p := by
  obtain ⟨p, w', hrun, hw', hsurvives⟩ := Pool.run_crashing h hu (s.scanJob used)
    (s.jobs schemes)
    (fun j _ => value_scanScheme_priorityIndex s used j.scheme j.gapLimit j.priorityIndex)
    (Scanner.pairwise_jobsFrom 0) (s.workerCount schemes.length) schedule hw
  exact ⟨p, w', by simp only [Scanner.runPool, hrun], hw', hsurvives⟩

/-- **A crash costs the scheme that is scanned, and a worker.** Whatever the schedule, a parallel
scan in which calls crash or are answered, by the calls alone, has of the schemes that its workers
reach what a scan in order has, with any answers to the calls that crash, and a failure for each
crash. If fewer scans crash than there are workers, all schemes are reached. -/
theorem scanSchemesParallel_isolates (h : env.AnswersUnless fails answer) (hu : env.Uncancelled)
    (hready : s.checkReady seed schemes = .ok ()) {passphrase : String}
    (hone : s.options.passphraseAttempts = [passphrase]) (schedules : Nat → List Nat)
    {w w₀ : World σ} (hw : w.cancelled = false)
    (hseed : Run.ofScan env (Scanner.seedFor seed passphrase) w = (.ok (.ok used), w₀)) :
    ∃ result w' full wf,
      s.scanSchemesParallel env schedules seed schemes w = (.ok (.ok result), w') ∧
      (s.scanSchemes seed schemes).run (Environment.ofAnswers answer).handler ⟨(), false, 0⟩ =
        (.ok (.ok full), wf) ∧
      Isolates env (s.crashOf fails answer used)
        (s.reached fails answer used (sortByPriority schemes)) full result ∧
      ((s.jobs (sortByPriority schemes)).countP (fun j => (s.crashOf fails answer used j).isSome) <
          s.workerCount schemes.length →
        s.reached fails answer used (sortByPriority schemes) =
          s.jobs (sortByPriority schemes)) := by
  obtain ⟨w₁, hrun, hw₁⟩ := h.run hu (Scanner.seedFor seed passphrase) hw
  obtain ⟨hend, rfl⟩ := Prod.mk.inj (hrun.symm.trans hseed)
  have hused : (Scanner.seedFor seed passphrase).value answer = .ok used := by
    cases hcrash : (Scanner.seedFor seed passphrase).crash? fails answer with
    | some e => simp [hcrash] at hend
    | none => simpa [hcrash] using hend
  obtain ⟨p, w₂, hpool, hw₂, hsurvives⟩ :=
    runPool_survives h hu (schedules 1) (sortByPriority schemes) used hw₁
  have hlook : (env.handler .isCancelled w₂).2.cancelled = false := by
    obtain ⟨w₃, hlook, hw₃⟩ := h.handler hu .isCancelled hw₂
    rwa [hlook]
  have hattempt := attemptParallel_of_pool hpool passphrase
  rw [hlook] at hattempt
  obtain ⟨wf, hfull⟩ := (Environment.answersBy_ofAnswers answer).run_value
    (Environment.uncancelled_ofAnswers answer) (s.scanSchemes seed schemes)
    (w := ⟨(), false, 0⟩) rfl
  rw [value_scanSchemes hready hone hused] at hfull
  refine ⟨_, _, _, wf, scanSchemesParallel_of_attempt hready hone hseed hattempt, hfull, ?_, ?_⟩
  · exact isolates_of_survives passphrase hsurvives (Pool.reached_isPrefix _)
      (Scanner.nodup_sorted hready)
  · intro hfew
    have hlength : (sortByPriority schemes).length = schemes.length := List.length_mergeSort _
    rw [← hlength] at hfew
    exact Pool.reached_eq_self hfew

/-- The deriver crashes on keys of coin type 1. -/
def missingCoin : Call → Option Crash
  | .deriveAddress _ coinType _ _ _ => if coinType = 1 then some ⟨"no coin"⟩ else none
  | _ => none

/-- 5000 satoshis at index 1 of every chain. -/
def coinLedger : (c : Call) → c.Answer :=
  Environment.ledgerAnswer fun address => if address = "a" then [⟨"t", 0, 5000, "a", 1⟩] else []

/-- Two schemes; the keys of the first are missing. -/
def twoCoins : List PathScheme := [.bip44 "first" 1 [0] 0, .bip44 "second" 5 [0] 1]

theorem sortByPriority_twoCoins : sortByPriority twoCoins = twoCoins :=
  List.mergeSort_of_pairwise (by decide)

/-- A scanner with so many workers. -/
def coinScanner (workers : Nat) : Scanner :=
  ⟨{ ScanOptions.default with
    gapLimit := 2, scanChangeAddresses := false, maxConcurrent := workers }, false⟩

/-- With two workers the second scheme is scanned after the crash of the first. -/
theorem scanSchemesParallel_isolates_two_workers :
    ∃ result w' full wf,
      (coinScanner 2).scanSchemesParallel (.crashing missingCoin coinLedger)
        (fun _ => [0, 0, 0, 1]) ⟨[7]⟩ twoCoins ⟨(), false, 0⟩ = (.ok (.ok result), w') ∧
      ((coinScanner 2).scanSchemes ⟨[7]⟩ twoCoins).run (Environment.ofAnswers coinLedger).handler
        ⟨(), false, 0⟩ = (.ok (.ok full), wf) ∧
      result.schemesScanned = ["second"] ∧
      result.foundAddresses.get? "second" = full.foundAddresses.get? "second" := by
  have hready : (coinScanner 2).checkReady ⟨[7]⟩ twoCoins = .ok () := by decide
  have hone : (coinScanner 2).options.passphraseAttempts = [""] := by decide
  have hseed : Run.ofScan (.crashing missingCoin coinLedger) (Scanner.seedFor ⟨[7]⟩ "")
      ⟨(), false, 0⟩ = (.ok (.ok ⟨[7]⟩), ⟨(), false, 0⟩) := rfl
  obtain ⟨result, w', full, wf, hrun, hfull, hisolates, -⟩ :=
    scanSchemesParallel_isolates Environment.answersUnless_crashing
      Environment.uncancelled_crashing hready hone (fun _ => [0, 0, 0, 1]) rfl hseed
  have hscanned : result.schemesScanned = ["second"] := by
    rw [hisolates.schemesScanned, sortByPriority_twoCoins]
    decide +kernel
  refine ⟨result, w', full, wf, hrun, hfull, hscanned, ?_⟩
  exact hisolates.found "second" (by rw [hscanned]; exact List.mem_singleton_self _)

/-- With one worker the second scheme is lost. Its funds are there, and a scan of it finds them, but
the crash of the first takes the worker, and the only failure tells of that. -/
theorem scanSchemesParallel_loses_schemes :
    ∃ result w' o w'',
      (coinScanner 1).scanSchemesParallel (.crashing missingCoin coinLedger) (fun _ => []) ⟨[7]⟩
        twoCoins ⟨(), false, 0⟩ = (.ok (.ok result), w') ∧
      result.schemesScanned = [] ∧ result.cancelled = false ∧
      result.errors = [.general "scan worker failed: no coin"] ∧
      ((coinScanner 1).scanScheme ⟨[7]⟩ (.bip44 "second" 5 [0] 1) 2 1).run
        (Environment.crashing missingCoin coinLedger).handler ⟨(), false, 0⟩ = (.ok o, w'') ∧
      o.balance = 5000 := by
  have hready : (coinScanner 1).checkReady ⟨[7]⟩ twoCoins = .ok () := by decide
  have hone : (coinScanner 1).options.passphraseAttempts = [""] := by decide
  have hseed : Run.ofScan (.crashing missingCoin coinLedger) (Scanner.seedFor ⟨[7]⟩ "")
      ⟨(), false, 0⟩ = (.ok (.ok ⟨[7]⟩), ⟨(), false, 0⟩) := rfl
  let lost : Attempt := { Attempt.start "" with
    errors := [.general "scan worker failed: no coin"] }
  have hattempt : (coinScanner 1).attemptParallel (.crashing missingCoin coinLedger) []
      (sortByPriority twoCoins) ⟨[7]⟩ "" ⟨(), false, 0⟩ = (.ok lost, ⟨(), false, 1⟩) := by
    rw [sortByPriority_twoCoins]
    show (_ : Except Crash Attempt × World Unit) = _
    decide +kernel
  have hrun : (coinScanner 1).scanSchemesParallel (.crashing missingCoin coinLedger)
      (fun _ => []) ⟨[7]⟩ twoCoins ⟨(), false, 0⟩ = (.ok (.ok lost.result), ⟨(), false, 1⟩) :=
    scanSchemesParallel_of_attempt hready hone hseed hattempt
  have hfound : (((coinScanner 1).scanScheme ⟨[7]⟩ (.bip44 "second" 5 [0] 1) 2 1).run
      (Environment.crashing missingCoin coinLedger).handler ⟨(), false, 0⟩).1.map (·.balance) =
        .ok 5000 := by decide +kernel
  obtain ⟨o, w'', hscan, hbalance⟩ := exists_ok_of_map hfound
  exact ⟨lost.result, _, o, w'', hrun, rfl, rfl, rfl, hscan, hbalance⟩

end FundRecovery.Discovery
