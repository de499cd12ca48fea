import FundRecovery.Proofs.Discovery.ParallelScan
import FundRecovery.Proofs.Discovery.Truncation

/-!
# Parallel scans under cancellation

The token may be cancelled between any two moves of the workers, also between a worker's look at it
and its next job. With answers that depend on the calls alone, and a key deriver that never fails,
no outcome is lost and none is made up.

* `HandsOver`: a pool hands over one outcome for each of the first jobs. `runPool_handsOver`: so
  does every pool, under every schedule.
* `scanSchemesParallel_truncates`: the result is a part of what the scan would have found.
-/

namespace FundRecovery.Discovery

variable {σ : Type} {env : Environment σ} {answer : (c : Call) → c.Answer} {s : Scanner}
  {schemes : List PathScheme} {seed used : Seed}

/-! ## Pools -/

/-- The pool hands over one outcome for each of the jobs `first`, in their order and no others. They
are the first of `jobs`; each outcome is that of the whole scan, or of one that was cut short. -/
structure HandsOver (answer : (c : Call) → c.Answer) (scan : Job → Scan SchemeOutcome)
    (jobs first : List Job) (p : Pool) : Prop where
  failures : p.failures = []
  inOrder : first <+: jobs
  outcomes : CutOutcomes (first.map fun j => (scan j).value answer) p.sortedOutcomes

/-- Whatever the schedule, and whenever the token is cancelled, a pool hands over outcomes of the
first jobs. Unless it was cancelled, they are those of the whole scans of all jobs. -/
theorem runPool_handsOver (h : env.AnswersBy answer) (hd : Unfailing answer)
    (hmax : 0 < s.options.maxConcurrent) (schedule : List Nat) (schemes : List PathScheme)
    (used : Seed) (w : World σ) :
    ∃ p w' first, s.runPool env schedule schemes used w = (.ok p, w') ∧
      HandsOver answer (s.scanJob used) (s.jobs schemes) first p ∧
      (w'.cancelled = false → first = s.jobs schemes ∧
        p.sortedOutcomes = first.map fun j => (s.scanJob used j).value answer) := by
  rcases hrun : Pool.run env (s.scanJob used) (s.workerCount schemes.length) (s.jobs schemes)
    schedule w with ⟨p, w'⟩
  have hpool : s.runPool env schedule schemes used w = (.ok p, w') := by
    simp only [Scanner.runPool, hrun]
  have hscan (j : Job) : Gives (fun c a => a = answer c) (s.scanJob used j) fun o =>
      ((s.scanJob used j).value answer).Truncates o ∧ o.failure = none := scanScheme_truncates hd
  obtain ⟨hfail, first, hfirst, houtcomes, hall⟩ := Scanner.sortedOutcomes_runPool h hmax
    (fun ho => ho.1.priorityIndex.trans (value_scanScheme_priorityIndex ..))
    (S := fun j o => id o = (s.scanJob used j).value answer)
    (fun j _ => ⟨hscan j, steady_fixed_iff.mpr rfl⟩) schedule hpool
  refine ⟨p, w', first, hpool, ⟨hfail, hfirst, List.forall₂_map_left_iff.mpr
    (houtcomes.imp fun _ _ => And.left)⟩, fun hgoing => ?_⟩
  have hnever : w'.cancelled ≠ true := by simp [hgoing]
  refine ⟨hall.resolve_right hnever, ?_⟩
  rw [← List.map_id p.sortedOutcomes]
  exact map_eq_of_forall₂ (houtcomes.imp fun _ _ ho => ho.2.resolve_left hnever)

/-! ## Attempts -/

theorem Unfailing.value_seedFor (h : Unfailing answer) (seed : Seed) (passphrase : String) :
    ∃ used, (Scanner.seedFor seed passphrase).value answer = .ok used := by
  unfold Scanner.seedFor
  split
  · exact ⟨seed, rfl⟩
  · exact h.seed seed passphrase

theorem seedFor_uncut (log : List Call) (seed : Seed) (passphrase : String) :
    Uncut answer log (Scanner.seedFor seed passphrase) := by
  unfold Scanner.seedFor
  split
  · exact .done _
  · exact .call (.seedForPassphrase seed passphrase)

/-- One attempt of a parallel scan, from the run of its pool: outcomes in order, then failures. -/
theorem attemptParallel_of_pool {schedule : List Nat} {w₀ w₁ : World σ} {p : Pool}
    (hpool : s.runPool env schedule schemes used w₀ = (.ok p, w₁)) (passphrase : String) :
    s.attemptParallel env schedule schemes used passphrase w₀ =
      (.ok ((p.failures.foldl Attempt.recordFailure
          (Attempt.gathered passphrase p.sortedOutcomes)).noteToken
        (env.handler .isCancelled w₁).2.cancelled), (env.handler .isCancelled w₁).2) := by
  have hlook : Run.ofScan env isCancelled w₁ =
      (.ok (env.handler .isCancelled w₁).2.cancelled, (env.handler .isCancelled w₁).2) := rfl
  rw [Scanner.attemptParallel, Run.bind_of_ok hpool, Run.bind_of_ok hlook]
  rfl

/-- One attempt of a parallel scan in whose pool no worker crashed. -/
theorem attemptParallel_of_runPool {schedule : List Nat} {w₀ w₁ : World σ} {p : Pool}
    (hpool : s.runPool env schedule schemes used w₀ = (.ok p, w₁)) (hfail : p.failures = [])
    (passphrase : String) :
    s.attemptParallel env schedule schemes used passphrase w₀ =
      (.ok ((Attempt.gathered passphrase p.sortedOutcomes).noteToken
        (env.handler .isCancelled w₁).2.cancelled), (env.handler .isCancelled w₁).2) := by
  rw [attemptParallel_of_pool hpool, hfail]
  rfl

/-- The only attempt makes the result of a parallel scan. -/
theorem scanSchemesParallel_of_attempt (hready : s.checkReady seed schemes = .ok ())
    {schedules : Nat → List Nat} {passphrase : String}
    (hone : s.options.passphraseAttempts = [passphrase]) {w w₀ w' : World σ} {a : Attempt}
    (hseed : Run.ofScan env (Scanner.seedFor seed passphrase) w = (.ok (.ok used), w₀))
    (hattempt : s.attemptParallel env (schedules 1) (sortByPriority schemes) used passphrase w₀ =
      (.ok a, w')) :
    s.scanSchemesParallel env schedules seed schemes w = (.ok (.ok a.result), w') := by
  have hattempts : Attempts.run (m := Run σ) (fun p => Run.ofScan env (Scanner.seedFor seed p))
      (fun number => s.attemptParallel env (schedules number) (sortByPriority schemes))
      1 .none [passphrase] w = (.ok (Attempts.none.complete 1 a), w') := by
    rw [Attempts.run, Run.bind_of_ok hseed]
    refine (Run.bind_of_ok hattempt).trans ?_
    split <;> rfl
  rw [Scanner.scanSchemesParallel, hready, map_eq_pure_bind, Scanner.attemptsParallel, hone,
    bind_assoc]
  exact (Run.bind_of_ok hattempts).trans rfl

/-- **A parallel scan that is cancelled returns a part of what it would have found,** whatever the
schedule and whenever the token is cancelled, and says so. Its pool hands over one outcome for each
of the first schemes in order. If the token was never cancelled, that is the whole. -/
theorem scanSchemesParallel_truncates (h : env.AnswersBy answer) (hd : Unfailing answer)
    (hready : s.checkReady seed schemes = .ok ()) {passphrase : String}
    (hone : s.options.passphraseAttempts = [passphrase]) (schedules : Nat → List Nat)
    (w : World σ) :
    ∃ used w₀ p w₁ first result w' full wf,
      Run.ofScan env (Scanner.seedFor seed passphrase) w = (.ok (.ok used), w₀) ∧
      s.runPool env (schedules 1) (sortByPriority schemes) used w₀ = (.ok p, w₁) ∧
      s.scanSchemesParallel env schedules seed schemes w = (.ok (.ok result), w') ∧
      (s.scanSchemes seed schemes).run (Environment.ofAnswers answer).handler ⟨(), false, 0⟩ =
        (.ok (.ok full), wf) ∧
      HandsOver answer (s.scanJob used) (s.jobs (sortByPriority schemes)) first p ∧
      result.schemesScanned = first.map (·.scheme.name) ∧ full.Truncates result ∧
      (result.cancelled = false ∨ w'.cancelled = false →
        first = s.jobs (sortByPriority schemes) ∧
        p.sortedOutcomes = first.map (fun j => (s.scanJob used j).value answer) ∧
        result = full) := by
  obtain ⟨used, hused⟩ := hd.value_seedFor seed passphrase
  obtain ⟨r, w₀, -, hseed, hr⟩ := Program.Ensures.run_answers
    (seedFor_uncut [] seed passphrase).gives h.handler_answers w
  obtain rfl : r = .ok used := (hr.resolve_right id).trans hused
  obtain ⟨p, w₁, first, hpool, hover, hwhole⟩ := runPool_handsOver h hd
    (Scanner.ready_maxConcurrent hready) (schedules 1) (sortByPriority schemes) used w₀
  have hnames := Scanner.nodup_sorted hready
  have hattempt := attemptParallel_of_runPool hpool hover.failures passphrase
  have hrun := scanSchemesParallel_of_attempt hready hone hseed hattempt
  obtain ⟨wf, hfull⟩ := (Environment.answersBy_ofAnswers answer).run_value
    (Environment.uncancelled_ofAnswers answer) (s.scanSchemes seed schemes)
    (w := ⟨(), false, 0⟩) rfl
  rw [value_scanSchemes hready hone hused] at hfull
  refine ⟨used, w₀, p, w₁, first, _, _, _, wf, hseed, hpool, hrun, hfull, hover, ?_,
    hover.outcomes.truncates_whole hd hnames hover.inOrder passphrase _, fun hgoing => ?_⟩
  · have hscanned : ((Attempt.gathered passphrase p.sortedOutcomes).noteToken
        (env.handler .isCancelled w₁).2.cancelled).result.schemesScanned =
          p.sortedOutcomes.map (·.schemeName) := Attempt.schemesScanned_gathered
    rw [hscanned, hover.outcomes.map_schemeName_first hd]
  · -- The last look leaves its mark on the result.
    have hlook : (env.handler .isCancelled w₁).2.cancelled = false := by
      refine hgoing.elim (fun hresult => ?_) id
      exact (Bool.or_eq_false_iff.mp (show (_ || _) = false from hresult)).2
    obtain ⟨hall, houtcomes⟩ := hwhole (Environment.going_of_handler hlook)
    exact ⟨hall, houtcomes, by rw [hlook, houtcomes, hall, wholeAttempt]⟩

/-- Outcomes that arrive in priority order are sorted. -/
theorem sortedOutcomes_of_ascending {p : Pool}
    (h : (p.outcomes.map (·.priorityIndex)).Pairwise (· ≤ ·)) : p.sortedOutcomes = p.outcomes :=
  List.mergeSort_of_pairwise ((List.pairwise_map.mp h).imp decide_eq_true)

/-- Three workers on the registry that move in turn. There are 5000 satoshis at index 1 of each
chain, and the token is cancelled in the course of the eleventh call, which lists them for the
second scheme: the first three schemes are stopped behind what they found. -/
theorem scanSchemesParallel_truncates_registry :
    let answer := Environment.ledgerAnswer fun address =>
      if address = "a" then [⟨"t", 0, 5000, "a", 1⟩] else []
    let s : Scanner := ⟨{ ScanOptions.default with
      gapLimit := 2, extendedGapLimit := 2, scanChangeAddresses := false, maxConcurrent := 3 },
      false⟩
    ∃ result w' full wf,
      s.scanSchemesParallel (.cancelling answer 11) (fun _ => (List.range 48).map (· % 3)) ⟨[7]⟩
        registry ⟨0, false, 0⟩ = (.ok (.ok result), w') ∧
      (s.scanSchemes ⟨[7]⟩ registry).run (Environment.ofAnswers answer).handler ⟨(), false, 0⟩ =
        (.ok (.ok full), wf) ∧ full.Truncates result ∧
      result.schemesScanned =
        ["bip44", "bip44-bitcoin-coin-type", "bip44-testnet-coin-type"] ∧
      result.totalBalance = 15000 ∧ full.totalBalance = 40000 := by
  intro answer s
  have hready : s.checkReady ⟨[7]⟩ registry = .ok () := by decide
  have hone : s.options.passphraseAttempts = [""] := by decide
  obtain ⟨used, w₀, p, w₁, first, result, w', full, wf, hseed, hpool, hrun, hfull, -, -, hcut, -⟩ :=
    scanSchemesParallel_truncates (Environment.answersBy_cancelling answer 11)
      (unfailing_ledgerAnswer _) hready hone (fun _ => (List.range 48).map (· % 3)) ⟨0, false, 0⟩
  obtain ⟨⟨rfl⟩, rfl⟩ := Prod.mk.inj hseed
  rw [sortByPriority_registry] at hpool
  -- What the pool hands over, and what an attempt makes of it.
  have hhanded : (s.runPool (.cancelling answer 11) ((List.range 48).map (· % 3)) registry ⟨[7]⟩
      ⟨0, false, 0⟩).1.map (fun p => (p.failures, p.outcomes.map (·.priorityIndex),
        (Attempt.gathered "" p.outcomes).schemesScanned,
        (Attempt.gathered "" p.outcomes).result.totalBalance)) = .ok ([], [0, 1, 2],
          ["bip44", "bip44-bitcoin-coin-type", "bip44-testnet-coin-type"], 15000) := by
    decide +kernel
  have hhanded := eq_of_ok_map hpool hhanded
  obtain ⟨hfailures, hrest⟩ := Prod.mk.inj hhanded
  obtain ⟨hindices, hrest⟩ := Prod.mk.inj hrest
  obtain ⟨hscanned, htotal⟩ := Prod.mk.inj hrest
  have hsorted : p.sortedOutcomes = p.outcomes :=
    sortedOutcomes_of_ascending (by rw [hindices]; decide)
  have hattempt := attemptParallel_of_runPool hpool hfailures ""
  rw [← sortByPriority_registry, hsorted] at hattempt
  have hresult := hrun.symm.trans (scanSchemesParallel_of_attempt hready hone hseed hattempt)
  obtain rfl := Except.ok.inj (Except.ok.inj (Prod.mk.inj hresult).1)
  have htotal' : ((s.scanSchemes ⟨[7]⟩ registry).run (Environment.ofAnswers answer).handler
      ⟨(), false, 0⟩).1.map (·.map (·.totalBalance)) = .ok (.ok 40000) := by
    rw [Scanner.scanSchemes, Scanner.attempts, sortByPriority_registry]
    decide +kernel
  exact ⟨_, w', full, wf, hrun, hfull, hcut, hscanned, htotal, eq_of_result_map hfull htotal'⟩

end FundRecovery.Discovery
