import FundRecovery.Proofs.Discovery.ParallelTruncation
import FundRecovery.Proofs.Discovery.Provenance

/-!
# A single worker scans in order

With one worker there is nothing to interleave. Under every schedule it makes the calls of a scan in
order, one by one, also where collaborators keep states and fail, and where a call cancels the
token.

* `Pool.run_single`: whatever the schedule, the worker goes through the queue to its end.
* `Environment.CancelsInCalls`: nobody cancels the token between two calls. `drain_scanInOrder`:
  then the way through the queue is that of the schemes in order.
* `Run.Retraces`: a run makes the calls of a program and ends as it does. `retraces_attempt`: so
  does an attempt with one worker.
* `scanSchemesParallel_single`: with a single worker both ways to scan are one.
-/

namespace FundRecovery.Discovery

variable {σ α β : Type} {env : Environment σ}

/-! ## Schedules of one worker -/

namespace Pool

variable {scan : Job → Scan SchemeOutcome} {task : Nat} {p : Pool} {w : World σ}

/-- A worker that has halted stays where it is. -/
theorem moves_halted {x : Stance σ} (h : x.1.Halted) (k : Nat) : moves env scan task k x = x := by
  obtain ⟨x, queue, deliveries, w⟩ := x
  have hmove : move env scan task x queue deliveries w = (x, queue, deliveries, w) := by
    cases x <;> first | rfl | exact h.elim
  induction k with
  | zero => rfl
  | succ k ih => rw [moves, hmove, ih]

/-- A worker comes to one end only. -/
theorem Leads.end_unique {x y z : Stance σ} (hy : Leads env scan task x y)
    (hz : Leads env scan task x z) (hhy : y.1.Halted) (hhz : z.1.Halted) : y = z := by
  obtain ⟨j, rfl⟩ := hy
  obtain ⟨k, rfl⟩ := hz
  rcases Nat.le_total j k with h | h
  · obtain ⟨d, rfl⟩ := Nat.exists_eq_add_of_le h
    rw [moves_add, moves_halted hhy]
  · obtain ⟨d, rfl⟩ := Nat.exists_eq_add_of_le h
    rw [moves_add, moves_halted hhz]

/-- Where nobody works, nothing happens. -/
theorem drive_idle (hp : p.workers = []) (schedule : List Nat) :
    drive env scan schedule (p, w) = (p, w) := by
  induction schedule with
  | nil => rfl
  | cons i schedule ih =>
    have hstep : step env scan i (p, w) = (p, w) := by simp [step, hp]
    rw [drive, List.foldl_cons, hstep]
    exact ih

/-- The moves of a schedule are moves of the only worker; other numbers move nobody. -/
theorem drive_single {x : Worker} (hx : p.workers = [x]) (schedule : List Nat) :
    ∃ y, Leads env scan p.firstTask (x, p.queue, p.deliveries, w) y ∧
      drive env scan schedule (p, w) = withStance p 0 y := by
  induction schedule generalizing p w x with
  | nil =>
    refine ⟨_, .refl _, ?_⟩
    rw [withStance, hx, List.set_cons_zero, ← hx]
    rfl
  | cons i schedule ih =>
    rw [drive, List.foldl_cons]
    cases i with
    | zero =>
      have hfirst : p.workers[0]? = some x := by rw [hx]; rfl
      rw [step_eq hfirst]
      rcases hm : move env scan p.firstTask x p.queue p.deliveries w with
        ⟨x', queue, deliveries, w'⟩
      obtain ⟨y, hy, hdrive⟩ := ih (x := x') (w := w')
        (p := { p with queue, workers := p.workers.set 0 x', deliveries }) (by rw [hx]; rfl)
      refine ⟨y, (Leads.move hm).trans hy, ?_⟩
      refine hdrive.trans ?_
      simp only [withStance, List.set_set]
    | succ i =>
      have hstep : step env scan (i + 1) (p, w) = (p, w) := by simp [step, hx]
      rw [hstep]
      exact ih hx

/-- **Whatever the schedule, a single worker goes through the queue to its end.** -/
theorem run_single (env : Environment σ) (scan : Job → Scan SchemeOutcome) (jobs : List Job)
    (schedule : List Nat) (w : World σ) :
    run env scan 1 jobs schedule w = withStance (opening 1 jobs w).1 0
      (drain env scan (w.tasks + 1) [] (opening 1 jobs w).2 jobs) := by
  obtain ⟨rest, hrun⟩ := run_eq_drive env scan 1 jobs schedule w
  have hhalted := halted_run env scan 1 jobs schedule w
  obtain ⟨y, hy, hdrive⟩ := drive_single (p := (opening 1 jobs w).1) (w := (opening 1 jobs w).2)
    (x := .ready) rfl (schedule ++ rest)
  have hend : run env scan 1 jobs schedule w = withStance (opening 1 jobs w).1 0 y :=
    hrun.trans hdrive
  rw [hend] at hhalted
  have hyh : y.1.Halted := hhalted y.1 List.mem_cons_self
  rw [hend, hy.end_unique (leads_drain jobs [] (opening 1 jobs w).2) hyh (halted_drain ..)]
  rfl

/-- Without jobs and workers, a run ends as it begins. -/
theorem run_idle (env : Environment σ) (scan : Job → Scan SchemeOutcome) (schedule : List Nat)
    (w : World σ) : run env scan 0 [] schedule w = opening 0 [] w := by
  obtain ⟨rest, hrun⟩ := run_eq_drive env scan 0 [] schedule w
  rw [hrun]
  exact drive_idle rfl _

end Pool

/-! ## The way through the queue -/

/-- The token is cancelled in the course of calls alone, if at all. -/
def Environment.CancelsInCalls (env : Environment σ) : Prop := ∀ s, env.interrupt s = (false, s)

namespace Environment.CancelsInCalls

theorem logged (h : env.CancelsInCalls) : env.logged.CancelsInCalls := fun s => by
  simp only [Environment.logged, h s.1]

/-- A look changes nothing. -/
theorem look (h : env.CancelsInCalls) (w : World σ) :
    env.handler .isCancelled w = (.ok w.cancelled, w) := by
  simp [Environment.handler, h w.state]

end Environment.CancelsInCalls

/-- Programs do not see how many tasks were started. -/
theorem run_tasks (p : Scan α) (w : World σ) (tasks : Nat) :
    p.run env.handler { w with tasks } =
      ((p.run env.handler w).1, { (p.run env.handler w).2 with tasks }) := by
  induction p generalizing w with
  | done a => rfl
  | ask q next ih =>
    have hq : env.handler q { w with tasks } =
        ((env.handler q w).1, { (env.handler q w).2 with tasks }) := by cases q <;> rfl
    rw [Program.run_ask, Program.run_ask, hq]
    rcases env.handler q w with ⟨e | a, w'⟩
    · rfl
    · exact ih a w'

theorem priorityIndex_of_run {s : Scanner} {seed : Seed} {scheme : PathScheme} {gapLimit : UInt32}
    {i : Nat} {o : SchemeOutcome} {w w' : World σ}
    (hr : (s.scanScheme seed scheme gapLimit i).run env.handler w = (.ok o, w')) :
    o.priorityIndex = i := by
  rw [Scanner.scanScheme, Program.run_bind] at hr
  split at hr
  · cases hr
    rfl
  · cases hr

/-- The worker and the scan in order look at the token before each scheme. The worker looks once
more, at the end of the queue, where the token is as the last call left it. -/
theorem drain_scanInOrder {A : (c : Call) → c.Answer → Prop} (h : env.Answers A)
    (hself : env.CancelsInCalls) (s : Scanner) (seed : Seed) (schemes : List PathScheme)
    (first : Nat) (a : Attempt) (task tasks : Nat) (deliveries : List Delivery) (w : World σ) :
    ∃ (outcomes : List SchemeOutcome) (w' : World σ) (x : Worker) (queue : List Job),
      (s.scanInOrder seed first schemes a).run env.handler w =
        (.ok (outcomes.foldl Attempt.absorb a), w') ∧
      Pool.drain env (s.scanJob seed) task deliveries { w with tasks } (s.jobsFrom first schemes) =
        (x, queue, deliveries ++ outcomes.map .outcome, { w' with tasks }) ∧
      outcomes.map (·.priorityIndex) = List.range' first outcomes.length := by
  have hlook (w : World σ) :
      (isCancelled : Scan Bool).run env.handler w = (.ok w.cancelled, w) := by
    rw [isCancelled, Program.request, Program.run_ask, hself.look]
    rfl
  induction schemes generalizing first a deliveries w with
  | nil =>
    refine ⟨[], w, .stopped, [], rfl, ?_, rfl⟩
    show (_, _, _, (env.handler .isCancelled { w with tasks }).2) = _
    rw [hself.look]
    simp
  | cons scheme rest ih =>
    obtain ⟨state, cancelled, n⟩ := w
    rw [Scanner.scanInOrder, Program.run_bind, hlook, Scanner.jobsFrom_cons, Pool.drain, hself.look]
    cases cancelled with
    | true =>
      refine ⟨[], ⟨state, true, n⟩, .stopped, s.jobsFrom first (scheme :: rest), rfl, ?_, rfl⟩
      rw [List.map_nil, List.append_nil]
      rfl
    | false =>
      obtain ⟨o, w₁, ho⟩ := h.run_outcome
        (s.scanScheme seed scheme (s.options.gapLimitAt first) first) ⟨state, false, n⟩
      have hjob : (s.scanJob seed ⟨scheme, s.options.gapLimitAt first, first⟩).run env.handler
          ⟨state, false, tasks⟩ = (.ok o, { w₁ with tasks }) := by
        refine (run_tasks _ ⟨state, false, n⟩ tasks).trans ?_
        rw [Scanner.scanJob, ho]
      obtain ⟨outcomes, w', x, queue, hrun, hdrain, hindex⟩ :=
        ih (first + 1) (a.absorb o) (deliveries ++ [.outcome o]) w₁
      refine ⟨o :: outcomes, w', x, queue, ?_, ?_, ?_⟩
      · show (s.scanScheme _ _ _ _ >>= _).run _ _ = _
        rw [Program.run_bind, ho]
        exact hrun
      · dsimp only
        rw [hjob]
        dsimp only
        rw [hdrain, List.map_cons, List.append_assoc, List.singleton_append]
      · rw [List.map_cons, hindex, priorityIndex_of_run ho, List.length_cons, List.range'_succ]

/-! ## Runs that retrace programs -/

namespace Run

/-- The run makes the requests of the program and comes to the same outcome; it may start tasks. -/
def Retraces (env : Environment σ) (x : Run σ α) (p : Scan α) : Prop :=
  ∀ w tasks, ∃ a w' tasks', p.run env.handler w = (.ok a, w') ∧
    x { w with tasks } = (.ok a, { w' with tasks := tasks' })

namespace Retraces

variable {x : Run σ α} {p : Scan α} {f : α → Run σ β} {g : α → Scan β}

theorem pure (a : α) : Retraces env (Pure.pure a : Run σ α) (.done a) :=
  fun w tasks => ⟨a, w, tasks, rfl, rfl⟩

theorem bind (hx : Retraces env x p) (hf : ∀ a, Retraces env (f a) (g a)) :
    Retraces env (x >>= f) (p >>= g) := by
  intro w tasks
  obtain ⟨a, w₁, tasks₁, hp, hx⟩ := hx w tasks
  obtain ⟨b, w₂, tasks₂, hg, hf⟩ := hf a w₁ tasks₁
  refine ⟨b, w₂, tasks₂, ?_, (bind_of_ok hx).trans hf⟩
  rw [Program.run_bind, hp]
  exact hg

theorem ofScan {A : (c : Call) → c.Answer → Prop} (h : env.Answers A) (p : Scan α) :
    Retraces env (Run.ofScan env p) p := by
  intro w tasks
  obtain ⟨a, w', hp⟩ := h.run_outcome p w
  exact ⟨a, w', tasks, hp, by rw [Run.ofScan, run_tasks, hp]⟩

end Retraces

end Run

section Single

variable {A : (c : Call) → c.Answer → Prop} {s : Scanner} {schemes : List PathScheme}

/-- A pool of one worker hands over the outcomes of the schemes in order. -/
theorem runPool_single (h : env.Answers A) (hself : env.CancelsInCalls)
    (hmax : 0 < s.options.maxConcurrent) (hone : s.workerCount schemes.length ≤ 1)
    (schedule : List Nat) (seed : Seed) (passphrase : String) (w : World σ) (tasks : Nat) :
    ∃ p outcomes w' tasks',
      s.runPool env schedule schemes seed { w with tasks } = (.ok p, { w' with tasks := tasks' }) ∧
      p.sortedOutcomes = outcomes ∧ p.failures = [] ∧
      (s.scanInOrder seed 0 schemes (.start passphrase)).run env.handler w =
        (.ok (Attempt.gathered passphrase outcomes), w') := by
  rcases Nat.le_one_iff_eq_zero_or_eq_one.mp hone with hzero | hone
  · -- Without a worker there is no scheme.
    have hjobs : s.jobs schemes = [] := Scanner.jobs_eq_nil_of_workerCount hmax hzero
    obtain rfl : schemes = [] := by
      rw [← List.length_eq_zero_iff, ← Scanner.length_jobs (s := s), hjobs]
      rfl
    refine ⟨⟨[], [], [], tasks + 1⟩, [], w, tasks, ?_, ?_, rfl, rfl⟩
    · rw [Scanner.runPool, hzero, hjobs, Pool.run_idle]
      rfl
    · exact List.mergeSort_nil
  · obtain ⟨outcomes, w', x, queue, hrun, hdrain, hindex⟩ := drain_scanInOrder h hself s seed
      schemes 0 (.start passphrase) (tasks + 1) (tasks + 1) [] w
    have hascend : outcomes.Pairwise fun a b => a.priorityIndex < b.priorityIndex := by
      rw [← List.pairwise_map, hindex]
      exact List.pairwise_lt_range'
    have hpool : Pool.run env (s.scanJob seed) 1 (s.jobs schemes) schedule { w with tasks } =
        (⟨queue, [x], outcomes.map .outcome, tasks + 1⟩, { w' with tasks := tasks + 1 }) := by
      rw [Pool.run_single]
      show Pool.withStance _ 0 (Pool.drain env _ (tasks + 1) [] { w with tasks := tasks + 1 }
        (s.jobsFrom 0 schemes)) = _
      rw [hdrain]
      rfl
    refine ⟨⟨queue, [x], outcomes.map .outcome, tasks + 1⟩, outcomes, w', tasks + 1, ?_, ?_, ?_,
      hrun⟩
    · rw [Scanner.runPool, hone, hpool]
    · refine mergeSort_outcomes (.of_eq ?_) hascend
      simp [Pool.outcomes, Delivery.outcome?, List.filterMap_map, Function.comp_def]
    · simp [Pool.failures, Delivery.failure?, List.filterMap_map, Function.comp_def]

/-- An attempt on a single worker retraces the attempt in order. -/
theorem retraces_attempt (h : env.Answers A) (hself : env.CancelsInCalls)
    (hmax : 0 < s.options.maxConcurrent) (hone : s.workerCount schemes.length ≤ 1)
    (schedule : List Nat) (seed : Seed) (passphrase : String) :
    Run.Retraces env (s.attemptParallel env schedule schemes seed passphrase)
      (s.attempt schemes seed passphrase) := by
  intro w tasks
  obtain ⟨p, outcomes, w', tasks', hpool, hsorted, hfail, hrun⟩ :=
    runPool_single h hself hmax hone schedule seed passphrase w tasks
  refine ⟨(Attempt.gathered passphrase outcomes).noteToken w'.cancelled, w', tasks', ?_, ?_⟩
  · rw [Scanner.attempt, Program.run_bind, hrun]
    show (isCancelled >>= _ : Scan Attempt).run _ w' = _
    rw [isCancelled, Program.request_bind, Program.run_ask, hself.look]
    rfl
  · rw [attemptParallel_of_runPool hpool hfail, hself.look, hsorted]

/-- The schemes go through the same attempts, whatever their schedules. -/
theorem retraces_scanSchemes (h : env.Answers A) (hself : env.CancelsInCalls)
    (hone : s.workerCount schemes.length ≤ 1) (schedules : Nat → List Nat) (seed : Seed) :
    Run.Retraces env (s.scanSchemesParallel env schedules seed schemes)
      (s.scanSchemes seed schemes) := by
  rw [Scanner.scanSchemesParallel, Scanner.scanSchemes]
  cases hready : s.checkReady seed schemes with
  | error e => exact .pure _
  | ok _ =>
    have hsorted : s.workerCount (sortByPriority schemes).length ≤ 1 := by
      rwa [sortByPriority, List.length_mergeSort]
    rw [map_eq_pure_bind, map_eq_pure_bind, Scanner.attemptsParallel, Scanner.attempts]
    refine .bind (.bind (Attempts.run_related (Run.Retraces env) .pure .bind
      (fun p => .ofScan h (Scanner.seedFor seed p)) (fun number seed p => ?_) 1 .none _)
      fun as => .pure as.result) fun result => .pure _
    exact retraces_attempt h hself (Scanner.ready_maxConcurrent hready) hsorted (schedules number)
      seed p

/-- Without schemes, seeds are all that is asked for. -/
theorem asks_scanSchemes_nil (s : Scanner) (seed : Seed) :
    Asks (fun c => ∃ passphrase, c = .seedForPassphrase seed passphrase)
      (s.scanSchemes seed []) := by
  have hseed (passphrase : String) :
      Asks (fun c => ∃ passphrase, c = .seedForPassphrase seed passphrase)
        (Scanner.seedFor seed passphrase) := by
    unfold Scanner.seedFor
    split
    · exact .intro
    · exact asks_call ⟨passphrase, rfl⟩
  rw [Scanner.scanSchemes]
  split
  · exact .intro
  · rw [map_eq_pure_bind, Scanner.attempts, sortByPriority, List.mergeSort_nil]
    refine .bind (.bind (asks_attempts hseed (fun number used passphrase => ?_) 1 .none _)
      fun as => .intro) fun result => .intro
    exact .bind .intro fun a => .bind asks_isCancelled fun b => .intro

/-- **A single worker is the scan in order, call by call.** Under every schedule of the attempts it
makes the same calls, gets the same answers and returns the same result. Collaborators may keep
states and fail, and any call may cancel the token. Without schemes nobody works, and seeds are all
that is asked for. -/
theorem scanSchemesParallel_single (h : env.Answers fun _ _ => True) (hself : env.CancelsInCalls)
    (hone : s.workerCount schemes.length ≤ 1) (schedules : Nat → List Nat) (seed : Seed) (state : σ)
    (cancelled : Bool) (tasks : Nat) :
    ∃ r w tasks',
      (s.scanSchemes seed schemes).run env.logged.handler ⟨(state, []), cancelled, tasks⟩ =
        (.ok r, w) ∧
      s.scanSchemesParallel env.logged schedules seed schemes ⟨(state, []), cancelled, tasks⟩ =
        (.ok r, { w with tasks := tasks' }) ∧
      (schemes = [] → ∀ x ∈ w.state.2,
        ∃ passphrase, x.call = .seedForPassphrase seed passphrase) := by
  obtain ⟨r, w, tasks', hrun, hparallel⟩ := retraces_scanSchemes h.logged hself.logged hone
    schedules seed ⟨(state, []), cancelled, tasks⟩ tasks
  refine ⟨r, w, tasks', hrun, hparallel, ?_⟩
  rintro rfl
  obtain ⟨⟨more, hmore, hseeds⟩, -⟩ :=
    (evolves_logged env _).run (asks_scanSchemes_nil s seed) hrun
  rw [hmore]
  exact hseeds

/-- A scheme with two accounts, each with 5000 satoshis at index 1, and two passphrases. The token
is cancelled in the course of the first call for the second account. -/
theorem scanSchemesParallel_single_stopped :
    let env := Environment.cancelling (Environment.ledgerAnswer fun address =>
      if address = "a" then [⟨"t", 0, 5000, "a", 1⟩] else []) 9
    let s : Scanner := ⟨{ ScanOptions.default with
      extendedGapLimit := 2, scanChangeAddresses := false, passphrases := ["", "b"] }, false⟩
    let schemes := [PathScheme.bip44 "wallet" 5 [0, 1] 1]
    ∃ result w tasks',
      (s.scanSchemes ⟨[7]⟩ schemes).run env.logged.handler ⟨(0, []), false, 0⟩ =
        (.ok (.ok result), w) ∧
      s.scanSchemesParallel env.logged (fun _ => [0, 0]) ⟨[7]⟩ schemes ⟨(0, []), false, 0⟩ =
        (.ok (.ok result), { w with tasks := tasks' }) ∧
      result.totalBalance = 5000 ∧ result.cancelled = true := by
  intro env s schemes
  have hanswers : env.Answers fun _ _ => True := fun c made => ⟨_, rfl, .intro⟩
  have hself : env.CancelsInCalls := fun _ => rfl
  have hone : s.workerCount schemes.length ≤ 1 := by decide
  obtain ⟨r, w, tasks', hrun, hparallel, -⟩ :=
    scanSchemesParallel_single hanswers hself hone (fun _ => [0, 0]) ⟨[7]⟩ 0 false 0
  have hends : ((s.scanSchemes ⟨[7]⟩ schemes).run env.logged.handler ⟨(0, []), false, 0⟩).1.map
      (·.map fun result => (result.totalBalance, result.cancelled)) = .ok (.ok (5000, true)) := by
    decide +kernel
  rw [hrun] at hends
  cases r with
  | error e => cases hends
  | ok result =>
    obtain ⟨hbalance, hcancelled⟩ := Prod.mk.inj (Except.ok.inj (Except.ok.inj hends))
    exact ⟨result, w, tasks', hrun, hparallel, hbalance, hcancelled⟩

end Single

end FundRecovery.Discovery
