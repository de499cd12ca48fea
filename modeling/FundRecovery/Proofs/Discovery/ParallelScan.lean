import FundRecovery.Proofs.Discovery.PoolOutcomes
import FundRecovery.Proofs.Discovery.SequentialScan
import Mathlib.Data.List.Basic

/-!
# Parallel scanning refines sequential scanning

With answers that depend on the calls alone and a token that nobody cancels, a pool of workers
returns what a scan in order returns, under every schedule.

* `OnCourse`: a job in the hands of a worker ends as it would if it ran alone, and its events are in
  the log in order. `tracks_onCourse`: every request of every worker keeps all jobs on course.
* `run_onCourse`: at the end of a pool's run, sorting the outcomes gives the outcomes of all jobs.
* `Run.Matches`: a run ends in the value of a program and has its events scheme by scheme; pools of
  workers match scans in order (`matches_attempt`), so the whole parallel scan matches.
-/

namespace FundRecovery.Discovery

variable {σ α β : Type} {env : Environment σ} {answer : (c : Call) → c.Answer}

namespace World

/-- The events of one scheme in a log. -/
def eventsOf (w : World (σ × List Answered)) (name : String) : List ScanProgress :=
  Discovery.eventsOf name w.calls

end World

/-- One request: the fixed answer, an untouched token and the events of a call. -/
theorem Environment.AnswersBy.handler (h : env.AnswersBy answer) (hu : env.Uncancelled)
    (q : Request) {w : World (σ × List Answered)} (hw : w.cancelled = false) :
    ∃ w', env.logged.handler q w = (.ok (Request.fixed answer q), w') ∧ w'.cancelled = false ∧
      ∀ name, w'.eventsOf name = w.eventsOf name ++ Discovery.eventsOf name (calls [q]) := by
  obtain ⟨w', hr, hw', hc⟩ := AnswersBy.run h hu (.ask q .done) hw
  refine ⟨w', ?_, hw', fun name => ?_⟩
  · rw [Program.run_ask] at hr
    rcases hq : env.logged.handler q w with ⟨e | a, w₁⟩
    · rw [hq] at hr
      simp at hr
    · rw [hq] at hr
      exact hr
  · rw [World.eventsOf, hc, eventsOf_append, Scan.issued_ask, Scan.issued_done, List.append_nil]
    rfl

/-! ## Jobs in the hands of workers -/

section Jobs

variable (answer) (scan : Job → Scan SchemeOutcome) (jobs : List Job)
  (base : World (σ × List Answered))

/-- The token is untouched, and names without a job have no new events. -/
structure Undisturbed (w : World (σ × List Answered)) : Prop where
  uncancelled : w.cancelled = false
  elsewhere : ∀ name, name ∉ jobs.map (·.scheme.name) → w.eventsOf name = base.eventsOf name

/-- What is left of a job's scan ends as the whole would, and its events continue those that the
log has of the job. -/
structure OnCourse (j : Job) (rest : Scan SchemeOutcome) (w : World (σ × List Answered)) :
    Prop where
  value : rest.value answer = (scan j).value answer
  named : Named j.scheme.name (rest.issued answer)
  events : w.eventsOf j.scheme.name ++ eventsOf j.scheme.name (rest.issued answer) =
    base.eventsOf j.scheme.name ++ eventsOf j.scheme.name ((scan j).issued answer)

end Jobs

namespace OnCourse

variable {scan : Job → Scan SchemeOutcome} {base w w' : World (σ × List Answered)} {j k : Job}
  {q : Request} {next : q.Answer → Scan SchemeOutcome} {rest : Scan SchemeOutcome}

/-- A request reports events of its own job alone. -/
theorem named_request (h : OnCourse answer scan base j (.ask q next) w) :
    Named j.scheme.name (calls [q]) := by
  have hn := h.named
  rw [Scan.issued_ask, named_append] at hn
  exact hn.1

theorem answered (h : OnCourse answer scan base j (.ask q next) w)
    (hw : w'.eventsOf j.scheme.name = w.eventsOf j.scheme.name ++
      eventsOf j.scheme.name (calls [q])) :
    OnCourse answer scan base j (next (Request.fixed answer q)) w' where
  value := h.value
  named := by
    have hn := h.named
    rw [Scan.issued_ask, named_append] at hn
    exact hn.2
  events := by
    rw [← h.events, hw, Scan.issued_ask, eventsOf_append, List.append_assoc]

theorem frame (h : OnCourse answer scan base k rest w)
    (hw : w'.eventsOf k.scheme.name = w.eventsOf k.scheme.name) :
    OnCourse answer scan base k rest w' where
  value := h.value
  named := h.named
  events := by rw [hw]; exact h.events

end OnCourse

section Pool

variable {scan : Job → Scan SchemeOutcome} {jobs : List Job} {base : World (σ × List Answered)}

/-- Every request of every worker keeps all jobs on course. -/
theorem tracks_onCourse (h : env.AnswersBy answer) (hu : env.Uncancelled)
    (hnames : (jobs.map (·.scheme.name)).Nodup) :
    Tracks env.logged jobs (Undisturbed jobs base) (OnCourse answer scan base)
      fun _ _ => False where
  inv {j q next w} hj hi hs := by
    obtain ⟨w', hq, hw', he⟩ := h.handler hu q hi.uncancelled
    rw [hq]
    refine ⟨hw', fun name hn => ?_⟩
    have hne : j.scheme.name ≠ name := fun e => hn (List.mem_map.mpr ⟨j, hj, e⟩)
    rw [he, hs.named_request.eventsOf_ne hne, List.append_nil, hi.elsewhere name hn]
  answered {j q next w a w₁} hj hi hs hr := by
    obtain ⟨w', hq, hw', he⟩ := h.handler hu q hi.uncancelled
    obtain ⟨rfl, rfl⟩ : Request.fixed answer q = a ∧ w' = w₁ := by simpa [hq] using hr
    exact hs.answered (he _)
  crashed {j q next w e w₁} hj hi hs hr := by
    obtain ⟨w', hq, -⟩ := h.handler hu q hi.uncancelled
    simp [hq] at hr
  frame {j q next w k rest} hj hk hne hi hs hrest := by
    obtain ⟨w', hq, hw', he⟩ := h.handler hu q hi.uncancelled
    have hname : j.scheme.name ≠ k.scheme.name := fun e =>
      hne (List.inj_on_of_nodup_map hnames hj hk e)
    rw [hq]
    refine hrest.frame ?_
    rw [he, hs.named_request.eventsOf_ne hname, List.append_nil]
  invLook {w} hi := by
    obtain ⟨w', hq, hw', he⟩ := h.handler hu .isCancelled hi.uncancelled
    rw [hq]
    exact ⟨hw', fun name hn => by rw [he, ← hi.elsewhere name hn]; simp⟩
  look {k rest w} hk hi hrest := by
    obtain ⟨w', hq, hw', he⟩ := h.handler hu .isCancelled hi.uncancelled
    rw [hq]
    exact hrest.frame (by rw [he]; simp)

theorem eventsOf_flatMap_of_not_mem {name : String}
    (hnamed : ∀ j ∈ jobs, Named j.scheme.name ((scan j).issued answer))
    (hname : name ∉ jobs.map (·.scheme.name)) :
    eventsOf name (jobs.flatMap fun j => (scan j).issued answer) = [] := by
  rw [eventsOf, events_flatMap]
  exact filter_flatMap_of_not_mem hnamed hname

/-- The events of one job among those of all jobs. -/
theorem eventsOf_flatMap (hnames : (jobs.map (·.scheme.name)).Nodup)
    (hnamed : ∀ j ∈ jobs, Named j.scheme.name ((scan j).issued answer)) {j : Job} (hj : j ∈ jobs) :
    eventsOf j.scheme.name (jobs.flatMap fun j => (scan j).issued answer) =
      eventsOf j.scheme.name ((scan j).issued answer) := by
  rw [(hnamed j hj).eventsOf_self, eventsOf, events_flatMap]
  exact filter_flatMap_schemeName hnamed hnames hj

/-- At the end of a run every job has its outcome, and each scheme the events of its own scan. -/
theorem run_onCourse (h : env.AnswersBy answer) (hu : env.Uncancelled)
    (scan : Job → Scan SchemeOutcome) (jobs : List Job) (hnames : (jobs.map (·.scheme.name)).Nodup)
    (hnamed : ∀ j ∈ jobs, Named j.scheme.name ((scan j).issued answer))
    (hindex : ∀ j ∈ jobs, ((scan j).value answer).priorityIndex = j.priorityIndex)
    (hsorted : jobs.Pairwise fun a b => a.priorityIndex < b.priorityIndex)
    {workerCount : Nat} (hworkers : workerCount = 0 → jobs = []) (schedule : List Nat)
    (hbase : base.cancelled = false) :
    ∃ p w, Pool.run env.logged scan workerCount jobs schedule base = (p, w) ∧
      p.sortedOutcomes = jobs.map (fun j => (scan j).value answer) ∧ p.failures = [] ∧
      w.cancelled = false ∧ ∀ name, w.eventsOf name =
        base.eventsOf name ++ eventsOf name (jobs.flatMap fun j => (scan j).issued answer) := by
  rcases hrun : Pool.run env.logged scan workerCount jobs schedule base with ⟨p, w⟩
  have htracks : Tracks env.logged jobs (Undisturbed jobs base) (OnCourse answer scan base)
      fun _ _ => False := tracks_onCourse h hu hnames
  have hends (j) (hj : j ∈ jobs) (o) (w) (hs : OnCourse answer scan base j (.done o) w) :
      o.priorityIndex = j.priorityIndex := by
    have ho : o = (scan j).value answer := hs.value
    rw [ho, hindex j hj]
  obtain ⟨hfail, hinv, first, -, hsettled, hall⟩ := Pool.sortedOutcomes_run htracks hsorted hends
    hworkers schedule ⟨hbase, fun _ _ => rfl⟩ (fun j hj => ⟨rfl, hnamed j hj, rfl⟩) hrun
  -- Nobody cancelled, so the workers went through the whole queue.
  obtain rfl : first = jobs := hall.resolve_right (by simp [hinv.uncancelled])
  have houtcomes : p.sortedOutcomes = first.map fun j => (scan j).value answer := by
    rw [← List.map_id p.sortedOutcomes]
    exact map_eq_of_forall₂ (hsettled.imp fun j o hs => hs.value)
  refine ⟨p, w, rfl, houtcomes, hfail, hinv.uncancelled, fun name => ?_⟩
  by_cases hname : name ∈ first.map (·.scheme.name)
  · obtain ⟨j, hj, rfl⟩ := List.mem_map.mp hname
    obtain ⟨i, hi, rfl⟩ := List.getElem_of_mem hj
    have he := (hsettled.get hi (hsettled.length_eq ▸ hi)).events
    rw [Scan.issued_done, eventsOf_nil, List.append_nil] at he
    rw [eventsOf_flatMap hnames hnamed hj]
    exact he
  · rw [hinv.elsewhere name hname, eventsOf_flatMap_of_not_mem hnamed hname, List.append_nil]

end Pool

/-! ## Runs that match programs -/

namespace Run

/-- `x` ends in the value of `p`, and has the events of `p` scheme by scheme. -/
def Matches (answer : (c : Call) → c.Answer) (x : Run (σ × List Answered) α) (p : Scan α) : Prop :=
  ∀ w, w.cancelled = false → ∃ w', x w = (.ok (p.value answer), w') ∧ w'.cancelled = false ∧
    ∀ name, w'.eventsOf name = w.eventsOf name ++ Discovery.eventsOf name (p.issued answer)

theorem bind_of_ok {x : Run σ α} {f : α → Run σ β} {a : α} {w w' : World σ}
    (hx : x w = (.ok a, w')) : (x >>= f) w = f a w' := by
  show (ExceptT.bindCont f (x w).1) (x w).2 = _
  rw [hx]
  rfl

theorem map_apply (f : α → β) (x : Run σ α) (w : World σ) :
    (f <$> x) w = ((x w).1.map f, (x w).2) := by
  rw [map_eq_pure_bind]
  show (ExceptT.bindCont (fun a => Pure.pure (f a)) (x w).1 : StateM (World σ) _) (x w).2 = _
  rcases x w with ⟨e | a, w₁⟩ <;> rfl

theorem ok_of_map {f : α → β} {x : Run σ α} {b : β} {w w' : World σ}
    (h : (f <$> x) w = (.ok b, w')) : ∃ a, x w = (.ok a, w') ∧ f a = b := by
  rw [map_apply] at h
  rcases hx : x w with ⟨e | a, w₁⟩ <;> rw [hx] at h
  · cases h
  · cases h
    exact ⟨a, rfl, rfl⟩

namespace Matches

variable {x : Run (σ × List Answered) α} {p : Scan α} {f : α → Run (σ × List Answered) β}
  {g : α → Scan β}

theorem pure (a : α) : Matches answer (Pure.pure a : Run (σ × List Answered) α) (.done a) :=
  fun w hw => ⟨w, rfl, hw, fun name => by simp⟩

theorem bind (hx : Matches answer x p) (hf : ∀ a, Matches answer (f a) (g a)) :
    Matches answer (x >>= f) (p >>= g) := by
  intro w hw
  obtain ⟨w₁, hx, hw₁, he₁⟩ := hx w hw
  obtain ⟨w₂, hf, hw₂, he₂⟩ := hf (p.value answer) w₁ hw₁
  refine ⟨w₂, ?_, hw₂, fun name => ?_⟩
  · rw [Scan.value_bind, bind_of_ok hx, hf]
  · rw [he₂, he₁, Scan.issued_bind, eventsOf_append, List.append_assoc]

theorem ofScan (h : env.AnswersBy answer) (hu : env.Uncancelled) (p : Scan α) :
    Matches answer (Run.ofScan env.logged p) p := by
  intro w hw
  obtain ⟨w', hr, hw', hc⟩ := h.run hu p hw
  exact ⟨w', hr, hw', fun name => by rw [World.eventsOf, hc, eventsOf_append]; rfl⟩

/-- Attempts that match one by one match together: both stop at the same one. -/
theorem attempts {seedFor : String → Run (σ × List Answered) (Except DerivationError Seed)}
    {seedFor' : String → Scan (Except DerivationError Seed)}
    {scan : Nat → Seed → String → Run (σ × List Answered) Attempt}
    {scan' : Nat → Seed → String → Scan Attempt}
    (hseed : ∀ p, Matches answer (seedFor p) (seedFor' p))
    (hscan : ∀ number seed p, Matches answer (scan number seed p) (scan' number seed p))
    (number : Nat) (as : Attempts) (passphrases : List String) :
    Matches answer (Attempts.run seedFor scan number as passphrases)
      (Attempts.run seedFor' scan' number as passphrases) :=
  Attempts.run_related (Matches answer) pure bind hseed hscan number as passphrases

end Matches

end Run

/-! ## Parallel scans -/

section Parallel

variable {s : Scanner} {schemes : List PathScheme}

/-- A pool of workers makes the same attempt as a scan in order. -/
theorem matches_attempt (h : env.AnswersBy answer) (hu : env.Uncancelled)
    (hnames : (schemes.map (·.name)).Nodup) (hmax : 0 < s.options.maxConcurrent)
    (schedule : List Nat) (seed : Seed) (passphrase : String) :
    Run.Matches answer (s.attemptParallel env.logged schedule schemes seed passphrase)
      (s.attempt schemes seed passphrase) := by
  intro w hw
  obtain ⟨p, w₁, hrun, hsorted, hfail, hw₁, he₁⟩ := run_onCourse h hu (s.scanJob seed)
    (s.jobs schemes) (by rwa [Scanner.map_name_jobs])
    (fun j _ => scanScheme_named s seed j.scheme j.gapLimit j.priorityIndex)
    (fun j _ => value_scanScheme_priorityIndex s seed j.scheme j.gapLimit j.priorityIndex)
    (Scanner.pairwise_jobsFrom 0) (Scanner.jobs_eq_nil_of_workerCount hmax) schedule hw
  obtain ⟨w₂, hlook, hw₂, he₂⟩ := h.handler hu .isCancelled hw₁
  refine ⟨w₂, ?_, hw₂, fun name => ?_⟩
  · have hpool : s.runPool env.logged schedule schemes seed w = (.ok p, w₁) := by
      simp only [Scanner.runPool, hrun]
    have htoken : Run.ofScan env.logged isCancelled w₁ = (.ok false, w₂) := by
      simp [Run.ofScan, isCancelled, Program.request, Program.run_ask, hlook, Request.fixed]
    rw [Scanner.attemptParallel, Run.bind_of_ok hpool, Run.bind_of_ok htoken, hsorted, hfail]
    simp only [Scanner.attempt, Scan.value_bind, Scanner.value_scanInOrder,
      Scanner.jobs_eq_jobsFrom, Scan.value_isCancelled, List.foldl_nil]
    rfl
  · rw [he₂, he₁]
    simp [Scanner.attempt, Scanner.issued_scanInOrder, Scanner.jobs_eq_jobsFrom]

theorem matches_attempts (h : env.AnswersBy answer) (hu : env.Uncancelled) {seed : Seed}
    (hready : s.checkReady seed schemes = .ok ()) (schedules : Nat → List Nat) :
    Run.Matches answer (s.attemptsParallel env.logged schedules seed schemes)
      (s.attempts seed schemes) := by
  have hnames := Scanner.nodup_sorted hready
  have hmax := Scanner.ready_maxConcurrent hready
  unfold Scanner.attemptsParallel Scanner.attempts
  refine .bind (.attempts (fun p => ?_) (fun number seed p => ?_) 1 .none _) fun as =>
    .pure as.result
  · exact .ofScan h hu (Scanner.seedFor seed p)
  · exact matches_attempt h hu hnames hmax (schedules number) seed p

theorem matches_scanSchemes (h : env.AnswersBy answer) (hu : env.Uncancelled) (s : Scanner)
    (seed : Seed) (schemes : List PathScheme) (schedules : Nat → List Nat) :
    Run.Matches answer (s.scanSchemesParallel env.logged schedules seed schemes)
      (s.scanSchemes seed schemes) := by
  rw [Scanner.scanSchemesParallel, Scanner.scanSchemes]
  cases hready : s.checkReady seed schemes with
  | error e => exact .pure _
  | ok _ =>
    rw [map_eq_pure_bind, map_eq_pure_bind]
    exact (matches_attempts h hu hready schedules).bind fun result => .pure _

/-- **Parallel scanning refines sequential scanning.** Under every schedule of the workers, the
result is that of the scan in order, and so are the events of each scheme. -/
theorem scanSchemesParallel_refines (h : env.AnswersBy answer) (hu : env.Uncancelled) {seed : Seed}
    (hready : s.checkReady seed schemes = .ok ()) (schedules : Nat → List Nat)
    {w : World (σ × List Answered)} (hw : w.cancelled = false) :
    ∃ result wp ws,
      s.scanSchemesParallel env.logged schedules seed schemes w = (.ok (.ok result), wp) ∧
      (s.scanSchemes seed schemes).run env.logged.handler w = (.ok (.ok result), ws) ∧
      ∀ name, wp.eventsOf name = ws.eventsOf name := by
  obtain ⟨wp, hparallel, -, hep⟩ := matches_scanSchemes h hu s seed schemes schedules w hw
  obtain ⟨ws, hsequential, -, hc⟩ := h.run hu (s.scanSchemes seed schemes) hw
  obtain ⟨result, hresult⟩ : ∃ result, (s.scanSchemes seed schemes).value answer = .ok result := by
    rw [Scanner.scanSchemes, hready, map_eq_pure_bind]
    exact ⟨_, Scan.value_bind ..⟩
  rw [hresult] at hparallel hsequential
  refine ⟨result, wp, ws, hparallel, hsequential, fun name => ?_⟩
  rw [hep, World.eventsOf, World.eventsOf, hc, eventsOf_append]

theorem sortByPriority_registry : sortByPriority registry = registry :=
  List.mergeSort_of_pairwise (by decide)

/-- Three workers on the registry that move in turn, so that the scans of three schemes are under
way at once. There are 5000 satoshis on each chain, and an observer. -/
theorem scanSchemesParallel_refines_registry :
    let s : Scanner := ⟨{ ScanOptions.default with
      gapLimit := 2, extendedGapLimit := 2, maxConcurrent := 3
      scanChangeAddresses := false, observed := true }, false⟩
    let answer := Environment.ledgerAnswer fun address =>
      if address = "a" then [⟨"t", 0, 5000, "a", 1⟩] else []
    let env := (Environment.ofAnswers answer).logged
    let turns := (List.range 48).map (· % 3)
    ∃ result wp ws,
      s.scanSchemesParallel env (fun _ => turns) ⟨[7]⟩ registry ⟨((), []), false, 0⟩ =
        (.ok (.ok result), wp) ∧
      (s.scanSchemes ⟨[7]⟩ registry).run env.handler ⟨((), []), false, 0⟩ =
        (.ok (.ok result), ws) ∧
      (∀ name, wp.eventsOf name = ws.eventsOf name) ∧ result.totalBalance = 40000 ∧
      ((s.runPool env turns registry ⟨[7]⟩ ⟨((), []), false, 0⟩).2.events.map
          (·.schemeName)).take 6 =
        ["bip44", "bip44-bitcoin-coin-type", "bip44-testnet-coin-type",
          "bip44", "bip44-bitcoin-coin-type", "bip44-testnet-coin-type"] := by
  intro s answer env turns
  have hready : s.checkReady ⟨[7]⟩ registry = .ok () := by decide
  obtain ⟨result, wp, ws, hparallel, hsequential, hevents⟩ := scanSchemesParallel_refines
    (Environment.answersBy_ofAnswers answer) (Environment.uncancelled_ofAnswers answer) hready
    (fun _ => turns) (w := ⟨((), []), false, 0⟩) rfl
  have htotal : ((s.scanSchemes ⟨[7]⟩ registry).run env.handler ⟨((), []), false, 0⟩).1.map
      (·.map (·.totalBalance)) = .ok (.ok 40000) := by
    rw [Scanner.scanSchemes, Scanner.attempts, sortByPriority_registry]
    decide +kernel
  refine ⟨result, wp, ws, hparallel, hsequential, hevents, eq_of_result_map hsequential htotal, ?_⟩
  decide +kernel

end Parallel

end FundRecovery.Discovery
