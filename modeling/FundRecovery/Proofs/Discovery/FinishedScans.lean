import FundRecovery.Proofs.Discovery.Narratives
import FundRecovery.Proofs.Discovery.ParallelTruncation

/-!
# The scans that an attempt is made of

Each outcome of an attempt is that of a scan whose requests are in the log: those of one scheme
after those of the other, or those of several workers mixed. The events of a scheme are those of its
scan either way. On a pool of workers this takes collaborators that do not crash: a crash loses the
outcome of a scan whose events were reported.

* `FinishedScan`: a scan with the exchanges that led to its outcome. `FinishedScan.OfFirst`: the
  scans of the first jobs.
* `Attempt.Follows s seed schemes new a scans`: the attempt is made of the scans, and `new` are
  their events. `follows_attempt`, `follows_attemptParallel`: so is every attempt, made either way.
* `Underway`, `tracks_underway`: how the scans of a pool come to the outcomes that it hands over.
-/

namespace FundRecovery.Discovery

variable {σ α : Type}

/-! ## Programs that report events of one scheme -/

/-- New events of a scheme are those among the new events. -/
theorem World.eventsOf_append {w w' : World (σ × List Answered)} {new : List ScanProgress}
    (h : w'.events = w.events ++ new) (name : String) :
    w'.eventsOf name = w.eventsOf name ++ new.filter (·.schemeName = name) := by
  show w'.events.filter _ = _
  rw [h, List.filter_append]
  rfl

theorem named_iff {name : String} {log : List Call} :
    Named name log ↔ ∀ c ∈ log, Named name [c] := by
  induction log with
  | nil => simp [Named]
  | cons c rest ih =>
    rw [← List.singleton_append, named_append, ih, List.singleton_append, List.forall_mem_cons]

/-- A request reports the events of its call. -/
theorem Environment.logged_events (env : Environment σ) (q : Request)
    (w : World (σ × List Answered)) :
    (env.logged.handler q w).2.events = w.events ++ events (calls [q]) := by
  have hcalls := env.logged_notes q w
  rw [World.events, hcalls, events_append]
  rfl

/-- Programs that make quiet calls report nothing. -/
theorem events_quiet {env : Environment σ} {p : Scan α} (hp : Asks Call.Quiet p)
    {w w' : World (σ × List Answered)} {r : Except Crash α}
    (hr : p.run env.logged.handler w = (r, w')) : w'.events = w.events := by
  obtain ⟨t, ht, hlog⟩ := run_answered hr
  have hsilent : Narrates (reportsIn · = []) [] p fun _ log => reportsIn log = [] := by
    refine .quiet hp (fun _ => id) (fun r hc h => ?_) rfl
    rw [reportsIn_append, h, reportsIn, List.map_singleton, events, List.filterMap_cons,
      hc.event?_eq_none]
    rfl
  have hnone : reportsIn (answered t) = [] := by
    cases r with
    | ok a => exact hsilent.outcome ht
    | error e => exact hsilent.crash ht
  rw [World.events_eq, hlog, reportsIn_append, hnone, List.append_nil]
  rfl

/-- The scan of a scheme reports events of that scheme alone, also where it does not end. -/
theorem asks_scanScheme_named (s : Scanner) (seed : Seed) (scheme : PathScheme) (gapLimit : UInt32)
    (priorityIndex : Nat) :
    Asks (fun c => Named scheme.name [c]) (s.scanScheme seed scheme gapLimit priorityIndex) :=
  asks_of_records ((records_scanScheme_named _ _ s seed scheme gapLimit priorityIndex).mono
    fun _ _ h => named_iff.mp h.2)

/-! ## Finished scans -/

/-- The scan of a job that came to an outcome. -/
structure FinishedScan where
  job : Job
  course : List (Exchange interface)
  outcome : SchemeOutcome

namespace FinishedScan

/-- The events of the scan. -/
def events (x : FinishedScan) : List ScanProgress := reportsIn (answered x.course)

/-- The scan came to its outcome in these exchanges. -/
def Finishes (scan : Job → Scan SchemeOutcome) (x : FinishedScan) : Prop :=
  (scan x.job).Exchanges x.course (.ok x.outcome)

variable {s : Scanner} {seed : Seed} {x : FinishedScan}

theorem Finishes.named (h : x.Finishes (s.scanJob seed)) :
    (x.outcome.schemeName = x.job.scheme.name ∧ x.outcome.priorityIndex = x.job.priorityIndex) ∧
      ∀ e ∈ x.events, e.schemeName = x.job.scheme.name :=
  (records_scanScheme_named (fun _ _ => True) _ s seed x.job.scheme x.job.gapLimit
    x.job.priorityIndex).exchanges h fun _ _ _ => .intro

/-- The scans are those of the first of the jobs, in order. -/
structure OfFirst (scan : Job → Scan SchemeOutcome) (jobs : List Job)
    (scans : List FinishedScan) : Prop where
  jobs : scans.map (·.job) <+: jobs
  finishes : ∀ x ∈ scans, x.Finishes scan

namespace OfFirst

variable {scan : Job → Scan SchemeOutcome} {jobs : List Job} {scans : List FinishedScan}

theorem nil (scan : Job → Scan SchemeOutcome) (jobs : List Job) : OfFirst scan jobs [] :=
  ⟨List.nil_prefix, List.forall_mem_nil _⟩

theorem cons {x : FinishedScan} (hx : x.Finishes scan) (h : OfFirst scan jobs scans) :
    OfFirst scan (x.job :: jobs) (x :: scans) where
  jobs := List.cons_prefix_cons.mpr ⟨rfl, h.jobs⟩
  finishes := List.forall_mem_cons.mpr ⟨hx, h.finishes⟩

variable {s : Scanner} {seed : Seed} {schemes : List PathScheme}

/-- The outcomes are of the schemes of the jobs. -/
theorem map_schemeName (h : OfFirst (s.scanJob seed) jobs scans) :
    (scans.map (·.outcome)).map (·.schemeName) = scans.map (·.job.scheme.name) := by
  rw [List.map_map]
  exact List.map_congr_left fun x hx => (h.finishes x hx).named.1.1

/-- Schemes with distinct names have scans with distinct names. -/
theorem nodup_names (h : OfFirst (s.scanJob seed) (s.jobs schemes) scans)
    (hnames : (schemes.map (·.name)).Nodup) : (scans.map (·.job.scheme.name)).Nodup := by
  have hprefix := h.jobs.map (·.scheme.name)
  rw [List.map_map, Scanner.map_name_jobs] at hprefix
  exact hnames.sublist hprefix.sublist

end OfFirst

end FinishedScan

/-! ## Attempts -/

namespace Attempt

/-- The attempt is made of the scans. The events `new` are theirs: for each scan those of its
scheme, and no others. -/
structure Follows (s : Scanner) (seed : Seed) (schemes : List PathScheme)
    (new : List ScanProgress) (a : Attempt) (scans : List FinishedScan) : Prop extends
    FinishedScan.OfFirst (s.scanJob seed) (s.jobs schemes) scans where
  gathered : ∃ passphrase cancelled,
    a = (Attempt.gathered passphrase (scans.map (·.outcome))).noteToken cancelled
  events : ∀ x ∈ scans, new.filter (·.schemeName = x.job.scheme.name) = x.events
  named : ∀ e ∈ new, e.schemeName ∈ scans.map (·.job.scheme.name)

end Attempt

/-! ## Schemes in order -/

section Sequential

variable {s : Scanner} {seed : Seed} {schemes : List PathScheme} {t : List (Exchange interface)}

/-- A scan in order absorbs the outcomes of finished scans, and makes their calls. -/
theorem exchanges_scanInOrder {first : Nat} {a b : Attempt}
    (ht : (s.scanInOrder seed first schemes a).Exchanges t (.ok b)) :
    ∃ scans, FinishedScan.OfFirst (s.scanJob seed) (s.jobsFrom first schemes) scans ∧
      b = (scans.map (·.outcome)).foldl Attempt.absorb a ∧
      answered t = scans.flatMap fun x => answered x.course := by
  induction schemes generalizing first a t with
  | nil =>
    obtain ⟨rfl, hb⟩ := ht
    exact ⟨[], .nil _ _, Except.ok.inj hb, rfl⟩
  | cons scheme rest ih =>
    obtain ⟨_, he, -⟩ | ⟨stopped, u, v, rfl, hu, hv⟩ := Program.exchanges_bind.mp ht
    · cases he
    obtain rfl := Program.exchanges_request.mp hu
    cases stopped with
    | true =>
      obtain ⟨rfl, hb⟩ := hv
      exact ⟨[], .nil _ _, Except.ok.inj hb, rfl⟩
    | false =>
      obtain ⟨_, he, -⟩ | ⟨o, course, later, rfl, hcourse, hlater⟩ := Program.exchanges_bind.mp hv
      · cases he
      obtain ⟨scans, hscans, rfl, hlog⟩ := ih hlater
      let x : FinishedScan := ⟨⟨scheme, s.options.gapLimitAt first, first⟩, course, o⟩
      have hx : x.Finishes (s.scanJob seed) := hcourse
      refine ⟨x :: scans, hscans.cons hx, rfl, ?_⟩
      rw [List.flatMap_cons, ← hlog, ← answered_append]
      rfl

/-- An attempt in order is made of the scans whose events follow each other. -/
theorem follows_attempt {env : Environment σ} (hnames : (schemes.map (·.name)).Nodup)
    {passphrase : String} {a : Attempt} {w w' : World (σ × List Answered)}
    (hr : (s.attempt schemes seed passphrase).run env.logged.handler w = (.ok a, w')) :
    ∃ new scans, w'.events = w.events ++ new ∧ a.Follows s seed schemes new scans := by
  obtain ⟨t, ht, hlog⟩ := run_answered hr
  obtain ⟨_, he, -⟩ | ⟨b, u, v, rfl, hu, hv⟩ := Program.exchanges_bind.mp ht
  · cases he
  obtain ⟨_, he, -⟩ | ⟨cancelled, look, rest, rfl, hlook, hrest⟩ := Program.exchanges_bind.mp hv
  · cases he
  obtain rfl := Program.exchanges_request.mp hlook
  obtain ⟨rfl, ha⟩ := hrest
  obtain rfl := Except.ok.inj ha
  obtain ⟨scans, hscans, rfl, hcalls⟩ := exchanges_scanInOrder hu
  have hparts : ∀ x ∈ scans, ∀ e ∈ x.events, e.schemeName = x.job.scheme.name :=
    fun x hx => (hscans.finishes x hx).named.2
  refine ⟨scans.flatMap (·.events), scans, ?_, hscans, ⟨passphrase, cancelled, rfl⟩,
    fun x hx => ?_, fun e he => ?_⟩
  · rw [World.events_eq, hlog, answered_append, hcalls, reportsIn_append, reportsIn_append,
      reportsIn_flatMap]
    exact congrArg (w.events ++ ·) (List.append_nil _)
  · exact filter_flatMap_schemeName hparts (hscans.nodup_names hnames) hx
  · obtain ⟨x, hx, he⟩ := List.mem_flatMap.mp he
    rw [hparts x hx e he]
    exact List.mem_map_of_mem hx

end Sequential

/-! ## Schemes on a pool of workers -/

section Parallel

variable {env : Environment σ} {scan : Job → Scan SchemeOutcome} {jobs : List Job}
  {base w w' : World (σ × List Answered)} {j k : Job} {q : Request}
  {next : q.Answer → Scan SchemeOutcome} {rest : Scan SchemeOutcome}

/-- The events since `base` are of the jobs. -/
def OfJobs (jobs : List Job) (base w : World (σ × List Answered)) : Prop :=
  ∃ new, w.events = base.events ++ new ∧ ∀ e ∈ new, e.schemeName ∈ jobs.map (·.scheme.name)

/-- The scan of the job has come to `rest`, and its events on the way are those that the log has of
its scheme since `base`. -/
structure Underway (scan : Job → Scan SchemeOutcome) (base : World (σ × List Answered)) (j : Job)
    (rest : Scan SchemeOutcome) (w : World (σ × List Answered)) : Prop where
  named : Asks (fun c => Named j.scheme.name [c]) rest
  course : ∃ t, (scan j).Leaves t rest ∧
    w.eventsOf j.scheme.name = base.eventsOf j.scheme.name ++ reportsIn (answered t)

/-- The events of a scheme grow by those of a request. -/
theorem eventsOf_handler (env : Environment σ) (q : Request) (w : World (σ × List Answered))
    (name : String) :
    (env.logged.handler q w).2.eventsOf name = w.eventsOf name ++ eventsOf name (calls [q]) :=
  World.eventsOf_append (env.logged_events q w) name

theorem Request.Meets.named {name : String} (h : q.Meets fun c => Named name [c]) :
    Named name (calls [q]) := by
  cases q with
  | call c => exact h
  | isCancelled => exact fun _ he => absurd he List.not_mem_nil

namespace Underway

theorem start (h : Asks (fun c => Named j.scheme.name [c]) (scan j))
    (hw : w.eventsOf j.scheme.name = base.eventsOf j.scheme.name) :
    Underway scan base j (scan j) w :=
  ⟨h, [], .nothing _, by rw [hw]; exact (List.append_nil _).symm⟩

/-- An answer takes the scan on. -/
theorem answered (h : Underway scan base j (.ask q next) w) {a : q.Answer}
    (hw : w'.eventsOf j.scheme.name = w.eventsOf j.scheme.name ++
      eventsOf j.scheme.name (calls [q])) : Underway scan base j (next a) w' := by
  obtain ⟨t, hleaves, hevents⟩ := h.course
  have hanswer : Program.Leaves (.ask q next) [⟨q, .ok a⟩] (next a) := .answered (.nothing _)
  refine ⟨h.named.2 a, t ++ [⟨q, .ok a⟩], hleaves.trans hanswer, ?_⟩
  rw [hw, h.named.1.named.eventsOf_self, hevents, List.append_assoc, answered_append,
    reportsIn_append]
  cases q <;> rfl

/-- The requests of others are no matter. -/
theorem frame (h : Underway scan base k rest w)
    (hw : w'.eventsOf k.scheme.name = w.eventsOf k.scheme.name) :
    Underway scan base k rest w' :=
  ⟨h.named, by rw [hw]; exact h.course⟩

/-- A scan with nothing done has no events. -/
theorem untouched (h : Underway scan base j (scan j) w) :
    w.eventsOf j.scheme.name = base.eventsOf j.scheme.name := by
  obtain ⟨t, hleaves, hevents⟩ := h.course
  obtain rfl := hleaves.eq_nil
  exact hevents.trans (List.append_nil _)

end Underway

/-- Every request of every worker takes one scan on. -/
theorem tracks_underway (h : env.Answers fun _ _ => True)
    (hnames : (jobs.map (·.scheme.name)).Nodup) :
    Tracks env.logged jobs (OfJobs jobs base) (Underway scan base) fun _ _ => False where
  inv {j q next w} hj hi hs := by
    obtain ⟨new, hevents, hnew⟩ := hi
    refine ⟨new ++ events (calls [q]), ?_, ?_⟩
    · rw [env.logged_events, hevents, List.append_assoc]
    · refine List.forall_mem_append.mpr ⟨hnew, fun e he => ?_⟩
      rw [hs.named.1.named e he]
      exact List.mem_map_of_mem hj
  answered {j q next w a w'} _ _ hs hq := by
    have hworld := eventsOf_handler env q w j.scheme.name
    rw [hq] at hworld
    exact hs.answered hworld
  crashed {j q next w e w'} _ _ _ hq := by
    obtain ⟨a, ha⟩ := h.logged.total (fun _ => True) q w .intro
    rw [hq] at ha
    cases ha
  frame {j q next w k rest} hj hk hne _ hs hrest := by
    have hname : j.scheme.name ≠ k.scheme.name := fun e =>
      hne (List.inj_on_of_nodup_map hnames hj hk e)
    refine hrest.frame ?_
    rw [eventsOf_handler, hs.named.1.named.eventsOf_ne hname, List.append_nil]
  invLook {w} hi := by
    obtain ⟨new, hevents, hnew⟩ := hi
    exact ⟨new, by rw [env.logged_events, hevents]; exact List.append_nil _, hnew⟩
  look {k rest w} _ _ hrest := by
    refine hrest.frame ?_
    rw [eventsOf_handler]
    exact List.append_nil _

/-- The outcomes of scans that went their course, with these courses. -/
theorem exists_finished {first : List Job} {outcomes : List SchemeOutcome}
    (h : List.Forall₂ (fun j o => Underway scan base j (.done o) w) first outcomes) :
    ∃ scans : List FinishedScan, scans.map (·.job) = first ∧ scans.map (·.outcome) = outcomes ∧
      ∀ x ∈ scans, x.Finishes scan ∧
        w.eventsOf x.job.scheme.name = base.eventsOf x.job.scheme.name ++ x.events := by
  induction h with
  | nil => exact ⟨[], rfl, rfl, List.forall_mem_nil _⟩
  | @cons j o first outcomes hfirst _ ih =>
    obtain ⟨scans, rfl, rfl, hscans⟩ := ih
    obtain ⟨t, hleaves, hevents⟩ := hfirst.course
    exact ⟨⟨j, t, o⟩ :: scans, rfl, rfl,
      List.forall_mem_cons.mpr ⟨⟨hleaves.exchanges, hevents⟩, hscans⟩⟩

variable {s : Scanner} {seed : Seed} {schemes : List PathScheme}

/-- An attempt on a pool is made of scans whose events are mixed. -/
theorem follows_attemptParallel (h : env.Answers fun _ _ => True)
    (hmax : 0 < s.options.maxConcurrent) (hnames : (schemes.map (·.name)).Nodup)
    (schedule : List Nat) {passphrase : String} {r : Except Crash Attempt}
    (hr : s.attemptParallel env.logged schedule schemes seed passphrase w = (r, w')) :
    ∃ a new scans, r = .ok a ∧ w'.events = w.events ++ new ∧
      a.Follows s seed schemes new scans := by
  rcases hrun : Pool.run env.logged (s.scanJob seed) (s.workerCount schemes.length)
    (s.jobs schemes) schedule w with ⟨p, w₁⟩
  have hpool : s.runPool env.logged schedule schemes seed w = (.ok p, w₁) := by
    simp only [Scanner.runPool, hrun]
  have hjobs : ((s.jobs schemes).map (·.scheme.name)).Nodup := by rwa [Scanner.map_name_jobs]
  have hindex (j : Job) (o : SchemeOutcome) (w₂) (hs : Underway (s.scanJob seed) w j (.done o) w₂) :
      o.priorityIndex = j.priorityIndex := by
    obtain ⟨t, hleaves, -⟩ := hs.course
    have hfinish : FinishedScan.Finishes (s.scanJob seed) ⟨j, t, o⟩ := hleaves.exchanges
    exact hfinish.named.1.2
  obtain ⟨hfail, ⟨new, hnew, hofJobs⟩, first, others, hall, houtcomes, hothers, -⟩ :=
    Pool.sortedOutcomes_queue (tracks_underway h hjobs) (Scanner.pairwise_jobsFrom 0)
      (fun j _ => hindex j) (Scanner.jobs_eq_nil_of_workerCount hmax) schedule
      ⟨[], (List.append_nil _).symm, List.forall_mem_nil _⟩
      (fun j _ => .start (asks_scanScheme_named ..) rfl) hrun
  obtain ⟨scans, rfl, hsorted, hscans⟩ := exists_finished houtcomes
  -- Of each scheme, the new events are those since the beginning.
  have hof {name : String} {part : List ScanProgress}
      (hname : w₁.eventsOf name = w.eventsOf name ++ part) :
      new.filter (·.schemeName = name) = part :=
    List.append_cancel_left ((World.eventsOf_append hnew name).symm.trans hname)
  rw [attemptParallel_of_runPool hpool hfail, ← hsorted] at hr
  obtain ⟨rfl, rfl⟩ := Prod.mk.inj hr
  have hfirst : FinishedScan.OfFirst (s.scanJob seed) (s.jobs schemes) scans :=
    ⟨⟨others, hall⟩, fun x hx => (hscans x hx).1⟩
  refine ⟨_, new, scans, rfl, ?_, hfirst, ⟨passphrase, _, rfl⟩, fun x hx => hof (hscans x hx).2,
    fun e he => ?_⟩
  · rw [env.logged_events, hnew]
    exact List.append_nil _
  · have hname := hofJobs e he
    rw [← hall, List.map_append, List.mem_append, List.map_map] at hname
    refine hname.resolve_right fun hother => ?_
    -- The scans of the other jobs were not begun.
    obtain ⟨j, hj, hje⟩ := List.mem_map.mp hother
    have hnone := hof ((hothers j hj).untouched.trans (List.append_nil _).symm)
    have hmem : e ∈ new.filter (·.schemeName = j.scheme.name) :=
      List.mem_filter.mpr ⟨he, by simp [hje]⟩
    rw [hnone] at hmem
    cases hmem

end Parallel

end FundRecovery.Discovery
