import FundRecovery.Proofs.Discovery.PoolOutcomes

/-!
# Pools whose workers crash

A scan that crashes ends its worker with it, and the others go on with the queue. Where it depends
on the calls alone which of them crash, every schedule reaches the same jobs: those before which
fewer scans crash than there are workers. When no worker is left, what is still queued is dropped.

* `Environment.AnswersUnless fails answer`: calls crash or are answered, by the calls alone.
  `Scan.crash?`: what a program runs into there, and `AnswersUnless.run`: so it ends.
* `Pool.reached`: the jobs that a number of workers get to, in order.
* `Pool.Advances`: the jobs taken so far are among these. `Ledger.advances_step`: a worker that
  takes a job is none of those whose scans crash.
* `Pool.run_crashing`: what a pool hands over, whatever the schedule.
-/

namespace FundRecovery.Discovery

variable {σ α : Type} {fails : Call → Option Crash} {answer : (c : Call) → c.Answer}

/-! ## Programs that run into a crash -/

/-- A call crashes or is answered, and both depend on the call alone. -/
def Environment.AnswersUnless (env : Environment σ) (fails : Call → Option Crash)
    (answer : (c : Call) → c.Answer) : Prop :=
  ∀ c s, (env.reply c s).answer = (fails c).elim (.ok (answer c)) .error

/-- Some calls crash, the others have fixed answers, and nobody cancels the token. -/
def Environment.crashing (fails : Call → Option Crash) (answer : (c : Call) → c.Answer) :
    Environment Unit where
  reply c _ := ⟨(fails c).elim (.ok (answer c)) .error, (), false⟩
  interrupt _ := (false, ())
  taskError _ crash := crash.message

theorem Environment.answersUnless_crashing : (crashing fails answer).AnswersUnless fails answer :=
  fun _ _ => rfl

theorem Environment.uncancelled_crashing : (crashing fails answer).Uncancelled :=
  ⟨fun _ _ => rfl, fun _ => rfl⟩

/-- The crash of a call, if it crashes; looks at the token never do. -/
def Request.crash? (fails : Call → Option Crash) : Request → Option Crash
  | call c => fails c
  | isCancelled => none

/-- The crash of the first call that crashes, where the calls before it are answered. -/
def Scan.crash? (fails : Call → Option Crash) (answer : (c : Call) → c.Answer) (p : Scan α) :
    Option Crash :=
  (p.issued answer).findSome? fails

@[simp] theorem Scan.crash?_ask (q : Request) (next : q.Answer → Scan α) :
    crash? fails answer (.ask q next) =
      (q.crash? fails).or ((next (Request.fixed answer q)).crash? fails answer) := by
  cases q with
  | call c =>
    rw [crash?, issued_ask, calls_call, calls_nil, List.singleton_append, List.findSome?_cons]
    cases hc : fails c <;> simp [Request.crash?, hc, crash?]
  | isCancelled => rw [crash?, issued_ask]; rfl

namespace Environment.AnswersUnless

variable {env : Environment σ} {w : World σ}

/-- One request: its crash or the fixed answer, and an untouched token. -/
theorem handler (h : env.AnswersUnless fails answer) (hu : env.Uncancelled) (q : Request)
    (hw : w.cancelled = false) :
    ∃ w', env.handler q w = ((q.crash? fails).elim (.ok (Request.fixed answer q)) .error, w') ∧
      w'.cancelled = false := by
  cases q with
  | call c => exact ⟨_, Prod.ext (h c w.state) rfl, by simp [Environment.handler, hw, hu.reply]⟩
  | isCancelled =>
    have hlook : (env.handler .isCancelled w).2.cancelled = false := by
      simp [Environment.handler, hw, hu.interrupt]
    exact ⟨_, Prod.ext (congrArg Except.ok hlook) rfl, hlook⟩

/-- A program ends in the crash that it runs into, or else in its value. -/
theorem run (h : env.AnswersUnless fails answer) (hu : env.Uncancelled) (p : Scan α)
    (hw : w.cancelled = false) :
    ∃ w', p.run env.handler w = ((p.crash? fails answer).elim (.ok (p.value answer)) .error, w') ∧
      w'.cancelled = false := by
  induction p generalizing w with
  | done a => exact ⟨w, rfl, hw⟩
  | ask q next ih =>
    obtain ⟨w₁, hq, hw₁⟩ := h.handler hu q hw
    rw [Program.run_ask, hq, Scan.crash?_ask, Scan.value_ask]
    cases q.crash? fails with
    | some e => exact ⟨w₁, rfl, hw₁⟩
    | none => exact ih _ hw₁

end Environment.AnswersUnless

/-- What is left of a program ends as the whole does. -/
structure EndsAs (fails : Call → Option Crash) (answer : (c : Call) → c.Answer)
    (p rest : Scan α) : Prop where
  value : rest.value answer = p.value answer
  crash? : rest.crash? fails answer = p.crash? fails answer

theorem tracks_endsAs {env : Environment σ} (h : env.AnswersUnless fails answer)
    (hu : env.Uncancelled) (scan : Job → Scan SchemeOutcome) (jobs : List Job) :
    Tracks env jobs (·.cancelled = false) (fun j rest _ => EndsAs fails answer (scan j) rest)
      fun j e => (scan j).crash? fails answer = some e where
  inv {j q next w} _ hw _ := by
    obtain ⟨w', hq, hw'⟩ := h.handler hu q hw
    rwa [hq]
  answered {j q next w a w'} _ hw hs ha := by
    obtain ⟨w₁, hq, -⟩ := h.handler hu q hw
    have hcrash := hs.crash?
    have hvalue := hs.value
    rw [hq] at ha
    rw [Scan.crash?_ask] at hcrash
    cases hfails : q.crash? fails with
    | some e => simp [hfails] at ha
    | none =>
      obtain rfl : Request.fixed answer q = a := by simpa [hfails] using congrArg Prod.fst ha
      rw [hfails, Option.none_or] at hcrash
      exact ⟨hvalue, hcrash⟩
  crashed {j q next w e w'} _ hw hs he := by
    obtain ⟨w₁, hq, -⟩ := h.handler hu q hw
    rw [hq] at he
    rw [← hs.crash?, Scan.crash?_ask]
    cases hfails : q.crash? fails with
    | some e' =>
      obtain rfl : e' = e := by simpa [hfails] using congrArg Prod.fst he
      rfl
    | none => simp [hfails] at he
  frame _ _ _ _ _ hs := hs
  invLook {w} hw := by
    obtain ⟨w', hq, hw'⟩ := h.handler hu .isCancelled hw
    rwa [hq]
  look _ _ hs := hs

namespace Pool

/-! ## The jobs that are reached -/

/-- The jobs that `workers` get to, in order, if each worker ends with the first of its jobs that
crashes. -/
def reached (crashes : Job → Bool) (workers : Nat) : List Job → List Job
  | [] => []
  | j :: rest =>
    match workers with
    | 0 => []
    | n + 1 => j :: reached crashes (if crashes j then n else n + 1) rest

section Reached

variable {crashes : Job → Bool} {n : Nat} {jobs taken rest : List Job} {j : Job}

@[simp] theorem reached_zero (jobs : List Job) : reached crashes 0 jobs = [] := by
  cases jobs <;> rfl

/-- Jobs that crash leave fewer workers to those after them. -/
theorem reached_append (first rest : List Job) :
    reached crashes n (first ++ rest) =
      reached crashes n first ++ reached crashes (n - first.countP crashes) rest := by
  induction first generalizing n with
  | nil => rfl
  | cons j first ih =>
    cases n with
    | zero => simp
    | succ n =>
      rw [List.cons_append, reached, reached, ih, List.cons_append, List.countP_cons]
      congr 3
      split <;> omega

/-- With fewer crashes than workers, all jobs are reached. -/
theorem reached_eq_self (h : jobs.countP crashes < n) : reached crashes n jobs = jobs := by
  induction jobs generalizing n with
  | nil => rfl
  | cons j rest ih =>
    rw [List.countP_cons] at h
    obtain ⟨m, rfl⟩ : ∃ m, n = m + 1 := ⟨n - 1, by omega⟩
    have hrest : rest.countP crashes < if crashes j then m else m + 1 := by grind
    rw [reached, ih hrest]

theorem reached_isPrefix (jobs : List Job) : reached crashes n jobs <+: jobs := by
  induction jobs generalizing n with
  | nil => exact List.prefix_rfl
  | cons j rest ih =>
    cases n with
    | zero => exact List.nil_prefix
    | succ n => exact List.cons_prefix_cons.mpr ⟨rfl, ih⟩

/-- A job is reached if fewer jobs before it crash than there are workers. -/
theorem append_singleton_prefix_reached (h : taken.countP crashes < n) :
    taken ++ [j] <+: reached crashes n (taken ++ j :: rest) := by
  obtain ⟨m, hm⟩ : ∃ m, n - taken.countP crashes = m + 1 := ⟨n - taken.countP crashes - 1, by omega⟩
  rw [reached_append, reached_eq_self h, hm, reached]
  exact (List.prefix_append_right_inj taken).mpr (List.cons_prefix_cons.mpr ⟨rfl, List.nil_prefix⟩)

/-- No job is reached after as many crashes as there are workers. -/
theorem reached_append_of_le (h : n ≤ taken.countP crashes) :
    reached crashes n (taken ++ rest) = reached crashes n taken := by
  rw [reached_append, Nat.sub_eq_zero_of_le h, reached_zero, List.append_nil]

/-- Jobs that are taken as long as they are reached are those that are. -/
theorem reached_eq_taken (hreach : taken <+: reached crashes n (taken ++ rest))
    (hend : rest = [] ∨ n ≤ taken.countP crashes) : reached crashes n (taken ++ rest) = taken := by
  have hle : reached crashes n (taken ++ rest) <+: taken := by
    rcases hend with rfl | hle
    · rw [List.append_nil]
      exact reached_isPrefix taken
    · rw [reached_append_of_le hle]
      exact reached_isPrefix taken
  exact hle.sublist.antisymm hreach.sublist

end Reached

/-! ## The account of crashes -/

section Account

variable {env : Environment σ} {scan : Job → Scan SchemeOutcome} {jobs : List Job}
  {Inv : World σ → Prop} {Stands : Job → Scan SchemeOutcome → World σ → Prop}
  {Lost : Job → Crash → Prop} {crew others : List (Worker × Option Job)} {held : Option Job}
  {settled : List (Job × Delivery)} {p : Pool} {w : World σ} {crashes : Job → Bool}
  {value : Job → SchemeOutcome}

/-- It is settled beforehand which jobs crash, and what the others come to. -/
structure Foreseen (Stands : Job → Scan SchemeOutcome → World σ → Prop) (Lost : Job → Crash → Prop)
    (crashes : Job → Bool) (value : Job → SchemeOutcome) : Prop where
  done : ∀ {j o w}, Stands j (.done o) w → o = value j ∧ crashes j = false
  lost : ∀ {j e}, Lost j e → crashes j = true

/-- The jobs taken off the queue are among those that `n` workers reach. -/
def Advances (crashes : Job → Bool) (n : Nat) (jobs queue : List Job) : Prop :=
  ∃ taken, taken ++ queue = jobs ∧ taken <+: reached crashes n jobs

/-- Answers and crashes that depend on the calls alone decide it. -/
theorem foreseen_endsAs (scan : Job → Scan SchemeOutcome) :
    Foreseen (σ := σ) (fun j rest _ => EndsAs fails answer (scan j) rest)
      (fun j e => (scan j).crash? fails answer = some e)
      (fun j => ((scan j).crash? fails answer).isSome) fun j => (scan j).value answer where
  done {j o w} hs := by
    have hcrash : none = (scan j).crash? fails answer := hs.crash?
    exact ⟨hs.value, by rw [← hcrash]; rfl⟩
  lost {j e} he := by rw [he]; rfl

/-- Jobs are settled by their outcomes, or by a failure if they crash. -/
theorem Foreseen.settled_split (hf : Foreseen Stands Lost crashes value)
    (h : ∀ x ∈ settled, Settles env Stands Lost w x.1 x.2) :
    settled.filterMap (·.2.outcome?) =
        ((settled.map (·.1)).filter fun j => !crashes j).map value ∧
      List.Forall₂ (fun j f => ∃ task e, Lost j e ∧ .failure f = Delivery.crashed env task e)
        ((settled.map (·.1)).filter crashes) (settled.filterMap (·.2.failure?)) := by
  induction settled with
  | nil => exact ⟨rfl, .nil⟩
  | cons x rest ih =>
    obtain ⟨j, d⟩ := x
    obtain ⟨hfirst, hrest⟩ := List.forall_mem_cons.mp h
    obtain ⟨houtcomes, hfailures⟩ := ih hrest
    rcases hfirst with ⟨o, rfl, hs⟩ | ⟨task, e, rfl, hl⟩
    · obtain ⟨ho, hj⟩ : o = value j ∧ crashes j = false := hf.done hs
      simp only [List.map_cons, List.filterMap_cons, Delivery.outcome?, Delivery.failure?, hj,
        List.filter_cons, Bool.not_false, ↓reduceIte, Bool.false_eq_true, ho]
      exact ⟨congrArg (value j :: ·) houtcomes, hfailures⟩
    · have hj : crashes j = true := hf.lost hl
      simp only [List.map_cons, List.filterMap_cons, Delivery.crashed, Delivery.outcome?,
        Delivery.failure?, hj, List.filter_cons, Bool.not_true, ↓reduceIte, Bool.false_eq_true]
      exact ⟨houtcomes, .cons ⟨task, e, hl, rfl⟩ hfailures⟩

/-- A worker holds a job or has failed, but not both. -/
theorem countP_held_le (crashes : Job → Bool) {P : Job → Scan SchemeOutcome → Prop}
    (h : ∀ x ∈ crew, x.1.Holds P x.2) :
    (crew.filterMap (·.2)).countP crashes + (crew.map (·.1)).countP Worker.isFailed ≤
      crew.length := by
  induction crew with
  | nil => exact Nat.le_refl _
  | cons x rest ih =>
    obtain ⟨y, held⟩ := x
    obtain ⟨hfirst, hrest⟩ := List.forall_mem_cons.mp h
    have hle := ih hrest
    have hone : (held.toList.countP crashes) + (if y.isFailed then 1 else 0) ≤ 1 := by
      cases y with
      | scanning p =>
        obtain ⟨j, rfl, -⟩ := hfirst
        simp [Worker.isFailed, List.countP_cons]
        split <;> omega
      | _ =>
        obtain rfl : held = none := hfirst
        simp [Worker.isFailed]
    have hsplit : ((y, held) :: rest).filterMap (·.2) = held.toList ++ rest.filterMap (·.2) := by
      cases held <;> rfl
    simp only [hsplit, List.countP_append, List.map_cons, List.countP_cons, List.length_cons]
    omega

theorem queue_move {x : Worker} (hx : x ≠ .dequeuing) (task : Nat) (queue : List Job)
    (deliveries : List Delivery) (w : World σ) :
    (move env scan task x queue deliveries w).2.1 = queue := by
  cases x with
  | ready => simp only [move]; split <;> rfl
  | dequeuing => exact absurd rfl hx
  | scanning rest =>
    cases rest with
    | done o => rfl
    | ask q next => simp only [move]; split <;> rfl
  | stopped => rfl
  | failed => rfl

variable (hf : Foreseen Stands Lost crashes value)

include hf

/-- As many jobs have crashed as workers have failed. -/
theorem Ledger.countP_settled (h : Ledger env jobs Inv Stands Lost scan crew settled p w) :
    (settled.map (·.1)).countP crashes = p.workers.countP Worker.isFailed := by
  have hsplit := (hf.settled_split h.settles).2.length_eq
  rw [List.countP_eq_length_filter, hsplit, ← h.failed, failures, h.deliveries,
    List.filterMap_map]
  rfl

/-- A worker that is about to take a job is none of those whose jobs crash. -/
theorem Ledger.countP_taken_lt
    (h : Ledger env jobs Inv Stands Lost scan ((.dequeuing, held) :: others) settled p w)
    {taken : List Job} (ht : taken ++ p.queue = jobs) :
    taken.countP crashes < p.workers.length := by
  obtain rfl : held = none := h.holds _ List.mem_cons_self
  obtain ⟨taken', ht', hperm⟩ := h.taken
  obtain rfl : taken = taken' := List.append_cancel_right (ht.trans ht'.symm)
  have hsettled : (settled.map (·.1)).countP crashes = (others.map (·.1)).countP Worker.isFailed :=
    (h.countP_settled hf).trans (h.workers.countP_eq _)
  have hheld := countP_held_le crashes fun x hx => h.holds x (List.mem_cons_of_mem _ hx)
  have hlength := h.workers.length_eq
  rw [List.length_map, List.length_cons] at hlength
  rw [hperm.countP_eq, List.countP_append, hsettled, List.filterMap_cons_none rfl]
  omega

/-- A worker takes a job only if it is reached. -/
theorem Ledger.advances_step (h : Ledger env jobs Inv Stands Lost scan crew settled p w)
    (ha : Advances crashes p.workers.length jobs p.queue) (i : Nat) :
    Advances crashes p.workers.length jobs (Pool.step env scan i (p, w)).1.queue := by
  cases hx : p.workers[i]? with
  | none => simpa only [Pool.step, hx] using ha
  | some x =>
    rw [step_eq hx]
    show Advances crashes p.workers.length jobs
      (move env scan (p.firstTask + i) x p.queue p.deliveries w).2.1
    by_cases hdequeuing : x = .dequeuing
    · obtain ⟨held, others, hledger, -⟩ := h.focus hx
      subst hdequeuing
      obtain ⟨taken, ht, hreach⟩ := ha
      have hroom := hledger.countP_taken_lt hf ht
      cases hqueue : p.queue with
      | nil =>
        rw [hqueue] at ht
        exact ⟨taken, ht, hreach⟩
      | cons j queue =>
        rw [hqueue] at ht
        refine ⟨taken ++ [j], (List.append_cons taken j queue).symm.trans ht, ?_⟩
        rw [← ht]
        exact append_singleton_prefix_reached hroom
    · rwa [queue_move hdequeuing]

/-- Whatever the schedule, the jobs taken off the queue are reached. -/
theorem advances_drive (hr : Tracks env jobs Inv Stands Lost) (hn : jobs.Nodup)
    (schedule : List Nat) {s : Pool × World σ} (h : Accounted env jobs Inv Stands Lost scan s)
    (ha : Advances crashes s.1.workers.length jobs s.1.queue) :
    Advances crashes s.1.workers.length jobs (drive env scan schedule s).1.queue := by
  induction schedule generalizing s with
  | nil => exact ha
  | cons i schedule ih =>
    obtain ⟨crew, settled, h⟩ := h
    have hlength : (Pool.step env scan i s).1.workers.length = s.1.workers.length :=
      length_workers_drive env scan [i] s
    have hrest := ih (h.step hr hn i) (hlength ▸ h.advances_step hf ha i)
    rwa [hlength] at hrest

/-- **At the end of a run the jobs that are reached are settled,** unless the token was
cancelled. -/
theorem settled_run (hr : Tracks env jobs Inv Stands Lost) (hn : jobs.Nodup) (workerCount : Nat)
    (schedule : List Nat) {w w' : World σ} (hi : Inv (opening workerCount jobs w).2)
    (hs : ∀ j ∈ jobs, Stands j (scan j) (opening workerCount jobs w).2)
    (hp : run env scan workerCount jobs schedule w = (p, w')) (hgoing : w'.cancelled = false) :
    ∃ settled : List (Job × Delivery), p.deliveries = settled.map (·.2) ∧
      (settled.map (·.1)).Perm (reached crashes workerCount jobs) ∧
      ∀ x ∈ settled, Settles env Stands Lost w' x.1 x.2 := by
  obtain ⟨settled, hdel, ⟨taken, rfl, hperm⟩, hsettles, -, -, hend⟩ :=
    accounted_run hr hn workerCount schedule w hi hs hp
  obtain ⟨taken', htaken', hreach⟩ :
      Advances crashes workerCount (taken ++ p.queue) p.queue := by
    obtain ⟨rest, hdrive⟩ := run_eq_drive env scan workerCount (taken ++ p.queue) schedule w
    have hstart : (opening workerCount (taken ++ p.queue) w).1.workers.length = workerCount := by
      simp [opening, start]
    have hadvances := advances_drive hf hr hn (schedule ++ rest)
      (accounted_opening workerCount w hi hs) ⟨[], rfl, List.nil_prefix⟩
    rwa [← hdrive, hp, hstart] at hadvances
  obtain rfl : taken' = taken := List.append_cancel_right htaken'
  refine ⟨settled, hdel, ?_, hsettles⟩
  rw [reached_eq_taken hreach]
  · exact hperm.symm
  rcases hend with hq | hc | hall
  · exact .inl hq
  · rw [hgoing] at hc
    cases hc
  · -- Every worker has failed, each over a job of its own.
    have hfailed := (hf.settled_split hsettles).2.length_eq
    rw [failures, hdel, List.filterMap_map] at hall
    rw [hperm.countP_eq, List.countP_eq_length_filter, hfailed]
    exact .inr (Nat.le_of_eq hall.symm)

end Account

/-! ## Runs -/

/-- What a pool hands over of the jobs `first`, some of which crash: the outcomes of the others, in
order, and a failure of a worker for each that crashes. -/
structure Survives (env : Environment σ) (crash? : Job → Option Crash)
    (value : Job → SchemeOutcome) (first : List Job) (p : Pool) : Prop where
  outcomes : p.sortedOutcomes = (first.filter fun j => (crash? j).isNone).map value
  failures : ∃ crashed, crashed.Perm (first.filter fun j => (crash? j).isSome) ∧
    List.Forall₂ (fun j f => ∃ task e, crash? j = some e ∧ .failure f = Delivery.crashed env task e)
      crashed p.failures

/-- **Every schedule reaches the same jobs,** those that come before the crashes have ended all
workers, and the outcome of each is that of its scan alone. -/
theorem run_crashing {env : Environment σ} (h : env.AnswersUnless fails answer)
    (hu : env.Uncancelled) (scan : Job → Scan SchemeOutcome) (jobs : List Job)
    (hindex : ∀ j ∈ jobs, ((scan j).value answer).priorityIndex = j.priorityIndex)
    (hsorted : jobs.Pairwise fun a b => a.priorityIndex < b.priorityIndex) (workerCount : Nat)
    (schedule : List Nat) {w : World σ} (hw : w.cancelled = false) :
    ∃ p w', run env scan workerCount jobs schedule w = (p, w') ∧ w'.cancelled = false ∧
      Survives env (fun j => (scan j).crash? fails answer) (fun j => (scan j).value answer)
        (reached (fun j => ((scan j).crash? fails answer).isSome) workerCount jobs) p := by
  rcases hrun : run env scan workerCount jobs schedule w with ⟨p, w'⟩
  have hnodup : jobs.Nodup := hsorted.imp fun hlt he => by simp [he] at hlt
  have htracks : Tracks env jobs _ _ _ := tracks_endsAs h hu scan jobs
  have hopen : ∀ j ∈ jobs, EndsAs fails answer (scan j) (scan j) := fun _ _ => ⟨rfl, rfl⟩
  have hw' : w'.cancelled = false := by
    obtain ⟨-, -, -, -, -, hinv, -⟩ :=
      accounted_run htracks hnodup workerCount schedule w hw hopen hrun
    exact hinv
  obtain ⟨settled, hdel, hperm, hsettles⟩ := settled_run (foreseen_endsAs scan) htracks hnodup
    workerCount schedule hw hopen hrun hw'
  obtain ⟨houtcomes, hfailures⟩ := (foreseen_endsAs scan).settled_split hsettles
  simp only [Option.not_isSome] at houtcomes
  refine ⟨p, w', rfl, hw', ?_, _, hperm.filter _, ?_⟩
  · have harrived : p.outcomes = ((settled.map (·.1)).filter fun j =>
        ((scan j).crash? fails answer).isNone).map fun j => (scan j).value answer := by
      rw [Pool.outcomes, hdel, List.filterMap_map]
      exact houtcomes
    refine mergeSort_outcomes (harrived ▸ (hperm.filter _).map _) ?_
    have hsub : ((reached (fun j => ((scan j).crash? fails answer).isSome) workerCount jobs).filter
        fun j => ((scan j).crash? fails answer).isNone).Sublist jobs :=
      List.filter_sublist.trans (reached_isPrefix jobs).sublist
    refine pairwise_of_forall₂ ?_ (hsorted.sublist hsub)
    exact List.forall₂_map_right_iff.mpr (List.forall₂_same.mpr fun j hj =>
      hindex j (hsub.subset hj))
  · rw [Pool.failures, hdel, List.filterMap_map]
    exact hfailures

end Pool

end FundRecovery.Discovery
