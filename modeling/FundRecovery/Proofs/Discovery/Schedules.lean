import FundRecovery.Discovery.Pool

/-!
# Runs of a pool are schedules

`Pool.run` follows a schedule and then lets one worker after the other move to its end. The second
part is a schedule as well, so whatever every move keeps, a run keeps.

* `Leads`: a worker comes from one stance to another by moves of its own. `leads_scanning`,
  `leads_drain`, `leads_finishWorker`: so it does on its way to its end.
* `run_eq_drive`: a run is the schedule that it follows, continued.
* `halted_run`: at its end every worker has halted.
-/

namespace FundRecovery.Discovery

/-- The worker makes no more moves. -/
def Worker.Halted : Worker → Prop
  | stopped => True
  | failed => True
  | _ => False

namespace Pool

variable {σ : Type}

/-- A worker with what its moves change: the queue, the deliveries and the world. -/
abbrev Stance (σ : Type) : Type := Worker × List Job × List Delivery × World σ

/-- `k` moves of the worker with task number `task`. -/
def moves (env : Environment σ) (scan : Job → Scan SchemeOutcome) (task : Nat) :
    Nat → Stance σ → Stance σ
  | 0, x => x
  | k + 1, (x, queue, deliveries, w) =>
    moves env scan task k (move env scan task x queue deliveries w)

/-- The worker with task number `task` comes from one stance to another by its own moves. -/
def Leads (env : Environment σ) (scan : Job → Scan SchemeOutcome) (task : Nat)
    (x y : Stance σ) : Prop :=
  ∃ k, moves env scan task k x = y

variable {env : Environment σ} {scan : Job → Scan SchemeOutcome} {task i : Nat} {p : Pool}
  {w : World σ}

theorem moves_add (j k : Nat) (x : Stance σ) :
    moves env scan task (j + k) x = moves env scan task k (moves env scan task j x) := by
  induction j generalizing x with
  | zero => rw [Nat.zero_add]; rfl
  | succ j ih => rw [Nat.succ_add]; exact ih _

theorem Leads.refl (x : Stance σ) : Leads env scan task x x := ⟨0, rfl⟩

theorem Leads.trans {x y z : Stance σ} (hxy : Leads env scan task x y)
    (hyz : Leads env scan task y z) : Leads env scan task x z := by
  obtain ⟨j, rfl⟩ := hxy
  obtain ⟨k, rfl⟩ := hyz
  exact ⟨j + k, moves_add j k x⟩

theorem Leads.move {x : Worker} {queue : List Job} {deliveries : List Delivery} {y : Stance σ}
    (h : move env scan task x queue deliveries w = y) :
    Leads env scan task (x, queue, deliveries, w) y := ⟨1, h⟩

/-! ## The way of one worker to its end -/

/-- A look at the token never crashes. -/
theorem look_eq (env : Environment σ) (w : World σ) :
    ∃ b w', env.handler .isCancelled w = (.ok b, w') := ⟨_, _, rfl⟩

/-- Where a worker stands after the scan in its hands. -/
def afterScan (env : Environment σ) (task : Nat) (queue : List Job) (deliveries : List Delivery) :
    Except Crash SchemeOutcome × World σ → Stance σ
  | (.ok o, w) => (.ready, queue, deliveries ++ [.outcome o], w)
  | (.error e, w) => (.failed, queue, deliveries ++ [.crashed env task e], w)

theorem leads_scanning (rest : Scan SchemeOutcome) (queue : List Job) (deliveries : List Delivery)
    (w : World σ) : Leads env scan task (.scanning rest, queue, deliveries, w)
      (afterScan env task queue deliveries (rest.run env.handler w)) := by
  induction rest generalizing w with
  | done o => exact .move rfl
  | ask q next ih =>
    rw [Program.run_ask]
    rcases hq : env.handler q w with ⟨e | a, w'⟩
    · exact .move (by simp only [Pool.move, hq]; rfl)
    · exact (Leads.move (by simp only [Pool.move, hq])).trans (ih a w')

theorem leads_drain (queue : List Job) (deliveries : List Delivery) (w : World σ) :
    Leads env scan task (.ready, queue, deliveries, w)
      (drain env scan task deliveries w queue) := by
  induction queue generalizing deliveries w with
  | nil =>
    obtain ⟨b, w', hl⟩ := look_eq env w
    rw [drain, hl]
    cases b with
    | true => exact .move (by simp only [Pool.move, hl])
    | false =>
      have hd : Leads env scan task (.ready, [], deliveries, w) (.dequeuing, [], deliveries, w') :=
        .move (by simp only [Pool.move, hl])
      exact hd.trans (.move rfl)
  | cons job queue ih =>
    obtain ⟨b, w', hl⟩ := look_eq env w
    rw [drain, hl]
    cases b with
    | true => exact .move (by simp only [Pool.move, hl])
    | false =>
      have hd : Leads env scan task (.ready, job :: queue, deliveries, w)
          (.dequeuing, job :: queue, deliveries, w') := .move (by simp only [Pool.move, hl])
      have hs : Leads env scan task (.dequeuing, job :: queue, deliveries, w') _ :=
        (Leads.move rfl).trans (leads_scanning (scan job) queue deliveries w')
      refine (hd.trans hs).trans ?_
      dsimp only
      rcases (scan job).run env.handler w' with ⟨e | o, w₁⟩
      · exact .refl _
      · exact ih _ _

theorem leads_finishWorker (x : Worker) (queue : List Job) (deliveries : List Delivery)
    (w : World σ) : Leads env scan task (x, queue, deliveries, w)
      (finishWorker env scan task x queue deliveries w) := by
  have finishScan (rest : Scan SchemeOutcome) (queue : List Job) :
      Leads env scan task (.scanning rest, queue, deliveries, w)
        (match rest.run env.handler w with
        | (.ok o, w) => drain env scan task (deliveries ++ [.outcome o]) w queue
        | (.error e, w) => (.failed, queue, deliveries ++ [.crashed env task e], w)) := by
    refine (leads_scanning rest queue deliveries w).trans ?_
    rcases rest.run env.handler w with ⟨e | o, w₁⟩
    · exact .refl _
    · exact leads_drain _ _ _
  cases x with
  | ready => exact leads_drain queue deliveries w
  | dequeuing =>
    cases queue with
    | nil => exact .move rfl
    | cons job queue => exact (Leads.move rfl).trans (finishScan (scan job) queue)
  | scanning rest => exact finishScan rest queue
  | stopped => exact .refl _
  | failed => exact .refl _

theorem halted_drain (queue : List Job) (deliveries : List Delivery) (w : World σ) :
    (drain env scan task deliveries w queue).1.Halted := by
  induction queue generalizing deliveries w with
  | nil => trivial
  | cons job queue ih =>
    simp only [drain]
    split
    · split
      · exact ih _ _
      · trivial
    · trivial

theorem halted_finishWorker (x : Worker) (queue : List Job) (deliveries : List Delivery)
    (w : World σ) : (finishWorker env scan task x queue deliveries w).1.Halted := by
  cases x with
  | ready => exact halted_drain queue deliveries w
  | dequeuing =>
    cases queue with
    | nil => trivial
    | cons job queue =>
      simp only [finishWorker]
      split
      · exact halted_drain ..
      · trivial
  | scanning rest =>
    simp only [finishWorker]
    split
    · exact halted_drain ..
    · trivial
  | stopped => trivial
  | failed => trivial

/-! ## The way of a pool to its end -/

theorem drive_append (a b : List Nat) (s : Pool × World σ) :
    drive env scan (a ++ b) s = drive env scan b (drive env scan a s) := List.foldl_append

/-- The pool where worker `i` stands in stance `x`. -/
def withStance (p : Pool) (i : Nat) (x : Stance σ) : Pool × World σ :=
  ({ p with queue := x.2.1, workers := p.workers.set i x.1, deliveries := x.2.2.1 }, x.2.2.2)

theorem step_eq {x : Worker} (hx : p.workers[i]? = some x) :
    step env scan i (p, w) =
      withStance p i (move env scan (p.firstTask + i) x p.queue p.deliveries w) := by
  simp only [step, hx, withStance]

/-- What a worker does by itself is a schedule in which it moves alone. -/
theorem drive_leads {x : Worker} (hx : p.workers[i]? = some x) {y : Stance σ}
    (h : Leads env scan (p.firstTask + i) (x, p.queue, p.deliveries, w) y) :
    ∃ schedule, drive env scan schedule (p, w) = withStance p i y := by
  obtain ⟨k, rfl⟩ := h
  refine ⟨List.replicate k i, ?_⟩
  induction k generalizing p w x with
  | zero =>
    obtain ⟨hi, rfl⟩ := List.getElem?_eq_some_iff.mp hx
    simp only [List.replicate_zero, moves, withStance, List.set_getElem_self]
    rfl
  | succ k ih =>
    have hi : i < p.workers.length := (List.getElem?_eq_some_iff.mp hx).1
    rw [List.replicate_succ, drive, List.foldl_cons, step_eq hx]
    rcases hm : move env scan (p.firstTask + i) x p.queue p.deliveries w with
      ⟨x', queue, deliveries, w'⟩
    have hset : (p.workers.set i x')[i]? = some x' := by simp [hi]
    have h := ih (p := { p with queue, workers := p.workers.set i x', deliveries }) (w := w') hset
    simp only [drive] at h
    simp only [withStance, h, moves, hm, List.set_set]

theorem drive_finishWorkers (pre rest : List Worker) (h : p.workers = pre ++ rest) :
    ∃ schedule, drive env scan schedule (p, w) =
      match finishWorkers env scan (p.firstTask + pre.length) p.queue p.deliveries w rest with
      | (rest, queue, deliveries, w) =>
        ({ p with queue, workers := pre ++ rest, deliveries }, w) := by
  induction rest generalizing pre p w with
  | nil => exact ⟨[], by simp [drive, finishWorkers, ← h]⟩
  | cons x rest ih =>
    have hx : p.workers[pre.length]? = some x := by simp [h]
    have hleads : Leads env scan (p.firstTask + pre.length) (x, p.queue, p.deliveries, w) _ :=
      leads_finishWorker x p.queue p.deliveries w
    obtain ⟨first, hfirst⟩ := drive_leads hx hleads
    rcases hf : finishWorker env scan (p.firstTask + pre.length) x p.queue p.deliveries w with
      ⟨x', queue, deliveries, w'⟩
    rw [hf] at hfirst
    have hset : p.workers.set pre.length x' = (pre ++ [x']) ++ rest := by simp [h]
    obtain ⟨others, hothers⟩ :=
      ih (p := { p with queue, workers := p.workers.set pre.length x', deliveries }) (w := w')
        (pre ++ [x']) hset
    refine ⟨first ++ others, ?_⟩
    rw [drive_append, hfirst, withStance, hothers]
    simp only [finishWorkers, hf, List.length_append, List.length_singleton, Nat.add_assoc,
      List.append_assoc, List.singleton_append]

/-- Finishing a pool is a schedule. -/
theorem finish_eq_drive (env : Environment σ) (scan : Job → Scan SchemeOutcome)
    (s : Pool × World σ) :
    ∃ schedule, finish env scan s = drive env scan schedule s := by
  obtain ⟨p, w⟩ := s
  obtain ⟨schedule, h⟩ : ∃ schedule, drive env scan schedule (p, w) = _ :=
    drive_finishWorkers [] p.workers rfl
  exact ⟨schedule, by rw [h]; simp [finish]⟩

theorem halted_finishWorkers (queue : List Job) (deliveries : List Delivery) (w : World σ)
    (workers : List Worker) :
    ∀ x ∈ (finishWorkers env scan task queue deliveries w workers).1, x.Halted := by
  induction workers generalizing task queue deliveries w with
  | nil => simp [finishWorkers]
  | cons x rest ih =>
    intro y hy
    rcases List.mem_cons.mp hy with rfl | hy
    · exact halted_finishWorker ..
    · exact ih _ _ _ y hy

/-! ## Runs -/

/-- The pool and the world at the start of a run. -/
def opening (workerCount : Nat) (jobs : List Job) (w : World σ) : Pool × World σ :=
  (start (w.tasks + 1) workerCount jobs, { w with tasks := w.tasks + workerCount })

/-- **A run is a schedule:** the one it is given, continued until every worker has halted. -/
theorem run_eq_drive (env : Environment σ) (scan : Job → Scan SchemeOutcome) (workerCount : Nat)
    (jobs : List Job) (schedule : List Nat) (w : World σ) :
    ∃ rest, run env scan workerCount jobs schedule w =
      drive env scan (schedule ++ rest) (opening workerCount jobs w) := by
  obtain ⟨rest, h⟩ :=
    finish_eq_drive env scan (drive env scan schedule (opening workerCount jobs w))
  exact ⟨rest, by rw [drive_append, ← h]; rfl⟩

theorem halted_run (env : Environment σ) (scan : Job → Scan SchemeOutcome) (workerCount : Nat)
    (jobs : List Job) (schedule : List Nat) (w : World σ) :
    ∀ x ∈ (run env scan workerCount jobs schedule w).1.workers, x.Halted :=
  halted_finishWorkers _ _ _ _

end Pool

end FundRecovery.Discovery
