import FundRecovery.Discovery.Scanner

/-!
# Worker pools

Workers take jobs off one queue, first in first out, and hand over the outcomes. They interleave in
any way: a schedule says which worker moves next, and a move is one look at the token, one job
taken, one request of a scan or one outcome handed over. A worker whose scan crashes leaves a
failure and takes no more jobs; the outcome of its job is lost.

Every worker runs as a task of its own. Tasks are numbered from 1 in the order in which they start,
over all pools; a failure tells what the runtime says of the task it comes from.

* `Pool.step`: one move of one worker.
* `Pool.drive`: the moves of a schedule.
* `Pool.finish`: lets one worker after the other move to its end.
* `Pool.run`: a schedule, then whatever is left.
* `Pool.sortedOutcomes`, `Pool.failures`: what the workers handed over.
-/

namespace FundRecovery.Discovery

/-- One scheme to scan. -/
structure Job where
  scheme : PathScheme
  gapLimit : UInt32
  priorityIndex : Nat
  deriving DecidableEq, Repr

/-- Where a worker stands. -/
inductive Worker where
  /-- About to look at the token. -/
  | ready
  /-- About to take a job. -/
  | dequeuing
  /-- In the middle of a scan. -/
  | scanning (rest : Scan SchemeOutcome)
  | stopped
  /-- Its scan crashed. -/
  | failed

/-- What a worker hands over: outcomes of scans, and a failure if a scan of its crashes. -/
inductive Delivery where
  | outcome (o : SchemeOutcome)
  | failure (f : ScanFailure)
  deriving DecidableEq, Repr

namespace Delivery

def outcome? : Delivery → Option SchemeOutcome
  | outcome o => some o
  | failure _ => none

def failure? : Delivery → Option ScanFailure
  | outcome _ => none
  | failure f => some f

/-- What is left of the worker with task number `task` after a crash. -/
def crashed {σ : Type} (env : Environment σ) (task : Nat) (crash : Crash) : Delivery :=
  failure (.general ("scan worker failed: " ++ env.taskError task crash))

end Delivery

structure Pool where
  queue : List Job
  workers : List Worker
  /-- What was handed over, in order of arrival. -/
  deliveries : List Delivery
  /-- The number of the first worker's task; the others follow. -/
  firstTask : Nat

namespace Pool

variable {σ : Type}

def start (firstTask workerCount : Nat) (jobs : List Job) : Pool :=
  ⟨jobs, List.replicate workerCount .ready, [], firstTask⟩

/-- One move of the worker with task number `task` that stands at `w`. -/
def move (env : Environment σ) (scan : Job → Scan SchemeOutcome) (task : Nat) (w : Worker)
    (queue : List Job) (deliveries : List Delivery) (world : World σ) :
    Worker × List Job × List Delivery × World σ :=
  match w with
  | .ready =>
    match env.handler .isCancelled world with
    | (.ok false, world) => (.dequeuing, queue, deliveries, world)
    | (_, world) => (.stopped, queue, deliveries, world)
  | .dequeuing =>
    match queue with
    | [] => (.stopped, [], deliveries, world)
    | job :: queue => (.scanning (scan job), queue, deliveries, world)
  | .scanning (.done o) => (.ready, queue, deliveries ++ [.outcome o], world)
  | .scanning (.ask q next) =>
    match env.handler q world with
    | (.ok answer, world) => (.scanning (next answer), queue, deliveries, world)
    | (.error e, world) => (.failed, queue, deliveries ++ [.crashed env task e], world)
  | .stopped => (.stopped, queue, deliveries, world)
  | .failed => (.failed, queue, deliveries, world)

/-- One move of worker `i`, counted from 0, if there is one. -/
def step (env : Environment σ) (scan : Job → Scan SchemeOutcome) (i : Nat) :
    Pool × World σ → Pool × World σ
  | (p, world) =>
    match p.workers[i]? with
    | none => (p, world)
    | some w =>
      let (w, queue, deliveries, world) :=
        move env scan (p.firstTask + i) w p.queue p.deliveries world
      ({ p with queue, workers := p.workers.set i w, deliveries }, world)

/-- The moves of a schedule. -/
def drive (env : Environment σ) (scan : Job → Scan SchemeOutcome) (schedule : List Nat)
    (start : Pool × World σ) : Pool × World σ :=
  schedule.foldl (fun s i => step env scan i s) start

/-- Lets a worker that is about to look at the token move to its end. -/
def drain (env : Environment σ) (scan : Job → Scan SchemeOutcome) (task : Nat)
    (deliveries : List Delivery) (world : World σ) :
    List Job → Worker × List Job × List Delivery × World σ
  | [] => (.stopped, [], deliveries, (env.handler .isCancelled world).2)
  | job :: queue =>
    match env.handler .isCancelled world with
    | (.ok false, world) =>
      match (scan job).run env.handler world with
      | (.ok o, world) => drain env scan task (deliveries ++ [.outcome o]) world queue
      | (.error e, world) => (.failed, queue, deliveries ++ [.crashed env task e], world)
    | (_, world) => (.stopped, job :: queue, deliveries, world)

/-- Lets a worker move to its end from wherever it stands. -/
def finishWorker (env : Environment σ) (scan : Job → Scan SchemeOutcome) (task : Nat) (w : Worker)
    (queue : List Job) (deliveries : List Delivery) (world : World σ) :
    Worker × List Job × List Delivery × World σ :=
  let finishScan (rest : Scan SchemeOutcome) (queue : List Job) :=
    match rest.run env.handler world with
    | (.ok o, world) => drain env scan task (deliveries ++ [.outcome o]) world queue
    | (.error e, world) => (.failed, queue, deliveries ++ [.crashed env task e], world)
  match w with
  | .ready => drain env scan task deliveries world queue
  | .dequeuing =>
    match queue with
    | [] => (.stopped, [], deliveries, world)
    | job :: queue => finishScan (scan job) queue
  | .scanning rest => finishScan rest queue
  | .stopped => (.stopped, queue, deliveries, world)
  | .failed => (.failed, queue, deliveries, world)

/-- Lets workers move to their ends, one after the other; the first has task number `task`. -/
def finishWorkers (env : Environment σ) (scan : Job → Scan SchemeOutcome) (task : Nat)
    (queue : List Job) (deliveries : List Delivery) (world : World σ) :
    List Worker → List Worker × List Job × List Delivery × World σ
  | [] => ([], queue, deliveries, world)
  | w :: rest =>
    let (w, queue, deliveries, world) := finishWorker env scan task w queue deliveries world
    let (rest, queue, deliveries, world) :=
      finishWorkers env scan (task + 1) queue deliveries world rest
    (w :: rest, queue, deliveries, world)

def finish (env : Environment σ) (scan : Job → Scan SchemeOutcome) :
    Pool × World σ → Pool × World σ
  | (p, world) =>
    let (workers, queue, deliveries, world) :=
      finishWorkers env scan p.firstTask p.queue p.deliveries world p.workers
    ({ p with queue, workers, deliveries }, world)

/-- Outcomes in order of arrival. -/
def outcomes (p : Pool) : List SchemeOutcome := p.deliveries.filterMap Delivery.outcome?

/-- The failures that crashed workers left, in order of arrival. -/
def failures (p : Pool) : List ScanFailure := p.deliveries.filterMap Delivery.failure?

/-- Outcomes in priority order. -/
def sortedOutcomes (p : Pool) : List SchemeOutcome :=
  p.outcomes.mergeSort fun a b => a.priorityIndex ≤ b.priorityIndex

/-- Runs jobs on `workerCount` workers: the moves of `schedule`, then what is left of each worker
in turn. Every way in which the workers can interleave is some schedule. -/
def run (env : Environment σ) (scan : Job → Scan SchemeOutcome) (workerCount : Nat)
    (jobs : List Job) (schedule : List Nat) (world : World σ) : Pool × World σ :=
  let pool := start (world.tasks + 1) workerCount jobs
  finish env scan
    (drive env scan schedule (pool, { world with tasks := world.tasks + workerCount }))

end Pool

end FundRecovery.Discovery
