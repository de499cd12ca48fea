import FundRecovery.Discovery.Pool

/-!
# Scanning schemes side by side

* `Scanner.workerCount`: the workers for a number of jobs.
* `Scanner.scanSchemesParallel`: as `Scanner.scanSchemes`, with the schemes of each attempt on a
  pool of workers.
-/

namespace FundRecovery.Discovery

/-- What runs in an environment with states `σ`, and may crash there. -/
abbrev Run (σ α : Type) : Type := ExceptT Crash (StateM (World σ)) α

namespace Run

/-- Runs a program. -/
def ofScan {σ α : Type} (env : Environment σ) (p : Scan α) : Run σ α := p.run env.handler

end Run

namespace Scanner

variable {σ : Type}

/-- No more workers than jobs. -/
def workerCount (s : Scanner) (jobCount : Nat) : Nat := min s.options.maxConcurrent jobCount

/-- A job per scheme, schemes given in priority order. -/
def jobs (s : Scanner) (schemes : List PathScheme) : List Job :=
  schemes.zipIdx.map fun (scheme, i) => ⟨scheme, s.options.gapLimitAt i, i⟩

def scanJob (s : Scanner) (seed : Seed) (job : Job) : Scan SchemeOutcome :=
  s.scanScheme seed job.scheme job.gapLimit job.priorityIndex

/-- Runs one job per scheme under a schedule. -/
def runPool (s : Scanner) (env : Environment σ) (schedule : List Nat) (schemes : List PathScheme)
    (seed : Seed) : Run σ Pool := fun world =>
  let (pool, world) :=
    Pool.run env (s.scanJob seed) (s.workerCount schemes.length) (s.jobs schemes) schedule world
  (.ok pool, world)

/-- One attempt: outcomes in priority order, then the failures of crashed workers. -/
def attemptParallel (s : Scanner) (env : Environment σ) (schedule : List Nat)
    (schemes : List PathScheme) (seed : Seed) (passphrase : String) : Run σ Attempt := do
  let pool ← s.runPool env schedule schemes seed
  let a := pool.sortedOutcomes.foldl Attempt.absorb (.start passphrase)
  let a := pool.failures.foldl Attempt.recordFailure a
  return a.noteToken (← Run.ofScan env isCancelled)

/-- All attempts over a checked list of schemes; `schedules` gives the interleaving of each attempt
by its number. -/
def attemptsParallel (s : Scanner) (env : Environment σ) (schedules : Nat → List Nat)
    (seed : Seed) (schemes : List PathScheme) : Run σ ScanResult := do
  let schemes := sortByPriority schemes
  let as ← Attempts.run (m := Run σ) (fun p => Run.ofScan env (seedFor seed p))
    (fun number seed p => s.attemptParallel env (schedules number) schemes seed p) 1 .none
    s.options.passphraseAttempts
  return as.result

/-- Scans a given set of schemes on a pool of workers. -/
def scanSchemesParallel (s : Scanner) (env : Environment σ) (schedules : Nat → List Nat)
    (seed : Seed) (schemes : List PathScheme) : Run σ (Except RecoveryError ScanResult) :=
  match s.checkReady seed schemes with
  | .error e => return .error e
  | .ok () => Except.ok <$> s.attemptsParallel env schedules seed schemes

/-- Scans the configured schemes on a pool of workers. -/
def scanParallel (s : Scanner) (env : Environment σ) (schedules : Nat → List Nat) (seed : Seed) :
    Run σ (Except RecoveryError ScanResult) :=
  s.scanSchemesParallel env schedules seed s.options.pathSchemes

/-- Scans registry schemes by name on a pool of workers. -/
def scanSchemeNamesParallel (s : Scanner) (env : Environment σ) (schedules : Nat → List Nat)
    (seed : Seed) (names : List String) : Run σ (Except RecoveryError ScanResult) :=
  match resolveSchemes names with
  | .error e => return .error e
  | .ok schemes => s.scanSchemesParallel env schedules seed schemes

end Scanner

end FundRecovery.Discovery
