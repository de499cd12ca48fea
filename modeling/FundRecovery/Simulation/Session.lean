import FundRecovery.Discovery.Parallel
import FundRecovery.Discovery.Scenario
import FundRecovery.Simulation.State

/-!
# Sessions over simulated collaborators

A session keeps simulated collaborators, options, a seed, the last scan result and the last
migration plan, and carries out steps: it sets the simulation up, scans, plans, migrates and
observes what the collaborators were asked.

* `Session.step`: one step and its answer.
-/

namespace FundRecovery.Simulation

open Discovery

/-- A step that changes the settings of a session and answers nothing. -/
inductive Setup where
  | addUtxo (address : String) (amount : Nat)
  | setUtxos (address : String) (utxos : List Utxo)
  | spendAll (address : String)
  | activityOnly (address : String)
  | failAddress (address : String)
  | setInvalid (address reason : String)
  /-- Slow lookups. Answers do not depend on how long they take. -/
  | delay (pattern : String) (millis : Nat)
  | cancelAfter (requests : Nat)
  | failActivity (fail : Bool)
  | failFetch (fail : Bool)
  | newDeriver (passphrases : Bool)
  | failDerivationAt (index : UInt32)
  | failPrivateKeys (fail : Bool)
  | newBuilder
  | failBuild (fail : Bool)
  | failSignAt (index : Nat)
  | failBroadcast (fail : Bool)
  | cancel
  | newToken
  | cancelOnEvent (event : Nat)
  | setOptions (options : ScanOptions)
  | setResult (result : ScanResult)
  | rules (client : Option ClientRules) (deriver : Option DeriverRules) (bulk : Option BulkRules)

/-- What to scan, and how. -/
inductive Search where
  | configured
  | names (names : List String)
  | schemes (schemes : List PathScheme)
  | parallel
  | parallelNames (names : List String)
  | oldWallet (mode : Option String) (gapLimit : Option UInt32) (schemes : List String)
  | beyondGap (request : BeyondGapRecovery)

/-- Changes of a plan by hand, made in the order of the fields. -/
structure PlanEdit where
  destination : Option String
  totalInput : Option Nat
  feeRate : Option FeeRate
  sources : Option (List MigrationSource)
  /-- The position of a source to add a copy of at the end. -/
  repeatSource : Option Nat
  reverse : Bool

namespace PlanEdit

def apply (e : PlanEdit) (p : MigrationPlan) : MigrationPlan :=
  let sources := e.sources.getD p.sources
  let sources := sources ++ ((e.repeatSource.bind fun i => sources[i]?).toList)
  { p with
    destination := e.destination.getD p.destination
    totalInput := e.totalInput.getD p.totalInput
    feeRate := e.feeRate.getD p.feeRate
    sources := if e.reverse then sources.reverse else sources }

end PlanEdit

/-- What to look at; lists can be asked for in sorted order. -/
inductive Observation where
  | requests (sorted : Bool)
  | wasRequested (address : String)
  | bulkRequests (sorted : Bool)
  | deriver
  | builder
  | progress (grouped : Bool)

/-- A step of a session. A seed counts in place of the session's. -/
inductive Step where
  | setup (change : Setup)
  | search (search : Search) (bulk : Bool) (seed : Option Seed)
  | scanScheme (scheme : PathScheme) (gapLimit : UInt32) (priorityIndex : Nat) (bulk : Bool)
      (seed : Option Seed)
  | workerCount (jobs : Nat)
  | plan (destination : String) (rate : Nat)
  | editPlan (edit : PlanEdit)
  | validate
  | execute (sigHash : SigHash) (seed : Option Seed)
  | observe (what : Observation)

inductive Answer where
  | done
  | result (r : ScanResult)
  | outcome (o : SchemeOutcome)
  | count (n : Nat)
  | plan (p : MigrationPlan)
  | migrated (r : MigrationResult)
  | requests (addresses : List String)
  | requested (b : Bool)
  | bulkRequests (activity fetch : List (List String))
  | deriver (d : Deriver)
  | builder (b : Builder)
  | progress (events : List ScanProgress)
  | failed (e : RecoveryError)
  | migrationFailed (e : MigrationError)
  /-- A collaborator crashed. -/
  | crashed

structure Session where
  seed : Seed
  options : ScanOptions
  state : State
  lastResult : ScanResult
  lastPlan : MigrationPlan
  /-- The worker tasks started so far, those before the session among them. -/
  tasks : Nat

namespace Session

/-- The seed of a session that is given none. -/
def standardSeed : Seed := ⟨List.replicate 32 0x11⟩

/-- Progress is always recorded. -/
def observed (o : ScanOptions) : ScanOptions := { o with observed := true }

/-- A session after `tasks` worker tasks were started elsewhere. -/
def start (seed : Seed) (options : ScanOptions) (tasks : Nat) : Session :=
  ⟨seed, observed options, .initial, .empty, .empty, tasks⟩

def withState (s : Session) (f : State → State) : Session := { s with state := f s.state }

def withLedger (s : Session) (f : Ledger → Ledger) : Session :=
  s.withState fun t => { t with ledger := f t.ledger }

def withBulk (s : Session) (f : BulkBackend → BulkBackend) : Session :=
  s.withState fun t => { t with bulk := f t.bulk }

def withDeriver (s : Session) (f : Deriver → Deriver) : Session :=
  s.withState fun t => { t with deriver := f t.deriver }

def withBuilder (s : Session) (f : Builder → Builder) : Session :=
  s.withState fun t => { t with builder := f t.builder }

def setUp (s : Session) : Setup → Session
  | .addUtxo address amount => s.withLedger (·.addUtxo address amount)
  | .setUtxos address utxos => s.withLedger (·.setUtxos address utxos)
  | .spendAll address => s.withLedger (·.spendAll address)
  | .activityOnly address => s.withLedger (·.setActive address)
  | .failAddress address => s.withLedger (·.failAddress address)
  | .setInvalid address reason => s.withLedger (·.setInvalid address reason)
  | .delay _ _ => s
  | .cancelAfter requests =>
    s.withState fun t => { t with cancelAfter := some (requests, t.tokens.current) }
  | .failActivity fail => s.withBulk fun b => { b with failActivity := fail }
  | .failFetch fail => s.withBulk fun b => { b with failFetch := fail }
  | .newDeriver passphrases => s.withDeriver fun _ => .new passphrases
  | .failDerivationAt index => s.withDeriver fun d => { d with failAt := some index }
  | .failPrivateKeys fail => s.withDeriver fun d => { d with failPrivateKeys := fail }
  | .newBuilder => s.withBuilder fun _ => .new
  | .failBuild fail => s.withBuilder fun b => { b with failBuild := fail }
  | .failSignAt index => s.withBuilder fun b => { b with failSignAt := some index }
  | .failBroadcast fail => s.withBuilder fun b => { b with failBroadcast := fail }
  | .cancel => s.withState (·.cancelCurrent)
  | .newToken => s.withState fun t => { t with tokens := t.tokens.renew }
  | .cancelOnEvent event =>
    s.withState fun t => { t with cancelOnEvents := event :: t.cancelOnEvents }
  | .setOptions options => { s with options := observed options }
  | .setResult result => { s with lastResult := result }
  | .rules client deriver bulk => s.withState fun t =>
    { t with
      clientRules := client.getD t.clientRules
      deriverRules := deriver.getD t.deriverRules
      bulkRules := bulk.getD t.bulkRules }

/-- The simulation as a scan finds it. -/
def world (s : Session) : World State := ⟨s.state, s.state.tokens.isCancelled, s.tasks⟩

/-- The session after a scan. -/
def leave (s : Session) (w : World State) : Session := { s with state := w.state, tasks := w.tasks }

/-- A parallel scan with no schedule of its own lets one worker after the other move to its
end. -/
def unscheduled : Nat → List Nat := fun _ => []

/-- Runs a search. -/
def runSearch (scanner : Scanner) (seed : Seed) :
    Search → Run State (Except RecoveryError ScanResult)
  | .configured => Run.ofScan environment (scanner.scan seed)
  | .names names => Run.ofScan environment (scanner.scanSchemeNames seed names)
  | .schemes schemes => Run.ofScan environment (scanner.scanSchemes seed schemes)
  | .parallel => scanner.scanParallel environment unscheduled seed
  | .parallelNames names => scanner.scanSchemeNamesParallel environment unscheduled seed names
  | .oldWallet mode gapLimit schemes =>
    match mode.elim (.ok .standard) RecoveryMode.ofText with
    | .error e => return .error e
    | .ok mode => Run.ofScan environment (scanner.recoverOldWallet seed ⟨mode, gapLimit, schemes⟩)
  | .beyondGap request => Run.ofScan environment (scanner.recoverBeyondGap seed request)

/-- The result of a search is the last result from then on. -/
def search (s : Session) (what : Search) (bulk : Bool) (seed : Seed) : Answer × Session :=
  match (runSearch ⟨s.options, bulk⟩ seed what).run s.world with
  | (.ok (.ok r), w) => (.result r, { s.leave w with lastResult := r })
  | (.ok (.error e), w) => (.failed e, s.leave w)
  | (.error _, w) => (.crashed, s.leave w)

def scanScheme (s : Session) (scheme : PathScheme) (gapLimit : UInt32) (priorityIndex : Nat)
    (bulk : Bool) (seed : Seed) : Answer × Session :=
  let scan := (Scanner.mk s.options bulk).scanScheme seed scheme gapLimit priorityIndex
  match scan.run environment.handler s.world with
  | (.ok o, w) => (.outcome o, s.leave w)
  | (.error _, w) => (.crashed, s.leave w)

/-- Runs a migration and words its outcome. -/
def migrate {α : Type} (s : Session) (m : Migration.Migrate α) (answer : α → Answer) :
    Answer × Session :=
  match m.run.run migrationHandler s.state with
  | (.ok (.ok a), state) => (answer a, { s with state })
  | (.ok (.error e), state) => (.migrationFailed e, { s with state })
  | (.error _, state) => (.crashed, { s with state })

/-- Texts in ascending order. -/
def sortTexts (texts : List String) : List String := texts.mergeSort fun a b => a ≤ b

/-- Lists of texts in ascending order, item by item. -/
def sortLists (lists : List (List String)) : List (List String) :=
  lists.mergeSort fun a b => !b.lex a (· < ·)

/-- Events by scheme, those of one scheme in order. -/
def groupEvents (events : List ScanProgress) : List ScanProgress :=
  events.mergeSort fun a b => a.schemeName ≤ b.schemeName

def observe (t : State) : Observation → Answer
  | .requests sorted =>
    let addresses := t.ledger.requests.toList
    .requests (if sorted then sortTexts addresses else addresses)
  | .wasRequested address => .requested (t.ledger.requests.contains address)
  | .bulkRequests sorted =>
    let order := if sorted then sortLists else id
    .bulkRequests (order t.bulk.activityRequests.toList) (order t.bulk.fetchRequests.toList)
  | .deriver => .deriver t.deriver
  | .builder => .builder t.builder
  | .progress grouped =>
    let events := t.events.toList
    .progress (if grouped then groupEvents events else events)

/-- Carries out a step. -/
def step (s : Session) : Step → Answer × Session
  | .setup change => (.done, s.setUp change)
  | .search what bulk seed => s.search what bulk (seed.getD s.seed)
  | .scanScheme scheme gapLimit priorityIndex bulk seed =>
    s.scanScheme scheme gapLimit priorityIndex bulk (seed.getD s.seed)
  | .workerCount jobs => (.count ((Scanner.mk s.options false).workerCount jobs), s)
  | .plan destination rate =>
    match MigrationPlan.create s.lastResult destination rate with
    | .ok p => (.plan p, { s with lastPlan := p })
    | .error e => (.migrationFailed e, s)
  | .editPlan edit =>
    let p := edit.apply s.lastPlan
    (.plan p, { s with lastPlan := p })
  | .validate => s.migrate (Migration.validate s.lastPlan) fun _ => .done
  | .execute sigHash seed =>
    s.migrate (Migration.execute sigHash (seed.getD s.seed) s.lastPlan) .migrated
  | .observe what => (observe s.state what, s)

/-- Carries out steps in order and keeps their answers. -/
def run (s : Session) (steps : List Step) : List Answer × Session :=
  let (answers, s) := steps.foldl (fun (answers, s) step =>
    let (a, s) := s.step step
    (a :: answers, s)) (([] : List Answer), s)
  (answers.reverse, s)

end Session

end FundRecovery.Simulation
