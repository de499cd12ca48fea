import FundRecovery.Proofs.Discovery.ChainOptions
import FundRecovery.Proofs.Discovery.Searches

/-!
# The settings of an attempt

Of its settings, an attempt reads the two gap limits, the number of workers, whether change chains
are scanned, whether there is an observer, and the strategy. The configured schemes, the
passphrases and the two switches behind the strategy are not among them.

* `Scanner.Alike`: two scanners that agree on what an attempt reads.
* `Scanner.Alike.attempt`, `Scanner.Alike.attemptBy`: they make the same attempts, one scheme after
  the other and on a pool.
* `Scanner.Alike.scanSchemes`: with the same passphrases and the same outcome of the checks, they
  make the same scans.
-/

namespace FundRecovery.Discovery.Scanner

/-- The scanners agree on everything an attempt reads. -/
structure Alike (s s' : Scanner) : Prop where
  gapLimit : s'.options.gapLimit = s.options.gapLimit
  extendedGapLimit : s'.options.extendedGapLimit = s.options.extendedGapLimit
  maxConcurrent : s'.options.maxConcurrent = s.options.maxConcurrent
  change : s'.options.scanChangeAddresses = s.options.scanChangeAddresses
  observed : s'.options.observed = s.options.observed
  strategy : s'.usesBulk = s.usesBulk

namespace Alike

variable {s s' : Scanner} (h : s.Alike s')

include h

theorem gapLimitAt (priorityIndex : Nat) :
    s'.options.gapLimitAt priorityIndex = s.options.gapLimitAt priorityIndex := by
  unfold ScanOptions.gapLimitAt
  rw [h.gapLimit, h.extendedGapLimit]

theorem scanChains (seed : Seed) (scheme : PathScheme) (gapLimit : UInt32) (chains : List Chain)
    (scan : SchemeScan) :
    s'.scanChains seed scheme gapLimit chains scan =
      s.scanChains seed scheme gapLimit chains scan := by
  induction chains generalizing scan with
  | nil => rfl
  | cons chain rest ih =>
    have hchain (scan : SchemeScan) : s'.scanChain ⟨s'.options, seed, scheme, chain⟩ gapLimit scan =
        s.scanChain ⟨s.options, seed, scheme, chain⟩ gapLimit scan :=
      scanChain_under (t := ⟨s.options, seed, scheme, chain⟩) h.observed h.strategy gapLimit scan
    simp only [Scanner.scanChains, hchain, ih]

theorem scanScheme (seed : Seed) (scheme : PathScheme) (gapLimit : UInt32) (priorityIndex : Nat) :
    s'.scanScheme seed scheme gapLimit priorityIndex =
      s.scanScheme seed scheme gapLimit priorityIndex := by
  unfold Scanner.scanScheme
  rw [h.scanChains, h.change]

theorem scanInOrder (seed : Seed) (first : Nat) (schemes : List PathScheme) (a : Attempt) :
    s'.scanInOrder seed first schemes a = s.scanInOrder seed first schemes a := by
  induction schemes generalizing first a with
  | nil => rfl
  | cons scheme rest ih => simp only [Scanner.scanInOrder, h.gapLimitAt, h.scanScheme, ih]

/-- One scheme after the other, they make the same attempts. -/
theorem attempt (schemes : List PathScheme) : s'.attempt schemes = s.attempt schemes := by
  funext seed passphrase
  simp only [Scanner.attempt, h.scanInOrder]

theorem runPool {σ : Type} (env : Environment σ) (schedule : List Nat) (schemes : List PathScheme)
    (seed : Seed) : s'.runPool env schedule schemes seed = s.runPool env schedule schemes seed := by
  have hjob : s'.scanJob seed = s.scanJob seed :=
    funext fun j => h.scanScheme seed j.scheme j.gapLimit _
  have hjobs : s'.jobs schemes = s.jobs schemes := by simp only [jobs, h.gapLimitAt]
  have hworkers : s'.workerCount schemes.length = s.workerCount schemes.length := by
    rw [workerCount, workerCount, h.maxConcurrent]
  unfold Scanner.runPool
  rw [hjob, hjobs, hworkers]

/-- Either way of searching, they make the same attempts. -/
theorem attemptBy {σ : Type} (env : Environment σ) (schedules : Option (Nat → List Nat))
    (schemes : List PathScheme) :
    s'.attemptBy env schedules schemes = s.attemptBy env schedules schemes := by
  funext number seed passphrase
  cases schedules with
  | none => simp only [Scanner.attemptBy, h.attempt]
  | some schedules => simp only [Scanner.attemptBy, attemptParallel, h.runPool]

/-- With the same passphrases they scan the same schemes alike, as long as the checks agree. -/
theorem scanSchemes {seed : Seed} {schemes : List PathScheme}
    (hpassphrases : s'.options.passphrases = s.options.passphrases)
    (hready : s'.checkReady seed schemes = s.checkReady seed schemes) :
    s'.scanSchemes seed schemes = s.scanSchemes seed schemes := by
  have hattempts : s'.attempts seed schemes = s.attempts seed schemes := by
    unfold attempts ScanOptions.passphraseAttempts
    rw [h.attempt, hpassphrases]
  unfold Scanner.scanSchemes
  rw [hready, hattempts]

end Alike

end FundRecovery.Discovery.Scanner
