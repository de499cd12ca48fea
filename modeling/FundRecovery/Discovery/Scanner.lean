import FundRecovery.Discovery.Attempt

/-!
# Scanning schemes one after the other

Failures of collaborators never fail a scan: they are recorded on its result. Only bad settings
are errors, and they are found before anything is asked.

* `Scanner.checkReady`: the settings, the names of the schemes and the seed.
* `Scanner.scanSchemes`: the schemes in priority order, once per passphrase attempt.
-/

namespace FundRecovery.Discovery

namespace Scanner

/-- Options first, then the names of the schemes, then the seed. -/
def checkReady (s : Scanner) (seed : Seed) (schemes : List PathScheme) :
    Except RecoveryError Unit := do
  s.options.validate
  ensureUniqueNames schemes
  if seed.isEmpty then throw (.invalidSeed .empty)

/-- The empty passphrase selects the seed itself. -/
def seedFor (seed : Seed) (passphrase : String) : Scan (Except DerivationError Seed) :=
  if passphrase = "" then return .ok seed else call (.seedForPassphrase seed passphrase)

/-- Scans schemes from position `priorityIndex` on until the token is cancelled. -/
def scanInOrder (s : Scanner) (seed : Seed) (priorityIndex : Nat) :
    List PathScheme → Attempt → Scan Attempt
  | [], a => return a
  | scheme :: rest, a => do
    if ← isCancelled then return a
    let o ← s.scanScheme seed scheme (s.options.gapLimitAt priorityIndex) priorityIndex
    s.scanInOrder seed (priorityIndex + 1) rest (a.absorb o)

/-- One attempt over schemes that are in priority order. -/
def attempt (s : Scanner) (schemes : List PathScheme) (seed : Seed) (passphrase : String) :
    Scan Attempt := do
  let a ← s.scanInOrder seed 0 schemes (.start passphrase)
  return a.noteToken (← isCancelled)

/-- All attempts over a checked list of schemes. -/
def attempts (s : Scanner) (seed : Seed) (schemes : List PathScheme) : Scan ScanResult := do
  let as ← Attempts.run (seedFor seed) (fun _ => s.attempt (sortByPriority schemes)) 1
    .none s.options.passphraseAttempts
  return as.result

/-- Scans a given set of schemes. -/
def scanSchemes (s : Scanner) (seed : Seed) (schemes : List PathScheme) :
    Scan (Except RecoveryError ScanResult) :=
  match s.checkReady seed schemes with
  | .error e => return .error e
  | .ok () => Except.ok <$> s.attempts seed schemes

/-- Scans the configured schemes. -/
def scan (s : Scanner) (seed : Seed) : Scan (Except RecoveryError ScanResult) :=
  s.scanSchemes seed s.options.pathSchemes

/-- Scans registry schemes by name. An unknown or repeated name fails before anything else. -/
def scanSchemeNames (s : Scanner) (seed : Seed) (names : List String) :
    Scan (Except RecoveryError ScanResult) :=
  match resolveSchemes names with
  | .error e => return .error e
  | .ok schemes => s.scanSchemes seed schemes

end Scanner

end FundRecovery.Discovery
