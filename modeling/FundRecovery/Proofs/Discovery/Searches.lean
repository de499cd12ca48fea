import FundRecovery.Discovery.Scenario
import FundRecovery.Proofs.Discovery.Conduct

/-!
# What holds of every discovery of every search

What is known of the scan of a single scheme is known of the result, whichever way the wallet was
searched: in order or on a pool of workers, under any schedule, with collaborators that keep states,
fail and crash, and with the token cancelled at any moment.

* `Search`: the ways to search a wallet. `Search.run`: a search in an environment.
  `Search.run_given`: a search of given schemes is a series of attempts.
* `Selects`: the seed that a passphrase stands for. `Attempts.leads_run`: attempts one after the
  other, whatever an attempt is.
* `Upholds`: what is known of the scan of each scheme; `upholds_of_relayed` gets it from what the
  chains of the scheme hand on. `Search.leads`: then it is known of the entries of every result, and
  of the seed they were found with.
* `Environment.Tells A`, `Grants A P`: whatever is answered, `A` allows, and allowed answers lead to
  discoveries that meet `P`. `Search.granted`: then every discovery in a result meets `P`.
-/

namespace FundRecovery

namespace ScanResult

/-- Every discovery of a result, with repeats. -/
def discoveries (r : ScanResult) : List DiscoveredAddress :=
  r.foundAddresses.values.flatten

/-- Every discovery in the result meets `P`. -/
def All (P : DiscoveredAddress → Prop) (r : ScanResult) : Prop :=
  ∀ e ∈ r.foundAddresses.entries, ∀ d ∈ e.2, P d

theorem All.of_mem_addresses {P : DiscoveredAddress → Prop} {r : ScanResult} (h : r.All P)
    {d : DiscoveredAddress} (hd : d ∈ r.addresses) : P d := by
  obtain ⟨name, -, hd⟩ := List.mem_flatMap.mp hd
  cases hl : r.foundAddresses.entries.lookup name with
  | none => simp [addressesOf, NameMap.get?, hl] at hd
  | some found =>
    obtain ⟨before, after, he, -⟩ := List.lookup_eq_some_iff.mp hl
    have hmem : (name, found) ∈ r.foundAddresses.entries := by simp [he]
    exact h _ hmem d (by simpa [addressesOf, NameMap.get?, hl] using hd)

end ScanResult

namespace Discovery

variable {σ : Type} {env : Environment σ}

/-! ## Ways to search -/

/-- The ways to search a wallet: in order or on a pool of workers, and the recovery scenarios. A
list of schemes or of their names takes the place of the configured schemes. -/
inductive Search where
  | configured
  | schemes (schemes : List PathScheme)
  | names (names : List String)
  | configuredParallel (schedules : Nat → List Nat)
  | schemesParallel (schedules : Nat → List Nat) (schemes : List PathScheme)
  | namesParallel (schedules : Nat → List Nat) (names : List String)
  | oldWallet (request : OldWalletRecovery)
  | beyondGap (request : BeyondGapRecovery)

namespace Search

/-- A search in an environment. -/
def run (env : Environment σ) (s : Scanner) (seed : Seed) :
    Search → Run σ (Except RecoveryError ScanResult)
  | .configured => .ofScan env (s.scan seed)
  | .schemes list => .ofScan env (s.scanSchemes seed list)
  | .names list => .ofScan env (s.scanSchemeNames seed list)
  | .configuredParallel schedules => s.scanParallel env schedules seed
  | .schemesParallel schedules list => s.scanSchemesParallel env schedules seed list
  | .namesParallel schedules list => s.scanSchemeNamesParallel env schedules seed list
  | .oldWallet request => .ofScan env (s.recoverOldWallet seed request)
  | .beyondGap request => .ofScan env (s.recoverBeyondGap seed request)

/-- The schemes that a search is about. -/
def targets (s : Scanner) : Search → List PathScheme
  | .configured | .configuredParallel _ => s.options.pathSchemes
  | .schemes list | .schemesParallel _ list => list
  | .names list | .namesParallel _ list => (resolveSchemes list).toOption.getD []
  | .oldWallet request => request.selectedSchemes
  | .beyondGap request => (scheme? request.scheme).toList

/-- The schedules of a search on a pool of workers, by the number of the attempt. -/
def schedules? : Search → Option (Nat → List Nat)
  | .configuredParallel schedules | .schemesParallel schedules _
  | .namesParallel schedules _ => some schedules
  | .configured | .schemes _ | .names _ | .oldWallet _ | .beyondGap _ => none

/-- The search of given schemes: on a pool of workers where there are schedules for it, or else in
order. -/
def given : Option (Nat → List Nat) → List PathScheme → Search
  | none => .schemes
  | some schedules => .schemesParallel schedules

end Search

/-- An attempt over schemes in priority order, made either way. -/
def Scanner.attemptBy (s : Scanner) (env : Environment σ) (schedules : Option (Nat → List Nat))
    (schemes : List PathScheme) (number : Nat) (seed : Seed) (passphrase : String) :
    Run σ Attempt :=
  match schedules with
  | none => .ofScan env (s.attempt schemes seed passphrase)
  | some schedules => s.attemptParallel env (schedules number) schemes seed passphrase

/-- Either way, bad settings are all that there is to tell. -/
theorem Search.run_given_error {s : Scanner} {seed : Seed} {schemes : List PathScheme}
    {e : RecoveryError} (h : s.checkReady seed schemes = .error e)
    (schedules : Option (Nat → List Nat)) :
    (given schedules schemes).run env s seed = pure (.error e) := by
  cases schedules with
  | none => rw [given, run, Scanner.scanSchemes, h]; rfl
  | some schedules => rw [given, run, Scanner.scanSchemesParallel, h]

/-- Either way, a search of checked schemes is a series of attempts. -/
theorem Search.run_given {s : Scanner} {seed : Seed} {schemes : List PathScheme}
    (hready : s.checkReady seed schemes = .ok ()) (schedules : Option (Nat → List Nat)) :
    (given schedules schemes).run env s seed = (fun as => .ok as.result) <$>
      Attempts.run (m := Run σ) (fun p => Run.ofScan env (Scanner.seedFor seed p))
        (s.attemptBy env schedules (sortByPriority schemes)) 1 .none
        s.options.passphraseAttempts := by
  cases schedules with
  | none =>
    rw [given, run, Scanner.scanSchemes, hready, map_eq_pure_bind, ofScan_bind, Scanner.attempts,
      ofScan_bind, ofScan_attempts, map_eq_pure_bind, bind_assoc]
    rfl
  | some schedules =>
    rw [given, run, Scanner.scanSchemesParallel, hready, Scanner.attemptsParallel, map_eq_pure_bind,
      map_eq_pure_bind]
    exact bind_assoc ..

section Ways

variable {R : World σ → World σ → Prop} {K : Except RecoveryError ScanResult → World σ → Prop}
  {s : Scanner} {seed : Seed} (hrefl : ∀ w, R w w)
  (htrans : ∀ {w₁ w₂ w₃}, R w₁ w₂ → R w₂ w₃ → R w₁ w₃) (herror : ∀ e w, K (.error e) w)

include hrefl htrans herror

theorem leads_scanSchemes {list : List PathScheme}
    (h : s.checkReady seed list = .ok () → Leads R (fun _ => True)
      (Run.ofScan env (s.attempts seed list)) fun r => K (.ok r)) :
    Leads R (fun _ => True) (Run.ofScan env (s.scanSchemes seed list)) K := by
  rw [Scanner.scanSchemes]
  split
  · exact .pure hrefl fun w _ => herror _ w
  case h_2 hready =>
    rw [map_eq_pure_bind, ofScan_bind]
    exact .bind htrans (h hready) fun r => .pure hrefl fun _ => id

theorem leads_scanSchemesParallel {schedules : Nat → List Nat} {list : List PathScheme}
    (h : s.checkReady seed list = .ok () → Leads R (fun _ => True)
      (s.attemptsParallel env schedules seed list) fun r => K (.ok r)) :
    Leads R (fun _ => True) (s.scanSchemesParallel env schedules seed list) K := by
  rw [Scanner.scanSchemesParallel]
  split
  · exact .pure hrefl fun w _ => herror _ w
  case h_2 hready =>
    rw [map_eq_pure_bind]
    exact .bind htrans (h hready) fun r => .pure hrefl fun _ => id

/-- A range is searched in bulk or, where that does not succeed, by a wider scan. -/
theorem leads_recoverBeyondGap {request : BeyondGapRecovery}
    (hwidened : ∀ (s' : Scanner) scheme,
      s'.options.scanChangeAddresses = s.options.scanChangeAddresses →
      scheme? request.scheme = some scheme → s'.checkReady seed [scheme] = .ok () →
      Leads R (fun _ => True) (Run.ofScan env (s'.attempts seed [scheme])) fun r => K (.ok r))
    (hrange : ∀ scheme start count, scheme? request.scheme = some scheme →
      start + count ≤ indexSpace → Leads R (fun _ => True)
        (Run.ofScan env (s.scanRangeInBulk seed scheme (List.range' start count)))
        fun r w => ∀ result, r = .ok result → K (.ok result) w) :
    Leads R (fun _ => True) (Run.ofScan env (s.recoverBeyondGap seed request)) K := by
  have hfails (e : RecoveryError) : Leads R (fun _ => True)
      (Run.ofScan env (.done (.error e) : Scan (Except RecoveryError ScanResult))) K :=
    .pure hrefl fun w _ => herror e w
  unfold Scanner.recoverBeyondGap
  split
  · exact hfails _
  split
  · exact hfails _
  case h_2 scheme hscheme =>
  have hwide : Leads R (fun _ => True)
      (Run.ofScan env (s.scanWidened seed scheme request.stop)) K :=
    leads_scanSchemes hrefl htrans herror fun hready => hwidened _ scheme rfl hscheme hready
  split
  · exact hfails _
  split
  · have hspace :
        request.start.toNat + (request.stop.toNat - request.start.toNat) ≤ indexSpace := by
      have hstart := request.start.toNat_lt
      have hstop := request.stop.toNat_lt
      simp only [indexSpace, UInt32.size]
      omega
    rw [ofScan_bind]
    refine .bind htrans (hrange scheme _ _ hscheme hspace) fun r => ?_
    cases r with
    | error e => exact hwide.mono (fun _ _ => .intro) fun _ _ => id
    | ok result => exact .pure hrefl fun w hr => hr result rfl
  · exact hwide

/-- **The ways to search come down to three:** attempts in order, attempts on a pool of workers and
a range in bulk, each over the targets of the search. -/
theorem Search.leads_of {search : Search}
    (hattempts : ∀ s' : Scanner, s'.options.scanChangeAddresses = s.options.scanChangeAddresses →
      s'.checkReady seed (search.targets s) = .ok () → Leads R (fun _ => True)
        (Run.ofScan env (s'.attempts seed (search.targets s))) fun r => K (.ok r))
    (hparallel : ∀ schedules, search.schedules? = some schedules →
      s.checkReady seed (search.targets s) = .ok () → Leads R (fun _ => True)
        (s.attemptsParallel env schedules seed (search.targets s)) fun r => K (.ok r))
    (hrange : ∀ scheme start count, search.targets s = [scheme] → start + count ≤ indexSpace →
      Leads R (fun _ => True)
        (Run.ofScan env (s.scanRangeInBulk seed scheme (List.range' start count)))
        fun r w => ∀ result, r = .ok result → K (.ok result) w) :
    Leads R (fun _ => True) (search.run env s seed) K := by
  cases search with
  | configured | schemes list => exact leads_scanSchemes hrefl htrans herror (hattempts s rfl)
  | configuredParallel schedules | schemesParallel schedules list =>
    exact leads_scanSchemesParallel hrefl htrans herror (hparallel schedules rfl)
  | oldWallet request => exact leads_scanSchemes hrefl htrans herror (hattempts _ rfl)
  | names list =>
    rw [run, Scanner.scanSchemeNames]
    split
    · exact .pure hrefl fun w _ => herror _ w
    case h_2 found hfound =>
      rw [targets, hfound] at hattempts
      exact leads_scanSchemes hrefl htrans herror (hattempts s rfl)
  | namesParallel schedules list =>
    rw [run, Scanner.scanSchemeNamesParallel]
    split
    · exact .pure hrefl fun w _ => herror _ w
    case h_2 found hfound =>
      rw [targets, hfound] at hparallel
      exact leads_scanSchemesParallel hrefl htrans herror (hparallel schedules rfl)
  | beyondGap request =>
    have htargets {scheme : PathScheme} (hscheme : scheme? request.scheme = some scheme) :
        targets s (.beyondGap request) = [scheme] := by rw [targets, hscheme]; rfl
    refine leads_recoverBeyondGap hrefl htrans herror (fun s' scheme hs hscheme hready => ?_)
      fun scheme start count hscheme => hrange scheme start count (htargets hscheme)
    rw [htargets hscheme] at hattempts
    exact hattempts s' hs hready

end Ways

/-! ## Attempts -/

/-- What is said of a scheme's discoveries, by the name of the scheme. -/
abbrev Verdict : Type := String → List DiscoveredAddress → Prop

namespace Attempt

/-- The attempt was made with the passphrase, and its discoveries meet `E`. -/
def Meets (passphrase : String) (E : Verdict) (a : Attempt) : Prop :=
  a.passphrase = passphrase ∧ ∀ e ∈ a.foundAddresses.entries, E e.1 e.2

variable {passphrase : String} {E E' : Verdict} {a : Attempt}

theorem meets_start (passphrase : String) (E : Verdict) : (start passphrase).Meets passphrase E :=
  ⟨rfl, fun _ he => absurd he List.not_mem_nil⟩

theorem Meets.mono (h : a.Meets passphrase E) (hE : ∀ {name found}, E name found → E' name found) :
    a.Meets passphrase E' := ⟨h.1, fun e he => hE (h.2 e he)⟩

theorem Meets.absorb (h : a.Meets passphrase E) {o : SchemeOutcome}
    (ho : E o.schemeName o.addresses) : (a.absorb o).Meets passphrase E := by
  unfold Attempt.absorb
  dsimp only
  split
  · exact h
  split
  · exact h
  · refine ⟨h.1, fun e he => ?_⟩
    rcases NameMap.mem_insertEntry he with rfl | he
    · exact ho
    · exact h.2 e he

theorem Meets.foldl_absorb {outcomes : List SchemeOutcome}
    (ho : ∀ o ∈ outcomes, E o.schemeName o.addresses) (h : a.Meets passphrase E) :
    (outcomes.foldl Attempt.absorb a).Meets passphrase E := by
  induction outcomes generalizing a with
  | nil => exact h
  | cons o rest ih =>
    obtain ⟨hfirst, hrest⟩ := List.forall_mem_cons.mp ho
    exact ih hrest (h.absorb hfirst)

/-- Failures are no discoveries. -/
theorem Meets.foldl_recordFailure (failures : List ScanFailure) (h : a.Meets passphrase E) :
    (failures.foldl Attempt.recordFailure a).Meets passphrase E := by
  induction failures generalizing a with
  | nil => exact h
  | cons f rest ih => exact ih h

end Attempt

variable {C : Call → Prop} {R : World σ → World σ → Prop}
  {A : World σ → (c : Call) → c.Answer → Prop}

namespace Attempts

/-- Of the last completed attempt, if there is one, `G` holds. -/
def Meets (G : Attempt → Prop) (as : Attempts) : Prop :=
  ∀ number a, as.last = some (number, a) → G a

theorem meets_complete {G : Attempt → Prop} (as : Attempts) (number : Nat) {a : Attempt} (h : G a) :
    (as.complete number a).Meets G := by
  rintro _ _ ⟨rfl⟩
  exact h

/-- Attempts one after the other: each selects a seed for its passphrase and scans with it. What
holds of the attempts made so far lasts while the next one selects its seed and scans. -/
theorem leads_run (h : Evolves env C R A) {J : Attempts → World σ → Prop}
    {G : Attempt → World σ → Prop} {S : String → Seed → World σ → Prop}
    {seedFor : String → Run σ (Except DerivationError Seed)}
    {scan : Nat → Seed → String → Run σ Attempt}
    (hlasts : ∀ {as w w'}, R w w' → J as w → J as w')
    (hfailed : ∀ {as w} number e, J as w → J (as.seedFailed number e) w)
    (hcomplete : ∀ {as a w} number, J as w → G a w → J (as.complete number a) w)
    (hseed : ∀ p, Leads R (fun _ => True) (seedFor p) fun r w => ∀ seed, r = .ok seed → S p seed w)
    (hscan : ∀ number seed p, Leads R (S p seed) (scan number seed p) G) (as : Attempts)
    (number : Nat) (passphrases : List String) :
    Leads R (J as) (run seedFor scan number as passphrases) J := by
  induction passphrases generalizing number as with
  | nil => exact .pure h.refl fun _ has => has
  | cons passphrase rest ih =>
    refine .bind h.trans ((hseed passphrase).frame hlasts) fun r => ?_
    cases r with
    | error e =>
      exact (ih (as.seedFailed number e) _).mono (fun _ has => hfailed number e has.2)
        fun _ _ => id
    | ok seed =>
      refine .bind h.trans (((hscan number seed passphrase).frame_and hlasts).mono
        (fun _ has => ⟨has.1 seed rfl, has.2⟩) fun _ _ => id) fun a => ?_
      split
      · exact .pure h.refl fun _ ha => hcomplete number ha.2 ha.1
      · exact (ih _ _).mono (fun _ ha => hcomplete number ha.2 ha.1) fun _ _ => id

end Attempts

/-! ## Schemes -/

/-- The seed that a passphrase stands for: the given one for the empty passphrase, or else the one
that was answered. -/
def Selects (A : (c : Call) → c.Answer → Prop) (seed : Seed) (passphrase : String) (used : Seed) :
    Prop :=
  if passphrase = "" then used = seed else A (.seedForPassphrase seed passphrase) (.ok used)

theorem selects_self {B : (c : Call) → c.Answer → Prop} {seed : Seed} {passphrase : String}
    (h : passphrase = "") : Selects B seed passphrase seed := by
  rw [Selects, if_pos h]

/-- Scans of the schemes make calls that meet `C` only, and what they find with a seed meets `E` by
what is known then. -/
structure Upholds (C : Call → Prop) (R : World σ → World σ → Prop)
    (A : World σ → (c : Call) → c.Answer → Prop) (scanChange : Bool) (schemes : List PathScheme)
    (E : Seed → World σ → Verdict) : Prop where
  lasts : ∀ {seed w w' name found}, R w w' → E seed w name found → E seed w' name found
  seeds : ∀ seed passphrase, C (.seedForPassphrase seed passphrase)
  scheme : ∀ {s : Scanner} {scheme}, s.options.scanChangeAddresses = scanChange →
    scheme ∈ schemes → ∀ seed gapLimit priorityIndex,
      Asks C (s.scanScheme seed scheme gapLimit priorityIndex) ∧
        ∀ w, Gives (A w) (s.scanScheme seed scheme gapLimit priorityIndex) fun o =>
          E seed w o.schemeName o.addresses
  range : ∀ {s : Scanner} {scheme}, s.options.scanChangeAddresses = scanChange →
    scheme ∈ schemes → ∀ seed {start count}, start + count ≤ indexSpace →
      let scan := s.scanRange seed scheme (List.range' start count) (scheme.chains scanChange) []
        (.start scheme.name)
      Asks C scan ∧ ∀ w, Gives (A w) scan fun r => ∀ noted scan, r = .ok (noted, scan) →
        E seed w scan.schemeName scan.found

/-- What is known of a result: it is that of an attempt, with the seed that the passphrase stands
for, and what it holds was found with this seed. -/
def Known (A : World σ → (c : Call) → c.Answer → Prop) (E : Seed → World σ → Verdict)
    (seed : Seed) (r : Except RecoveryError ScanResult) (w : World σ) : Prop :=
  ∀ result, r = .ok result → ∃ a used, result = Attempt.result a ∧
    Selects (A w) seed a.passphrase used ∧ a.Meets a.passphrase (E used w)

section Searches

variable {s : Scanner} {scanChange : Bool} {schemes : List PathScheme}
  {E : Seed → World σ → Verdict} {Pre : World σ → Prop}

theorem known_error (seed : Seed) (e : RecoveryError) (w : World σ) :
    Known A E seed (.error e) w := by
  rintro _ ⟨⟩

variable (h : Evolves env C R A) (hE : Upholds C R A scanChange schemes E)

include h

theorem selects_lasts {seed used : Seed} {passphrase : String} {w w' : World σ} (hr : R w w')
    (hs : Selects (A w) seed passphrase used) : Selects (A w') seed passphrase used := by
  unfold Selects at *
  split at hs
  · rwa [if_pos ‹_›]
  · rw [if_neg ‹_›]
    exact h.kept hr hs

include hE

theorem leads_seedFor (seed : Seed) (passphrase : String) :
    Leads R Pre (Run.ofScan env (Scanner.seedFor seed passphrase)) fun r w =>
      ∀ used, r = .ok used → Selects (A w) seed passphrase used := by
  unfold Scanner.seedFor Selects
  split
  · exact .pure h.refl fun _ _ => by rintro _ ⟨rfl⟩; rfl
  · refine leads_ofScan h (asks_call (hE.seeds _ _)) fun w r hr => ?_
    rintro used rfl
    exact hr

theorem leads_scanInOrder (hs : s.options.scanChangeAddresses = scanChange) (seed : Seed)
    (first : Nat) {list : List PathScheme} (hlist : ∀ scheme ∈ list, scheme ∈ schemes)
    (passphrase : String) (a : Attempt) :
    Leads R (fun w => a.Meets passphrase (E seed w))
      (Run.ofScan env (s.scanInOrder seed first list a)) fun a w =>
        a.Meets passphrase (E seed w) := by
  induction list generalizing first a with
  | nil => exact .pure h.refl fun _ ha => ha
  | cons scheme rest ih =>
    obtain ⟨hscheme, hrest⟩ := List.forall_mem_cons.mp hlist
    have hkept {w w'} (hr : R w w') (ha : a.Meets passphrase (E seed w)) :
        a.Meets passphrase (E seed w') := ha.mono (hE.lasts hr)
    rw [Scanner.scanInOrder, ofScan_bind]
    refine .bind h.trans ((leads_ofScan h asks_isCancelled fun _ => .trivial _).frame hkept)
      fun b => ?_
    cases b with
    | true => exact .pure h.refl fun _ ha => ha.2
    | false =>
      obtain ⟨hasks, hgives⟩ := hE.scheme hs hscheme seed (s.options.gapLimitAt first) first
      show Leads R _ (Run.ofScan env (s.scanScheme _ _ _ _ >>= _)) _
      rw [ofScan_bind]
      refine .bind h.trans (((leads_ofScan h hasks hgives).frame hkept).mono (fun _ => And.right)
        fun _ _ => id) fun o => ?_
      exact (ih (first + 1) hrest (a.absorb o)).mono (fun _ ho => ho.2.absorb ho.1) fun _ _ => id

theorem leads_attempt (hs : s.options.scanChangeAddresses = scanChange)
    {list : List PathScheme} (hlist : ∀ scheme ∈ list, scheme ∈ schemes) (seed : Seed)
    (passphrase : String) :
    Leads R Pre (Run.ofScan env (s.attempt list seed passphrase)) fun a w =>
      a.Meets passphrase (E seed w) := by
  rw [Scanner.attempt, ofScan_bind]
  refine .bind h.trans ((leads_scanInOrder h hE hs seed 0 hlist passphrase _).mono
    (fun _ _ => Attempt.meets_start passphrase _) fun _ _ => id) fun a => ?_
  rw [ofScan_bind]
  exact .bind h.trans ((leads_ofScan h asks_isCancelled fun _ => .trivial _).frame
    fun hr ha => ha.mono (hE.lasts hr)) fun b => .pure h.refl fun _ ha => ha.2

theorem leads_attemptParallel (hs : s.options.scanChangeAddresses = scanChange)
    {list : List PathScheme} (hlist : ∀ scheme ∈ list, scheme ∈ schemes) (schedule : List Nat)
    (seed : Seed) (passphrase : String) :
    Leads R Pre (s.attemptParallel env schedule list seed passphrase) fun a w =>
      a.Meets passphrase (E seed w) := by
  have hscan : ∀ j ∈ s.jobs list, Asks C (s.scanJob seed j) ∧
      ∀ w, Gives (A w) (s.scanJob seed j) fun o => E seed w o.schemeName o.addresses := by
    intro j hj
    exact hE.scheme hs (hlist j.scheme (Scanner.scheme_mem_of_mem_jobs hj)) seed _ _
  refine .bind h.trans (leads_runPool h hscan schedule) fun pool => ?_
  refine .bind h.trans ((leads_ofScan h asks_isCancelled fun _ => .trivial _).frame
    fun hr ho o hmem => hE.lasts hr (ho o hmem)) fun b => .pure h.refl fun w ho => ?_
  have ha := (Attempt.meets_start passphrase (E seed w)).foldl_absorb ho.2
  exact ha.foldl_recordFailure pool.failures

/-- Of attempts that find what `E` says, the result is known. -/
theorem leads_attempts (seed : Seed) {scan : Nat → Seed → String → Run σ Attempt}
    (hscan : ∀ number used p, Leads R (fun _ => True) (scan number used p) fun a w =>
      a.Meets p (E used w)) (passphrases : List String) :
    Leads R Pre (Attempts.run (fun p => Run.ofScan env (Scanner.seedFor seed p)) scan 1 .none
      passphrases) fun as w => Known A E seed (.ok as.result) w := by
  let G (a : Attempt) (w : World σ) : Prop :=
    ∃ used, Selects (A w) seed a.passphrase used ∧ a.Meets a.passphrase (E used w)
  have hlasts {a w w'} (hr : R w w') : G a w → G a w' := by
    rintro ⟨used, hs, ha⟩
    exact ⟨used, selects_lasts h hr hs, ha.mono (hE.lasts hr)⟩
  have hfound (number used p) : Leads R (fun w => Selects (A w) seed p used)
      (scan number used p) G := by
    refine ((hscan number used p).frame (selects_lasts h)).mono (fun _ => id) ?_
    rintro a w ⟨⟨rfl, ha⟩, hs⟩
    exact ⟨used, hs, rfl, ha⟩
  refine (Attempts.leads_run (J := fun as w => as.Meets (G · w)) h
    (fun hr has number a ha => hlasts hr (has number a ha)) (fun _ _ has => has)
    (fun number _ ha => Attempts.meets_complete _ number ha) (leads_seedFor h hE seed) hfound
    .none 1 passphrases).mono (fun _ _ => by rintro _ _ ⟨⟩) fun as w has => ?_
  rintro _ ⟨rfl⟩
  unfold Attempts.result
  cases hlast : as.last with
  | none => exact ⟨_, seed, rfl, selects_self rfl, Attempt.meets_start "" _⟩
  | some last =>
    obtain ⟨used, hs, ha⟩ := has last.1 last.2 hlast
    exact ⟨_, used, rfl, hs, ha⟩

theorem leads_scanRangeInBulk (hs : s.options.scanChangeAddresses = scanChange)
    {scheme : PathScheme} (hscheme : scheme ∈ schemes) (seed : Seed) {start count : Nat}
    (hspace : start + count ≤ indexSpace) :
    Leads R Pre (Run.ofScan env (s.scanRangeInBulk seed scheme (List.range' start count)))
      fun r w => ∀ result, r = .ok result → Known A E seed (.ok result) w := by
  obtain ⟨hasks, hgives⟩ := hE.range hs hscheme seed hspace
  rw [Scanner.scanRangeInBulk, hs, ofScan_bind]
  refine .bind h.trans (leads_ofScan h hasks hgives) fun r => ?_
  rcases r with e | ⟨noted, scan⟩
  · exact .pure h.refl fun _ _ => by rintro _ ⟨⟩
  · refine .pure h.refl fun w hr => ?_
    rintro _ ⟨rfl⟩ _ ⟨rfl⟩
    have hstart := (Attempt.meets_start "" (E seed w)).foldl_recordFailure noted
    have ha := hstart.absorb (o := scan.outcome 0) (hr noted scan rfl)
    exact ⟨_, seed, rfl, selects_self ha.1, rfl, ha.2⟩

end Searches

/-- **What is known of the scans of single schemes is known of every result,** whichever way the
wallet was searched. -/
theorem Search.leads {s : Scanner} {search : Search} {E : Seed → World σ → Verdict}
    (h : Evolves env C R A)
    (hE : Upholds C R A s.options.scanChangeAddresses (search.targets s) E) (seed : Seed) :
    Leads R (fun _ => True) (search.run env s seed) (Known A E seed) := by
  have hsorted : ∀ scheme ∈ sortByPriority (search.targets s), scheme ∈ search.targets s :=
    fun scheme => List.mem_mergeSort.mp
  refine Search.leads_of h.refl h.trans (known_error seed) (fun s' hs _ => ?_)
    (fun schedules _ _ => ?_) fun scheme start count htargets hspace => ?_
  · rw [Scanner.attempts, ofScan_bind, ofScan_attempts]
    exact .bind h.trans (leads_attempts h hE seed
      (fun _ used p => leads_attempt h hE hs hsorted used p) _) fun as => .pure h.refl fun _ => id
  · exact .bind h.trans (leads_attempts h hE seed (fun number used p =>
      leads_attemptParallel h hE rfl hsorted (schedules number) used p) _)
      fun as => .pure h.refl fun _ => id
  · exact leads_scanRangeInBulk h hE rfl (by simp [htargets]) seed hspace

/-! ## Discoveries one by one -/

section Each

variable {s : Scanner} {seed : Seed} {scheme : PathScheme} {scanChange : Bool}
  {schemes : List PathScheme}

theorem sustained_calls {B : (c : Call) → c.Answer → Prop} {t : Target}
    (hreport : ∀ e, C (.report e)) (hasks : ∀ c, t.Asks c → C c) :
    Sustained B t fun _ _ log => ∀ c ∈ log, C c := by
  have hreports {log : List Call} (hlog : ∀ c ∈ log, C c) (e : ScanProgress) :
      ∀ c ∈ log ++ reports t.options e, C c := by
    refine List.forall_mem_append.mpr ⟨hlog, ?_⟩
    unfold reports
    split
    · exact List.forall_mem_singleton.mpr (hreport e)
    · exact List.forall_mem_nil _
  exact {
    asked := fun hc h => List.forall_mem_append.mpr ⟨h, List.forall_mem_singleton.mpr (hasks _ hc)⟩
    visited := fun _ h => hreports h _
    missed := fun _ _ h => hreports h _
    found := fun _ _ _ _ h => hreports h _
    passed := fun _ h => h
    stopped := fun h => h
    failed := fun _ _ h => h }

theorem sustained_each {B : (c : Call) → c.Answer → Prop} {t : Target}
    {P : DiscoveredAddress → Prop}
    (hP : ∀ index derived utxos, t.Derives B index (.ok derived) → Lists B derived.address utxos →
      utxos ≠ [] → P (t.discovery t.scheme.name index derived utxos)) :
    Sustained B t fun _ scan _ => scan.schemeName = t.scheme.name ∧ ∀ d ∈ scan.found, P d where
  asked _ h := h
  visited _ h := h
  missed _ _ h := h
  found {n scan log index derived utxos} _ hd hu hne h := by
    refine ⟨h.1, List.forall_mem_append.mpr ⟨h.2, List.forall_mem_singleton.mpr ?_⟩⟩
    rw [h.1]
    exact hP index derived utxos hd hu hne
  passed _ h := h
  stopped h := h
  failed _ _ h := h

theorem asks_scanScheme (hreport : ∀ e, C (.report e))
    (hasks : ∀ chain ∈ scheme.chains s.options.scanChangeAddresses, ∀ c,
      Target.Asks ⟨s.options, seed, scheme, chain⟩ c → C c) (gapLimit : UInt32)
    (priorityIndex : Nat) : Asks C (s.scanScheme seed scheme gapLimit priorityIndex) := by
  have hrelayed : Relayed (fun _ _ => True) s seed scheme
      (scheme.chains s.options.scanChangeAddresses) fun _ _ _ log => ∀ c ∈ log, C c :=
    .of_sustained fun chain hc => sustained_calls hreport (hasks chain hc)
  have h : Records (fun _ _ => True) (fun _ => True) [] _ _ :=
    hrelayed.scanScheme (List.forall_mem_nil _) gapLimit priorityIndex
  refine asks_of_records (h.mono ?_)
  rintro _ _ ⟨_, _, _, -, hlog⟩
  exact hlog

theorem asks_scanRange {chains : List Chain} (hreport : ∀ e, C (.report e))
    (hasks : ∀ chain ∈ chains, ∀ c, Target.Asks ⟨s.options, seed, scheme, chain⟩ c → C c)
    {start count : Nat} (hspace : start + count ≤ indexSpace) (noted : List ScanFailure)
    (scan : SchemeScan) :
    Asks C (s.scanRange seed scheme (List.range' start count) chains noted scan) := by
  have hrelayed : Relayed (fun _ _ => True) s seed scheme chains
      fun _ _ _ log => ∀ c ∈ log, C c :=
    .of_sustained fun chain hc => sustained_calls hreport (hasks chain hc)
  have h : Records (fun _ _ => True) (fun _ => True) []
      (s.scanRange seed scheme (List.range' start count) chains noted scan) _ :=
    hrelayed.scanRange id (List.forall_mem_nil _) hspace noted
  refine asks_of_records (h.mono ?_)
  rintro _ _ ⟨_, _, _, hlog, -⟩
  exact hlog

/-- What the chains of each scheme hand on is upheld. -/
theorem upholds_of_relayed {E : Seed → World σ → Verdict}
    {G : Seed → World σ → PathScheme → List Chain → Nat → Verdict}
    (hlasts : ∀ {seed w w' name found}, R w w' → E seed w name found → E seed w' name found)
    (hseeds : ∀ seed passphrase, C (.seedForPassphrase seed passphrase))
    (hreport : ∀ e, C (.report e))
    (hasks : ∀ t : Target, t.scheme ∈ schemes → t.chain ∈ t.scheme.chains scanChange →
      ∀ c, t.Asks c → C c)
    (hstart : ∀ scheme seed w, G seed w scheme (scheme.chains scanChange) 0 scheme.name [])
    (hrelayed : ∀ (s : Scanner), ∀ scheme ∈ schemes, ∀ seed w,
      Relayed (A w) s seed scheme (scheme.chains scanChange) fun left n scan _ =>
        G seed w scheme left n scan.schemeName scan.found)
    (hG : ∀ {seed w scheme left n name found}, G seed w scheme left n name found →
      E seed w name found) : Upholds C R A scanChange schemes E where
  lasts := hlasts
  seeds := hseeds
  scheme {s scheme} hs hscheme seed gapLimit priorityIndex := by
    subst hs
    refine ⟨asks_scanScheme hreport (fun chain hc => hasks _ hscheme hc) _ _, fun w => ?_⟩
    have h : Records (A w) (fun _ => True) [] _ _ :=
      (hrelayed s scheme hscheme seed w).scanScheme (hstart scheme seed w) gapLimit priorityIndex
    refine (Gives.of_records h).mono ?_
    rintro _ ⟨scan, left, n, rfl, h⟩
    exact hG h
  range {s scheme} hs hscheme seed start count hspace := by
    subst hs
    refine ⟨asks_scanRange hreport (fun chain hc => hasks _ hscheme hc) hspace _ _, fun w => ?_⟩
    have h : Records (A w) (fun _ => True) [] (s.scanRange seed scheme (List.range' start count)
        (scheme.chains s.options.scanChangeAddresses) [] (.start scheme.name)) _ :=
      (hrelayed s scheme hscheme seed w).scanRange id (hstart scheme seed w) hspace []
    refine (Gives.of_records h).mono ?_
    rintro _ ⟨scan, left, n, h, hscan⟩ noted scan' rfl
    rw [hscan noted scan' rfl]
    exact hG h

/-- What answers lead to on each chain is upheld of single discoveries. -/
theorem upholds_each {P : Seed → World σ → DiscoveredAddress → Prop}
    (hlasts : ∀ {seed w w' d}, R w w' → P seed w d → P seed w' d)
    (hseeds : ∀ seed passphrase, C (.seedForPassphrase seed passphrase))
    (hreport : ∀ e, C (.report e))
    (hasks : ∀ t : Target, t.scheme ∈ schemes → t.chain ∈ t.scheme.chains scanChange →
      ∀ c, t.Asks c → C c)
    (hP : ∀ w (t : Target), t.scheme ∈ schemes → ∀ index derived utxos,
      t.Derives (A w) index (.ok derived) → Lists (A w) derived.address utxos → utxos ≠ [] →
        P t.seed w (t.discovery t.scheme.name index derived utxos)) :
    Upholds C R A scanChange schemes fun seed w _ found => ∀ d ∈ found, P seed w d :=
  upholds_of_relayed
    (G := fun seed w scheme _ _ name found => name = scheme.name ∧ ∀ d ∈ found, P seed w d)
    (fun hr h d hd => hlasts hr (h d hd)) hseeds hreport hasks
    (fun _ _ _ => ⟨rfl, List.forall_mem_nil _⟩)
    (fun s scheme hscheme seed w => .of_sustained fun chain _ =>
      sustained_each (hP w ⟨s.options, seed, scheme, chain⟩ hscheme))
    And.right

end Each

/-! ## What answers grant -/

section Granted

variable {B : (c : Call) → c.Answer → Prop} {P : DiscoveredAddress → Prop}

/-- Whatever is answered, `B` allows. -/
def Environment.Tells (env : Environment σ) (B : (c : Call) → c.Answer → Prop) : Prop :=
  ∀ c s a, (env.reply c s).answer = .ok a → B c a

/-- Answers that `B` allows lead to discoveries that meet `P` only. -/
def Grants (B : (c : Call) → c.Answer → Prop) (P : DiscoveredAddress → Prop) : Prop :=
  ∀ (t : Target) index derived utxos, t.Derives B index (.ok derived) →
    Lists B derived.address utxos → utxos ≠ [] →
    P (t.discovery t.scheme.name index derived utxos)

/-- A result, if there is one, has discoveries that meet `P`. -/
def Found (P : DiscoveredAddress → Prop) (r : Except RecoveryError ScanResult) : Prop :=
  ∀ result, r = .ok result → result.All P

/-- Allowed answers are known at any time. -/
theorem Environment.Tells.evolves (h : env.Tells B) :
    Evolves env (fun _ => True) (fun _ _ => True) fun _ => B where
  refl _ := .intro
  trans _ _ := .intro
  called _ := .intro
  looked := .intro
  staffed _ := .intro
  told {c w a _} hr := h c w.state a (congrArg Prod.fst hr)
  kept _ hB := hB

/-- **What the answers grant to each discovery holds of every result,** whichever way the wallet was
searched. -/
theorem Search.granted (h : env.Tells B) (hP : Grants B P) (s : Scanner) (seed : Seed)
    (search : Search) (w : World σ) (r : Except RecoveryError ScanResult) (w' : World σ)
    (hr : search.run env s seed w = (.ok r, w')) : Found P r := by
  have hE : Upholds (fun _ => True) (fun _ _ : World σ => True) (fun _ => B)
      s.options.scanChangeAddresses (search.targets s) fun _ _ _ found => ∀ d ∈ found, P d :=
    upholds_each (fun _ => id) (fun _ _ => .intro) (fun _ => .intro) (fun _ _ _ _ _ => .intro)
      fun _ t _ => hP t
  obtain ⟨-, hknown⟩ := Search.leads h.evolves hE seed w (.ok r) w' .intro hr
  intro result hresult
  obtain ⟨a, used, rfl, -, -, hall⟩ := hknown r rfl result hresult
  exact hall

end Granted

end Discovery

end FundRecovery
