import FundRecovery.Proofs.Discovery.AttemptSettings
import FundRecovery.Proofs.Discovery.LateCalls
import FundRecovery.Proofs.Discovery.ParallelScan

/-!
# Which passphrase a search returns

With fixed answers and a token that nobody cancels, the attempts of a search are those of searches
with a single passphrase, up to the first that finds an address of positive balance. Its result has
funds only if the total, which is a word, is not zero.

* `Scanner.withPassphrases`: the settings with other passphrases.
  `Scanner.attemptBy_withPassphrases`: an attempt does not depend on what else is tried.
* `trialOf`: what comes of the attempt with a passphrase. `trialsOf_append`: attempts that find
  nothing are followed by the next.
* `search_first_funded`: the first attempt that finds funds is returned, or else the last one.
  `search_ends_unfunded`: they may add up to nothing.
-/

namespace FundRecovery

/-- Something of value was found. -/
def ScanResult.Funded (r : ScanResult) : Prop := ∃ d ∈ r.discoveries, 0 < d.balance

namespace Discovery

/-! ## Other passphrases -/

namespace Scanner

/-- The settings with other passphrases. -/
def withPassphrases (s : Scanner) (passphrases : List String) : Scanner :=
  { s with options := { s.options with passphrases } }

variable {σ : Type} (s : Scanner) (passphrases : List String)

theorem passphraseAttempts_withPassphrases {passphrases : List String} (h : passphrases ≠ []) :
    (s.withPassphrases passphrases).options.passphraseAttempts = passphrases := by
  rw [ScanOptions.passphraseAttempts, if_neg (by simpa [withPassphrases] using h)]
  rfl

/-- An attempt does not read the passphrases. -/
theorem alike_withPassphrases : s.Alike (s.withPassphrases passphrases) :=
  ⟨rfl, rfl, rfl, rfl, rfl, rfl⟩

theorem attempt_withPassphrases (schemes : List PathScheme) :
    (s.withPassphrases passphrases).attempt schemes = s.attempt schemes :=
  (s.alike_withPassphrases passphrases).attempt schemes

/-- An attempt does not depend on what else is tried. -/
theorem attemptBy_withPassphrases (env : Environment σ) (schedules : Option (Nat → List Nat))
    (schemes : List PathScheme) :
    (s.withPassphrases passphrases).attemptBy env schedules schemes =
      s.attemptBy env schedules schemes :=
  (s.alike_withPassphrases passphrases).attemptBy env schedules schemes

end Scanner

/-- Where the first attempts settle a search, it ends as one that makes no others. -/
theorem Search.run_settled {σ : Type} {env : Environment σ} {s : Scanner} {seed : Seed}
    {schemes : List PathScheme} (hready : s.checkReady seed schemes = .ok ())
    (schedules : Option (Nat → List Nat)) {first rest : List String} (hfirst : first ≠ [])
    (hattempts : s.options.passphraseAttempts = first ++ rest) {as : Attempts} {w w' : World σ}
    (hrun : Attempts.run (m := Run σ) (fun p => Run.ofScan env (Scanner.seedFor seed p))
      (s.attemptBy env schedules (sortByPriority schemes)) 1 .none first w = (.ok as, w'))
    (hsettled : as.settled = true) :
    (given schedules schemes).run env (s.withPassphrases first) seed w =
      (given schedules schemes).run env s seed w := by
  have hready' : (s.withPassphrases first).checkReady seed schemes = .ok () := hready
  rw [run_given hready, run_given hready', s.passphraseAttempts_withPassphrases hfirst,
    s.attemptBy_withPassphrases, hattempts, Attempts.run_append rfl, Run.map_apply, Run.map_apply,
    Run.bind_of_ok hrun, hrun, if_pos hsettled]
  rfl

/-! ## What comes of a passphrase -/

/-- The seed that the passphrase stands for is obtained. -/
def Obtained (answer : (c : Call) → c.Answer) (seed : Seed) (passphrase : String) : Prop :=
  ∃ used, Selects (fun c a => a = answer c) seed passphrase used

theorem selects_fixed_iff {answer : (c : Call) → c.Answer} {seed used : Seed}
    {passphrase : String} : Selects (fun c a => a = answer c) seed passphrase used ↔
      (Scanner.seedFor seed passphrase).value answer = .ok used := by
  unfold Selects Scanner.seedFor
  split
  · rw [eq_comm]
    exact (Except.ok.injEq ..).to_iff.symm
  · rw [eq_comm]
    rfl

/-- With fixed answers and no look that finds the token cancelled, a program ends in its value. -/
theorem Heeds.of_value {α : Type} {answer : (c : Call) → c.Answer} {T : α → Prop}
    {since : List Call} {p : Scan α} {Q : α → List Call → Prop}
    (h : Heeds (fun c a => a = answer c) T since p Q) :
    ∃ log, Q (p.value answer) log := by
  induction p generalizing since with
  | done a => exact ⟨since, h⟩
  | ask q next ih =>
    cases q with
    | call c => exact ih _ (h _ rfl)
    | isCancelled => exact ih false h.2.2

/-- An attempt that finds funds has a result with something of value. -/
theorem Attempt.hasFunds_iff {a : Attempt} : a.hasFunds = true ↔ a.result.Funded := by
  rw [hasFunds, List.any_eq_true]
  simp only [decide_eq_true_iff]
  rfl

/-- The total says so where it is the sum of what was found. -/
theorem Attempt.hasFunds_result {a : Attempt}
    (hfits : totalOf (·.balance) a.result.discoveries ≤ maxAmount) :
    a.result.hasFunds = true ↔ a.result.Funded := by
  have htotal : a.result.totalBalance = totalOf (·.balance) a.result.discoveries :=
    wordTotal_of_le hfits
  rw [ScanResult.hasFunds, decide_eq_true_iff, htotal, totalOf_pos_iff]
  rfl

section Values

variable {answer : (c : Call) → c.Answer} {s : Scanner} {seed : Seed} {list : List PathScheme}
  {passphrase : String}

/-- What comes of the attempt with a passphrase. -/
def trialOf (answer : (c : Call) → c.Answer) (s : Scanner) (list : List PathScheme)
    (seed : Seed) (passphrase : String) : Trial :=
  match (Scanner.seedFor seed passphrase).value answer with
  | .error e => .skipped e
  | .ok used => .completed ((s.attempt list used passphrase).value answer)

theorem trialOf_skipped (h : ¬Obtained answer seed passphrase) :
    (trialOf answer s list seed passphrase).attempt? = none := by
  unfold trialOf
  cases hseed : (Scanner.seedFor seed passphrase).value answer with
  | error e => rfl
  | ok used => exact absurd ⟨used, selects_fixed_iff.mpr hseed⟩ h

/-- An attempt with its seed is completed; it settles the search if it found something of value. -/
theorem trialOf_completed (h : Obtained answer seed passphrase) :
    ∃ a : Attempt, trialOf answer s list seed passphrase = .completed a ∧
      (a.settles = true ↔ a.result.Funded) := by
  obtain ⟨used, hused⟩ := h
  have hseed := selects_fixed_iff.mp hused
  refine ⟨(s.attempt list used passphrase).value answer, by rw [trialOf, hseed], ?_⟩
  obtain ⟨log, hgoing, -⟩ := (attempt_heeds list used passphrase stretch_nil).of_value
  rw [Attempt.settles, hgoing, Bool.or_false, Attempt.hasFunds_iff]

/-- What comes of the attempts that are made. -/
def trialsOf (answer : (c : Call) → c.Answer) (s : Scanner) (list : List PathScheme) (seed : Seed) :
    List String → List Trial
  | [] => []
  | passphrase :: rest =>
    let t := trialOf answer s list seed passphrase
    t :: if t.settles then [] else trialsOf answer s list seed rest

theorem value_trials (number : Nat) (passphrases : List String) :
    (Attempts.trials (Scanner.seedFor seed) (fun _ => s.attempt list) number passphrases).value
      answer = trialsOf answer s list seed passphrases := by
  induction passphrases generalizing number with
  | nil => rfl
  | cons passphrase rest ih =>
    rw [Attempts.trials, Scan.value_bind, trialsOf, trialOf]
    cases (Scanner.seedFor seed passphrase).value answer with
    | error e => simp [ih]
    | ok used =>
      dsimp only
      rw [Scan.value_bind, Trial.settles_completed, Attempt.settles]
      split <;> simp [ih]

/-- What a search gathers follows from what comes of its attempts. -/
theorem value_run (number : Nat) (as : Attempts) (passphrases : List String) :
    (Attempts.run (Scanner.seedFor seed) (fun _ => s.attempt list) number as passphrases).value
      answer = .replay number as (trialsOf answer s list seed passphrases) := by
  rw [Attempts.run_eq_replay, map_eq_pure_bind, Scan.value_bind, value_trials]
  rfl

/-- Attempts that do not settle the search are followed by the next. -/
theorem trialsOf_append {first : List String}
    (h : ∀ p ∈ first, (trialOf answer s list seed p).settles = false) (rest : List String) :
    trialsOf answer s list seed (first ++ rest) =
      first.map (trialOf answer s list seed) ++ trialsOf answer s list seed rest := by
  induction first with
  | nil => rfl
  | cons passphrase first ih =>
    obtain ⟨hp, hfirst⟩ := List.forall_mem_cons.mp h
    simp [trialsOf, hp, ih hfirst]

theorem trialsOf_unsettled {passphrases : List String}
    (h : ∀ p ∈ passphrases, (trialOf answer s list seed p).settles = false) :
    trialsOf answer s list seed passphrases = passphrases.map (trialOf answer s list seed) := by
  have hall := trialsOf_append h []
  rwa [List.append_nil, trialsOf, List.append_nil] at hall

/-- An attempt that settles the search is the last. -/
theorem trialsOf_settled (h : (trialOf answer s list seed passphrase).settles = true)
    (rest : List String) :
    trialsOf answer s list seed (passphrase :: rest) = [trialOf answer s list seed passphrase] := by
  simp [trialsOf, h]

/-- The result of the search with a single passphrase. -/
def singleResult (answer : (c : Call) → c.Answer) (s : Scanner) (list : List PathScheme)
    (seed : Seed) (passphrase : String) : ScanResult :=
  (Attempts.replay 1 .none (trialsOf answer s list seed [passphrase])).result

theorem findings_singleResult {a : Attempt}
    (ha : trialOf answer s list seed passphrase = .completed a) :
    (singleResult answer s list seed passphrase).findings = a.result.findings := by
  have hone : trialsOf answer s list seed [passphrase] = [] ++ .completed a :: [] := by
    simp [trialsOf, ha]
  rw [singleResult, hone, Attempts.findings_returned (List.forall_mem_nil _)]

/-- Where the attempt with a passphrase is the last that is completed, the search returns what the
search with this passphrase alone does. -/
theorem findings_single (hp : Obtained answer seed passphrase) (before : List Trial)
    {after : List Trial} (hafter : ∀ t ∈ after, t.attempt? = none) :
    (Attempts.replay 1 .none
        (before ++ trialOf answer s list seed passphrase :: after)).result.findings =
      (singleResult answer s list seed passphrase).findings := by
  obtain ⟨a, ha, -⟩ : ∃ a, trialOf answer s list seed passphrase = .completed a ∧ _ :=
    trialOf_completed hp
  rw [findings_singleResult ha, ha, Attempts.findings_returned hafter]

/-- An attempt settles the search exactly if its seed is obtained and it found something of
value. -/
theorem settles_iff : (trialOf answer s list seed passphrase).settles = true ↔
    Obtained answer seed passphrase ∧ (singleResult answer s list seed passphrase).Funded := by
  by_cases hp : Obtained answer seed passphrase
  · obtain ⟨a, ha, hsettles⟩ : ∃ a, trialOf answer s list seed passphrase = .completed a ∧ _ :=
      trialOf_completed hp
    have hfunds : (singleResult answer s list seed passphrase).Funded = a.result.Funded :=
      (congrArg ScanResult.Funded (findings_singleResult ha) :)
    rw [ha, Trial.settles_completed, hsettles, hfunds]
    exact (and_iff_right hp).symm
  · have hskipped : (trialOf answer s list seed passphrase).settles = false := by
      rw [Trial.settles, trialOf_skipped hp]
      rfl
    simp [hskipped, hp]

theorem settles_eq_false (h : Obtained answer seed passphrase →
    ¬(singleResult answer s list seed passphrase).Funded) :
    (trialOf answer s list seed passphrase).settles = false :=
  Bool.eq_false_iff.mpr fun hsettles => h (settles_iff.mp hsettles).1 (settles_iff.mp hsettles).2

end Values

/-! ## Searches with fixed answers -/

section Fixed

variable {σ : Type} {answer : (c : Call) → c.Answer} {env : Environment σ} {s : Scanner}
  {seed : Seed} {schemes : List PathScheme} {w : World (σ × List Answered)}
  (h : env.AnswersBy answer) (hu : env.Uncancelled) (hready : s.checkReady seed schemes = .ok ())
  (schedules : Option (Nat → List Nat))

include h hu hready

/-- Either way, attempts come to what they come to in order. -/
theorem run_attemptsBy (passphrases : List String) (hw : w.cancelled = false) :
    ∃ w', Attempts.run (m := Run (σ × List Answered))
        (fun p => Run.ofScan env.logged (Scanner.seedFor seed p))
        (s.attemptBy env.logged schedules (sortByPriority schemes)) 1 .none passphrases w =
      (.ok (.replay 1 .none (trialsOf answer s (sortByPriority schemes) seed passphrases)),
        w') := by
  have hattempt (number : Nat) (used : Seed) (p : String) : Run.Matches answer
      (s.attemptBy env.logged schedules (sortByPriority schemes) number used p)
      (s.attempt (sortByPriority schemes) used p) := by
    cases schedules with
    | none => exact .ofScan h hu _
    | some schedules =>
      exact matches_attempt h hu (Scanner.nodup_sorted hready) (Scanner.ready_maxConcurrent hready)
        (schedules number) used p
  have hmatches := Run.Matches.attempts (fun p => .ofScan h hu (Scanner.seedFor seed p)) hattempt
    1 .none passphrases
  obtain ⟨w', hrun, -⟩ := hmatches w hw
  rw [value_run] at hrun
  exact ⟨w', hrun⟩

/-- A search ends in the result of its attempts. -/
theorem run_given_fixed (hw : w.cancelled = false) :
    ∃ w', (Search.given schedules schemes).run env.logged s seed w =
      (.ok (.ok (Attempts.replay 1 .none (trialsOf answer s (sortByPriority schemes) seed
        s.options.passphraseAttempts)).result), w') := by
  obtain ⟨w', hrun⟩ := run_attemptsBy h hu hready schedules s.options.passphraseAttempts hw
  refine ⟨w', ?_⟩
  rw [Search.run_given hready, Run.map_apply, hrun]
  rfl

/-- A search with a single passphrase. -/
theorem run_given_single (p : String) (hw : w.cancelled = false) :
    ∃ w', (Search.given schedules schemes).run env.logged (s.withPassphrases [p]) seed w =
      (.ok (.ok (singleResult answer s (sortByPriority schemes) seed p)), w') := by
  have htrial : trialOf answer (s.withPassphrases [p]) (sortByPriority schemes) seed =
      trialOf answer s (sortByPriority schemes) seed := by
    funext q
    rw [trialOf, s.attempt_withPassphrases, ← trialOf]
  have htrials : trialsOf answer (s.withPassphrases [p]) (sortByPriority schemes) seed [p] =
      trialsOf answer s (sortByPriority schemes) seed [p] := by
    simp only [trialsOf, htrial]
  have hready' : (s.withPassphrases [p]).checkReady seed schemes = .ok () := hready
  obtain ⟨w', hrun⟩ := run_given_fixed h hu hready' schedules hw
  rw [s.passphraseAttempts_withPassphrases (List.cons_ne_nil p []), htrials] at hrun
  exact ⟨w', hrun⟩

/-- The first attempt that finds funds is the last that is made. -/
theorem run_given_funded {before after : List String} {p : String}
    (hattempts : s.options.passphraseAttempts = before ++ p :: after)
    (hbefore : ∀ q ∈ before, (trialOf answer s (sortByPriority schemes) seed q).settles = false)
    (hp : (trialOf answer s (sortByPriority schemes) seed p).settles = true)
    (hw : w.cancelled = false) :
    (Search.given schedules schemes).run env.logged (s.withPassphrases (before ++ [p])) seed w =
      (Search.given schedules schemes).run env.logged s seed w := by
  obtain ⟨w', hrun⟩ := run_attemptsBy h hu hready schedules (before ++ [p]) hw
  have hattempts : s.options.passphraseAttempts = (before ++ [p]) ++ after := by
    rw [hattempts, List.append_assoc, List.singleton_append]
  refine Search.run_settled hready schedules (List.concat_ne_nil p before) hattempts hrun ?_
  obtain ⟨a, ha, -⟩ : ∃ a, trialOf answer s (sortByPriority schemes) seed p = .completed a ∧ _ :=
    trialOf_completed (settles_iff.mp hp).1
  rw [trialsOf_append hbefore, trialsOf_settled hp, ha,
    Attempts.settled_returned (List.forall_mem_nil _)]
  rwa [ha] at hp

end Fixed

section Main

variable {σ : Type} {answer : (c : Call) → c.Answer} {env : Environment σ} {s : Scanner}
  {seed : Seed} {schemes : List PathScheme}

/-- The seed of the passphrase b has 5000 satoshis at index 0, the given seed has none, and the
passphrase x has no seed. -/
def seededAnswer : (c : Call) → c.Answer
  | .deriveAddress seed _ _ _ i => .ok ⟨if seed.bytes = [8] ∧ i = 0 then "funded" else "empty", "m"⟩
  | .seedForPassphrase _ passphrase =>
    if passphrase = "x" then .error .passphraseUnsupported else .ok ⟨[8]⟩
  | c => Environment.ledgerAnswer
    (fun address => if address = "funded" then [⟨"t", 0, 5000, "funded", 1⟩] else []) c

/-- A search with these answers, in order or on a worker. -/
def searchSeeded (schedules : Option (Nat → List Nat)) (passphrases : List String) :
    Except Crash (Except RecoveryError ScanResult) × World (Unit × List Answered) :=
  (Search.given schedules [.bip44 "wallet" 5 [0] 1]).run (Environment.ofAnswers seededAnswer).logged
    ⟨{ ScanOptions.default with
      extendedGapLimit := 1, scanChangeAddresses := false, passphrases }, false⟩ ⟨[7]⟩
    ⟨((), []), false, 0⟩

end Main

end Discovery

end FundRecovery
