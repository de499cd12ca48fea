import FundRecovery.Proofs.Discovery.FailureReports
import FundRecovery.Proofs.Discovery.FinishedScans
import FundRecovery.Proofs.Discovery.ProgressAccounts

/-!
# The progress events of a search

The events of an attempt are those of its scans, so that they can be counted on its result, which
has the outcomes of these scans.

* `Counts result scans new`: the result counts the events. `Attempt.Follows.counts`: so does that of
  an attempt.
* `Attempts.leads_trials_events`: the events of a search are those of its attempts.
* `progress_accounts`: the events of every scan of a scheme and of every search.
-/

namespace FundRecovery.Discovery

variable {σ : Type}

/-! ## Results -/

namespace Attempt

/-- Outcomes of scans that failed make no entries. -/
theorem foundAddresses_foldl_absorb (outcomes : List SchemeOutcome) {a b : Attempt}
    (h : a.foundAddresses = b.foundAddresses) :
    (outcomes.foldl absorb a).foundAddresses =
      ((outcomes.filter (·.failure.isNone)).foldl absorb b).foundAddresses := by
  induction outcomes generalizing a b with
  | nil => exact h
  | cons o rest ih =>
    cases hfailure : o.failure with
    | some failure =>
      rw [List.filter_cons_of_neg (by simp [hfailure])]
      refine ih ?_
      rw [← h]
      simp only [absorb, hfailure]
    | none =>
      rw [List.filter_cons_of_pos (by simp [hfailure])]
      refine ih ?_
      simp only [absorb, hfailure]
      split
      · exact h
      · exact congrArg (·.insert o.schemeName o.addresses) h

/-- The addresses of a result are those of the scans that did not fail. -/
theorem addressCount_gathered {outcomes : List SchemeOutcome}
    (hn : (outcomes.map (·.schemeName)).Nodup) (passphrase : String) (cancelled : Bool) :
    ((gathered passphrase outcomes).noteToken cancelled).result.addressCount =
      totalOf (·.addresses.length) (outcomes.filter (·.failure.isNone)) := by
  let sound := outcomes.filter (·.failure.isNone)
  have hsound : ∀ o ∈ sound, o.failure = none := fun o ho => by
    simpa using (List.mem_filter.mp ho).2
  have hfound : (gathered passphrase outcomes).foundAddresses =
      (gathered passphrase sound).foundAddresses := foundAddresses_foldl_absorb outcomes rfl
  have hperm := perm_discoveries_gathered (hn.sublist (List.filter_sublist.map _)) hsound passphrase
  have hlength := hperm.length_eq
  calc totalOf List.length (gathered passphrase outcomes).foundAddresses.values
      = (gathered passphrase sound).discoveries.length := by rw [totalOf_length, hfound]; rfl
    _ = (sound.flatMap (·.addresses)).length := hlength.symm
    _ = totalOf (·.addresses.length) sound := by
        rw [List.flatMap_def, ← totalOf_length, totalOf_map]

end Attempt

/-! ## Counts -/

/-- The calls of a scan that came to its outcome are an account of it. -/
theorem FinishedScan.Finishes.accounts {s : Scanner} (ho : s.options.observed = true) {seed : Seed}
    {x : FinishedScan} (h : x.Finishes (s.scanJob seed)) : x.outcome.Accounts (answered x.course) :=
  (accounts_scanScheme ho seed x.job.scheme x.job.gapLimit x.job.priorityIndex).outcome h

/-- The result has the outcomes of the scans, and counts the events `new`. -/
structure Counts (result : ScanResult) (scans : List FinishedScan) (new : List ScanProgress) :
    Prop where
  schemesScanned : result.schemesScanned = scans.map (·.outcome.schemeName)
  entries : ∀ x ∈ scans, result.foundAddresses.get? x.outcome.schemeName = x.outcome.entry?
  events : ∀ x ∈ scans, new.filter (·.schemeName = x.outcome.schemeName) = x.events
  accounts : ∀ x ∈ scans, x.outcome.Accounts (answered x.course)
  scanning : new.countP (·.phase = .scanning) = result.addressesScanned
  found : new.countP (·.phase = .found) = result.addressCount +
    totalOf (·.outcome.addresses.length) (scans.filter (·.outcome.failure.isSome))

namespace Counts

/-- Failures are not counted. -/
theorem of_findings {r result : ScanResult} {scans : List FinishedScan} {new : List ScanProgress}
    (h : Counts r scans new) (heq : result.findings = r.findings) : Counts result scans new := by
  obtain ⟨hschemes, hfound, hscanned⟩ : result.schemesScanned = r.schemesScanned ∧
      result.foundAddresses = r.foundAddresses ∧ result.addressesScanned = r.addressesScanned :=
    ⟨congrArg (·.schemesScanned) heq, congrArg (·.foundAddresses) heq,
      congrArg (·.addressesScanned) heq⟩
  refine ⟨hschemes.trans h.schemesScanned, ?_, h.events, h.accounts,
    h.scanning.trans hscanned.symm, ?_⟩
  · rw [hfound]
    exact h.entries
  · rw [ScanResult.addressCount, hfound]
    exact h.found

/-- Without attempts there is nothing to count. -/
theorem empty {result : ScanResult} (heq : result.findings = .empty) : Counts result [] [] := by
  have hnone : Counts ScanResult.empty [] [] := ⟨rfl, by simp, by simp, by simp, rfl, rfl⟩
  exact hnone.of_findings heq

end Counts

/-- Lists that have the same events of each of some distinct names, and no others, have the same
events. -/
theorem perm_of_filter_schemeName {ι : Type} {name : ι → String} {part : ι → List ScanProgress}
    {parts : List ι} {new : List ScanProgress} (hnames : (parts.map name).Nodup)
    (hparts : ∀ x ∈ parts, new.filter (·.schemeName = name x) = part x)
    (hnew : ∀ e ∈ new, e.schemeName ∈ parts.map name) : new.Perm (parts.flatMap part) := by
  induction parts generalizing new with
  | nil =>
    rw [List.eq_nil_iff_forall_not_mem.mpr fun e he => List.not_mem_nil (hnew e he)]
    exact .nil
  | cons x rest ih =>
    obtain ⟨hfresh, hnames⟩ := List.nodup_cons.mp (List.map_cons ▸ hnames)
    obtain ⟨hfirst, hrest⟩ := List.forall_mem_cons.mp hparts
    -- The events of the first name, and those of the others.
    have hsplit := (List.filter_append_perm (·.schemeName = name x) new).symm
    rw [hfirst] at hsplit
    refine hsplit.trans (.append_left _ (ih hnames (fun y hy => ?_) fun e he => ?_))
    · have hne : name y ≠ name x := fun he => hfresh (he ▸ List.mem_map_of_mem hy)
      rw [← hrest y hy, List.filter_filter]
      refine List.filter_congr fun e _ => ?_
      by_cases he : e.schemeName = name y
      · simp [he, hne]
      · simp [he]
    · obtain ⟨he, hother⟩ := List.mem_filter.mp he
      have hne : e.schemeName ≠ name x := by simpa using hother
      exact (List.mem_cons.mp (List.map_cons ▸ hnew e he)).resolve_left hne

/-- A list is counted item by item. -/
theorem countP_flatMap_eq {ι α : Type} (p : α → Bool) (part : ι → List α) (parts : List ι) :
    (parts.flatMap part).countP p = totalOf (fun x => (part x).countP p) parts := by
  induction parts with
  | nil => rfl
  | cons x rest ih => rw [List.flatMap_cons, List.countP_append, ih, totalOf_cons]

/-- A total is that of the items that meet a condition and that of the others. -/
theorem totalOf_filter_add {α : Type} (measure : α → Nat) (p : α → Bool) (items : List α) :
    totalOf measure (items.filter p) + totalOf measure (items.filter fun a => !p a) =
      totalOf measure items := by
  rw [← totalOf_append]
  exact totalOf_perm (List.filter_append_perm p items)

/-- The result of an attempt counts the events of its scans. -/
theorem Attempt.Follows.counts {s : Scanner} (ho : s.options.observed = true) {seed : Seed}
    {schemes : List PathScheme} (hnames : (schemes.map (·.name)).Nodup) {new : List ScanProgress}
    {a : Attempt} {scans : List FinishedScan} (h : a.Follows s seed schemes new scans) :
    Counts a.result scans new := by
  let outcomes := scans.map (·.outcome)
  have hname : ∀ x ∈ scans, x.outcome.schemeName = x.job.scheme.name :=
    fun x hx => (h.finishes x hx).named.1.1
  have hdistinct := h.nodup_names hnames
  have houtcomes : (outcomes.map (·.schemeName)).Nodup := by rwa [h.map_schemeName]
  have hperm : new.Perm (scans.flatMap (·.events)) :=
    perm_of_filter_schemeName hdistinct h.events h.named
  have haccounts : ∀ x ∈ scans, x.outcome.Accounts (answered x.course) :=
    fun x hx => (h.finishes x hx).accounts ho
  obtain ⟨passphrase, cancelled, rfl⟩ := h.gathered
  constructor
  case schemesScanned =>
    exact Attempt.schemesScanned_gathered.trans List.map_map
  case entries =>
    intro x hx
    exact Attempt.get?_gathered houtcomes (List.mem_map_of_mem hx)
  case events =>
    intro x hx
    rw [hname x hx]
    exact h.events x hx
  case accounts => exact haccounts
  case scanning =>
    calc new.countP (·.phase = .scanning)
        = totalOf (fun x => x.events.countP (·.phase = .scanning)) scans := by
          rw [hperm.countP_eq, countP_flatMap_eq]
      _ = totalOf (·.outcome.scanned) scans :=
          totalOf_congr fun x hx => (haccounts x hx).tally.countP_scanning
      _ = totalOf (·.scanned) outcomes := (totalOf_map ..).symm
      _ = (Attempt.gathered passphrase outcomes).addressesScanned :=
          (Attempt.addressesScanned_gathered passphrase outcomes).symm
  case found =>
    calc new.countP (·.phase = .found)
        = totalOf (fun x => x.events.countP (·.phase = .found)) scans := by
          rw [hperm.countP_eq, countP_flatMap_eq]
      _ = totalOf (·.outcome.addresses.length) scans :=
          totalOf_congr fun x hx => (haccounts x hx).tally.countP_found
      _ = totalOf (·.outcome.addresses.length) (scans.filter (·.outcome.failure.isNone)) +
            totalOf (·.outcome.addresses.length) (scans.filter (·.outcome.failure.isSome)) := by
          rw [← totalOf_filter_add _ (·.outcome.failure.isNone)]
          simp
      _ = _ := by
          rw [Attempt.addressCount_gathered houtcomes, List.filter_map, totalOf_map]
          rfl

/-! ## Attempts -/

section Attempts

variable {P : List ScanProgress → Attempt → Prop}

/-- Seeds are obtained quietly, and the events of each attempt meet `P`: then the events of all
attempts are those of the completed ones. -/
theorem Attempts.leads_trials_events
    {seedFor : String → Run (σ × List Answered) (Except DerivationError Seed)}
    {scan : Nat → Seed → String → Run (σ × List Answered) Attempt}
    (hseed : ∀ p log, Leads (fun _ _ => True) (·.events = log) (seedFor p) fun _ w =>
      w.events = log)
    (hscan : ∀ number seed p log, Leads (fun _ _ => True) (·.events = log) (scan number seed p)
      fun a w => ∃ new, w.events = log ++ new ∧ P new a)
    (number : Nat) (passphrases : List String) (log : List ScanProgress) :
    Leads (fun _ _ => True) (·.events = log) (trials seedFor scan number passphrases)
      fun trials w => trials.length ≤ passphrases.length ∧ ∃ parts,
        w.events = log ++ parts.flatten ∧
          List.Forall₂ P parts (trials.filterMap (·.attempt?)) := by
  induction passphrases generalizing number log with
  | nil => exact .pure (fun _ => .intro) fun w hw => ⟨Nat.le_refl 0, [], by simp [hw], .nil⟩
  | cons passphrase rest ih =>
    refine .bind (fun _ _ => .intro) (hseed passphrase log) fun r => ?_
    cases r with
    | error e =>
      refine .bind (fun _ _ => .intro) (ih _ log) fun trials => .pure (fun _ => .intro) ?_
      rintro w ⟨hlength, parts, hevents, hparts⟩
      exact ⟨Nat.succ_le_succ hlength, parts, hevents, hparts⟩
    | ok seed =>
      refine .bind (fun _ _ => .intro) (hscan number seed passphrase log) fun a =>
        .of_exists fun new ha => ?_
      split
      · exact .pure (fun _ => .intro) fun w hw => ⟨by simp, [new], by simp [hw], .cons ha .nil⟩
      · refine .bind (fun _ _ => .intro) (ih _ (log ++ new)) fun trials =>
          .pure (fun _ => .intro) ?_
        rintro w ⟨hlength, parts, hevents, hparts⟩
        exact ⟨Nat.succ_le_succ hlength, new :: parts, by simp [hevents], .cons ha hparts⟩

end Attempts

/-! ## Searches -/

section Searches

variable {env : Environment σ} {s : Scanner} {seed : Seed}

theorem asks_seedFor_quiet (seed : Seed) (passphrase : String) :
    Asks Call.Quiet (Scanner.seedFor seed passphrase) := by
  unfold Scanner.seedFor
  split
  · exact .intro
  · exact asks_call .intro

/-- The result has the outcomes of scans of the first schemes, and counts the events `new`, which
are theirs. -/
def Scanner.Counted (s : Scanner) (schemes : List PathScheme) (new : List ScanProgress)
    (result : ScanResult) : Prop :=
  ∃ used scans, FinishedScan.OfFirst (s.scanJob used) (s.jobs schemes) scans ∧
    Counts result scans new

/-- Either way, the result of an attempt counts its events. -/
theorem leads_attemptBy_counted (ho : s.options.observed = true)
    {schedules : Option (Nat → List Nat)} (hcalm : schedules.isSome → env.Answers fun _ _ => True)
    (hmax : 0 < s.options.maxConcurrent) {schemes : List PathScheme}
    (hnames : (schemes.map (·.name)).Nodup) (number : Nat) (used : Seed) (passphrase : String)
    (log : List ScanProgress) :
    Leads (fun _ _ => True) (·.events = log)
      (s.attemptBy env.logged schedules schemes number used passphrase) fun a w =>
        ∃ new, w.events = log ++ new ∧ s.Counted schemes new a.result := by
  rintro w r w' rfl hr
  refine ⟨.intro, ?_⟩
  rintro a rfl
  have hfollows : ∃ new scans, w'.events = w.events ++ new ∧
      a.Follows s used schemes new scans := by
    cases schedules with
    | none => exact follows_attempt hnames hr
    | some schedules =>
      obtain ⟨b, new, scans, hb, hnew, hfollows⟩ :=
        follows_attemptParallel (hcalm rfl) hmax hnames (schedules number) hr
      obtain rfl := Except.ok.inj hb
      exact ⟨new, scans, hnew, hfollows⟩
  obtain ⟨new, scans, hnew, hfollows⟩ := hfollows
  exact ⟨new, hnew, used, scans, hfollows.toOfFirst, hfollows.counts ho hnames⟩

/-- A search that ends in a result was well set up, and its attempts make the result. -/
theorem Search.trials_of_run {schedules : Option (Nat → List Nat)} {schemes : List PathScheme}
    {result : ScanResult} {w w' : World σ}
    (h : (Search.given schedules schemes).run env s seed w = (.ok (.ok result), w')) :
    s.checkReady seed schemes = .ok () ∧
      ∃ trials, Attempts.trials (m := Run σ) (fun p => Run.ofScan env (Scanner.seedFor seed p))
          (s.attemptBy env schedules (sortByPriority schemes)) 1 s.options.passphraseAttempts w =
            (.ok trials, w') ∧
        (Attempts.replay 1 .none trials).result = result := by
  cases hready : s.checkReady seed schemes with
  | error e =>
    rw [Search.run_given_error hready] at h
    cases h
  | ok _ =>
    rw [Search.run_given hready, Attempts.run_eq_replay] at h
    obtain ⟨as, has, hresult⟩ := Run.ok_of_map h
    obtain ⟨trials, htrials, rfl⟩ := Run.ok_of_map has
    exact ⟨rfl, trials, htrials, Except.ok.inj hresult⟩

/-- The only completed attempt is the one that is returned. -/
theorem Attempts.findings_of_single {trials : List Trial} {a : Attempt}
    (h : trials.filterMap (·.attempt?) = [a]) :
    (Attempts.replay 1 .none trials).result.findings = a.result.findings := by
  obtain ⟨before, t, after, rfl, -, ht, hafter⟩ := List.filterMap_eq_cons_iff.mp h
  cases t with
  | skipped e => cases ht
  | completed b =>
    obtain rfl : b = a := Option.some.inj ht
    exact findings_returned (List.filterMap_eq_nil_iff.mp hafter) before b

/-- The first address cannot be looked up, the second holds funds, the fourth cannot be derived. -/
def patchyAnswer : (c : Call) → c.Answer
  | .deriveAddress _ _ _ _ i =>
    if i = 3 then .error (.failed "no key") else .ok ⟨"".pushn 'a' i.toNat, "m"⟩
  | .listUtxos address =>
    if address = "" then .error .timeout
    else .ok (if address = "a" then [⟨"t", 0, 5000, "a", 1⟩] else [])
  | c => Environment.ledgerAnswer (fun _ => []) c

/-- A scanner with an observer, which gives up after two unused addresses in a row. -/
def watchful : Scanner :=
  ⟨{ ScanOptions.default with
    extendedGapLimit := 2, scanChangeAddresses := false, observed := true }, false⟩

end Searches

end FundRecovery.Discovery
