import FundRecovery.Proofs.Discovery.Truncation

/-!
# Scans under cancellation

Two runs of one scan are compared: one whose token may be cancelled at any moment, and one whose
token never is. With answers that depend on the calls alone, and a key deriver that never fails, the
first run goes the way of the second up to the point where it notices, and keeps what it found.

* `Keeps answer calls found scanned`: addresses that were looked up are counted, and kept if they
  hold outputs. `keeps_scanScheme`: so they are by the scan of a scheme with single lookups.
* `Environment.Answers.run_going`: a run during which the token is not cancelled.
* `Cut`: what comes of jobs of which the first are run, the last of them perhaps in part.
  `run_scanInOrder`: so come the schemes of an attempt.
* `scanSchemes_truncates`: a cancelled scan is a part of the whole scan.
  `scanSchemes_stopped_exceeds_whole`: its total is no part of one that leaves its word.
-/

namespace FundRecovery.Discovery

variable {σ τ : Type} {answer : (c : Call) → c.Answer}

/-! ## What is looked up -/

/-- The address that a call looks up. -/
def Call.lookup? : Call → Option String
  | listUtxos address => some address
  | _ => none

/-- The addresses that calls look up, in order. -/
def lookups (calls : List Call) : List String := calls.filterMap Call.lookup?

@[simp] theorem lookups_append (a b : List Call) : lookups (a ++ b) = lookups a ++ lookups b :=
  List.filterMap_append

/-- No lookup is a report. -/
theorem lookups_queries (calls : List Call) : lookups (queries calls) = lookups calls := by
  rw [lookups, queries, List.filterMap_filter]
  exact List.filterMap_congr fun c _ => by cases c <;> rfl

/-- Addresses that were looked up are counted, and kept if they hold outputs. -/
structure Keeps (answer : (c : Call) → c.Answer) (calls : List Call)
    (found : List DiscoveredAddress) (scanned : Nat) : Prop where
  found : found.map (·.address) =
    (lookups calls).filter fun address => !(outputsAt answer address).isEmpty
  scanned : scanned = (lookups calls).length

namespace Keeps

variable {calls calls' : List Call} {found found' : List DiscoveredAddress} {scanned scanned' : Nat}

theorem nil : Keeps answer [] [] 0 := ⟨rfl, rfl⟩

theorem append (h : Keeps answer calls found scanned) (h' : Keeps answer calls' found' scanned') :
    Keeps answer (calls ++ calls') (found ++ found') (scanned + scanned') where
  found := by rw [List.map_append, h.found, h'.found, lookups_append, List.filter_append]
  scanned := by rw [h.scanned, h'.scanned, lookups_append, List.length_append]

/-- Nothing is looked up by a derivation. -/
theorem derivation (h : Keeps answer calls found scanned) (t : Target) (index : UInt32) :
    Keeps answer (calls ++ [t.derivation index]) found scanned := by
  have hnone : lookups [t.derivation index] = [] := by
    unfold Target.derivation
    split <;> rfl
  exact ⟨by rw [lookups_append, hnone, List.append_nil, h.found],
    by rw [lookups_append, hnone, List.append_nil, h.scanned]⟩

/-- On the way past an index, its address is looked up. -/
theorem passage {scan : SchemeScan} (h : Keeps answer calls scan.found scan.scanned) (t : Target)
    (index : UInt32) (derived : DerivedAddress) (counted : SchemeScan) :
    Keeps answer (calls ++ passage answer t index derived counted)
      (scan.passed t index derived (outputsAt answer derived.address)).found
      (scan.passed t index derived (outputsAt answer derived.address)).scanned := by
  have hone : lookups (Discovery.passage answer t index derived counted) = [derived.address] := by
    rw [← lookups_queries, queries_passage]
    rfl
  unfold SchemeScan.passed SchemeScan.recorded
  split
  case isTrue hempty =>
    refine ⟨?_, ?_⟩
    · rw [lookups_append, hone, List.filter_append, ← h.found]
      simp [hempty, SchemeScan.counted]
    · rw [lookups_append, hone, List.length_append, ← h.scanned]
      rfl
  case isFalse hheld =>
    refine ⟨?_, ?_⟩
    · rw [lookups_append, hone, List.filter_append, ← h.found]
      simp [hheld, SchemeScan.add, SchemeScan.counted, Target.discovery]
    · rw [lookups_append, hone, List.length_append, ← h.scanned]
      rfl

end Keeps

section Scheme

variable {t : Target} {scan : SchemeScan} {base calls : List Call}

/-- Single lookups keep what they find, also where they are cut short. -/
theorem keeps_scanIndices (left index : Nat) (gap : GapLimit)
    (h : Keeps answer calls scan.found scan.scanned) :
    Records (fun c a => a = answer c) (fun _ => True) (base ++ calls)
      (scanIndices t left index gap scan) fun scan log =>
        ∃ calls, log = base ++ calls ∧ Keeps answer calls scan.found scan.scanned := by
  induction left generalizing index gap scan calls with
  | zero => exact .done ⟨calls, rfl, h⟩
  | succ left ih =>
    rw [scanIndices]
    split
    · exact .done ⟨calls, rfl, h⟩
    refine .bind (.isCancelled (Q := fun _ log => log = base ++ calls) fun _ _ => rfl) ?_
    rintro b _ rfl
    cases b with
    | true => exact .done ⟨calls, rfl, h⟩
    | false =>
      refine .bind derive_uncut.records ?_
      rintro _ _ ⟨rfl, rfl⟩
      have hderived := h.derivation t (UInt32.ofNat index)
      rw [issued_derive, List.append_assoc]
      cases (t.derive (UInt32.ofNat index)).value answer with
      | error e => exact .done ⟨_, rfl, hderived⟩
      | ok d =>
        refine .bind visit_uncut.records ?_
        rintro _ _ ⟨rfl, rfl⟩
        refine .bind lookupUtxos_uncut.records ?_
        rintro _ _ ⟨rfl, rfl⟩
        refine .bind recordFound_uncut.records ?_
        rintro _ _ ⟨rfl, rfl⟩
        have hpassed := ih (index + 1) (gap.mark !(outputsAt answer d.address).isEmpty)
          (hderived.passage t (UInt32.ofNat index) d scan)
        simpa [passage, SchemeScan.passed] using hpassed

variable {s : Scanner} {seed : Seed} {scheme : PathScheme}

theorem keeps_scanChains (hbulk : s.usesBulk = false) (gapLimit : UInt32) (chains : List Chain)
    (h : Keeps answer calls scan.found scan.scanned) :
    Records (fun c a => a = answer c) (fun _ => True) (base ++ calls)
      (s.scanChains seed scheme gapLimit chains scan) fun scan log =>
        ∃ calls, log = base ++ calls ∧ Keeps answer calls scan.found scan.scanned := by
  induction chains generalizing scan calls with
  | nil => exact .done ⟨calls, rfl, h⟩
  | cons chain rest ih =>
    refine .bind (.isCancelled (Q := fun _ log => log = base ++ calls) fun _ _ => rfl) ?_
    rintro b _ rfl
    cases b with
    | true => exact .done ⟨calls, rfl, h⟩
    | false =>
      have hchain : s.scanChain ⟨s.options, seed, scheme, chain⟩ gapLimit scan =
          scanIndices ⟨s.options, seed, scheme, chain⟩ indexSpace 0 (.new gapLimit.toNat) scan := by
        rw [Scanner.scanChain, hbulk]
        rfl
      rw [hchain]
      refine .bind (keeps_scanIndices indexSpace 0 _ h) ?_
      rintro scan _ ⟨calls, rfl, h⟩
      split
      · exact .done ⟨calls, rfl, h⟩
      · exact ih h

theorem keeps_scanScheme (hbulk : s.usesBulk = false) (gapLimit : UInt32) (priorityIndex : Nat) :
    Records (fun c a => a = answer c) (fun _ => True) base
      (s.scanScheme seed scheme gapLimit priorityIndex) fun o log =>
        ∃ calls, log = base ++ calls ∧ Keeps answer calls o.addresses o.scanned := by
  have hstart : Keeps answer [] (SchemeScan.start scheme.name).found 0 := .nil
  refine .bind (List.append_nil base ▸ keeps_scanChains hbulk gapLimit _ hstart) ?_
  rintro scan _ ⟨calls, rfl, h⟩
  exact .done ⟨calls, rfl, h⟩

end Scheme

/-! ## Runs -/

section Runs

variable {α : Type} {env : Environment σ} {p : Scan α} {w w' : World (σ × List Answered)}

/-- In an environment that answers, a program runs to its end, whenever the token is cancelled. -/
theorem Environment.Answers.run_any {A : (c : Call) → c.Answer → Prop} (h : env.Answers A)
    {Q : α → List Call → Prop} (hp : Records A (fun _ => True) w.calls p Q) :
    ∃ a w' calls, p.run env.logged.handler w = (.ok a, w') ∧ w'.calls = w.calls ++ calls ∧
      Q a w'.calls := by
  have hanswers := h.logged.handler_answers
  obtain ⟨a, w', calls, hr, -, hcalls, hQ⟩ :=
    Environment.run_records hp hanswers.keeps (hanswers.total _) .intro
  exact ⟨a, w', calls, hr, hcalls, hQ⟩

/-- A token that is not cancelled at the end of a run was not cancelled before it. -/
theorem Environment.going_of_run {a : α} (hr : p.run env.logged.handler w = (.ok a, w'))
    (hw' : w'.cancelled = false) : w.cancelled = false := by
  induction p generalizing w with
  | done b =>
    obtain ⟨-, rfl⟩ : b = a ∧ w = w' := by simpa using hr
    exact hw'
  | ask q next ih =>
    rw [Program.run_ask] at hr
    rcases hq : env.logged.handler q w with ⟨e | b, w₁⟩ <;> rw [hq] at hr
    · cases hr
    · have hgoing : (env.logged.handler q w).2.cancelled = false := by rw [hq]; exact ih b hr
      exact Environment.going_of_handler hgoing

/-- A run during which the token is not cancelled is one whose looks find it so. -/
theorem Environment.Answers.run_going {A : (c : Call) → c.Answer → Prop} (h : env.Answers A)
    {Q : α → List Call → Prop} (hp : Records A (· = false) w.calls p Q) {a : α}
    (hr : p.run env.logged.handler w = (.ok a, w')) (hw' : w'.cancelled = false) :
    Q a w'.calls := by
  induction p generalizing w with
  | done b =>
    obtain ⟨rfl, rfl⟩ : b = a ∧ w = w' := by simpa using hr
    simpa [Records] using hp
  | ask q next ih =>
    rw [Program.run_ask] at hr
    have hcalls := logged_notes env q w
    rcases hq : env.logged.handler q w with ⟨e | b, w₁⟩ <;> rw [hq] at hr hcalls
    · cases hr
    · have hb := Environment.Answers.allowed_steady h.logged hq (Environment.going_of_run hr hw')
      refine ih b (Program.Ensures.mono (hp b hb) fun a t hQ => ?_) hr
      rw [hcalls, List.append_assoc, ← calls_append]
      exact hQ

/-- With fixed answers it comes to the value, after all calls. -/
theorem Environment.AnswersBy.run_going (h : env.AnswersBy answer) {a : α}
    (hr : p.run env.logged.handler w = (.ok a, w')) (hw' : w'.cancelled = false) :
    w.cancelled = false ∧ a = p.value answer ∧ w'.calls = w.calls ++ p.issued answer := by
  refine ⟨Environment.going_of_run hr hw', ?_⟩
  have hvalue : Records (fun c a => a = answer c) (· = false) w.calls p fun a log =>
      a = p.value answer ∧ log = w.calls ++ p.issued answer := Records.fixed_iff.mpr ⟨rfl, rfl⟩
  exact Environment.Answers.run_going h hvalue hr hw'

end Runs

/-! ## Attempts -/

/-- What comes of jobs of which the first are run, the last of them perhaps in part, and the calls
of these. -/
structure Cut (answer : (c : Call) → c.Answer) (s : Scanner) (used : Seed) (jobs : List Job)
    (outcomes : List SchemeOutcome) (calls : List Call) : Prop where
  ofFirst : ∃ first, first <+: jobs ∧
    CutOutcomes (first.map fun j => (s.scanJob used j).value answer) outcomes
  inOrder : calls <+: jobs.flatMap fun j => (s.scanJob used j).issued answer
  keeps : s.usesBulk = false →
    Keeps answer calls (outcomes.flatMap (·.addresses)) (totalOf (·.scanned) outcomes)

section Attempts

variable {env : Environment σ} {s : Scanner} {seed used : Seed} {jobs : List Job} {j : Job}
  {calls rest : List Call} {o : SchemeOutcome} {outcomes : List SchemeOutcome}

/-- No job is run. -/
theorem Cut.none (jobs : List Job) : Cut answer s used jobs [] [] where
  ofFirst := ⟨[], List.nil_prefix, .nil⟩
  inOrder := List.nil_prefix
  keeps _ := .nil

/-- The first job is run, perhaps in part, and no other. -/
theorem Cut.one (ho : ((s.scanJob used j).value answer).Truncates o ∧ o.failure = .none)
    (hcalls : calls <+: (s.scanJob used j).issued answer)
    (hkeeps : s.usesBulk = false → Keeps answer calls o.addresses o.scanned) :
    Cut answer s used (j :: jobs) [o] calls where
  ofFirst := ⟨[j], List.prefix_append [j] jobs, .cons ho .nil⟩
  inOrder := hcalls.trans (by rw [List.flatMap_cons]; exact List.prefix_append _ _)
  keeps hbulk := by simpa [totalOf] using hkeeps hbulk

/-- The first job is run as a whole, and then others are. -/
theorem Cut.cons (ho : ((s.scanJob used j).value answer).failure = .none)
    (hkeeps : s.usesBulk = false → Keeps answer ((s.scanJob used j).issued answer)
      ((s.scanJob used j).value answer).addresses ((s.scanJob used j).value answer).scanned)
    (h : Cut answer s used jobs outcomes rest) :
    Cut answer s used (j :: jobs) ((s.scanJob used j).value answer :: outcomes)
      ((s.scanJob used j).issued answer ++ rest) where
  ofFirst := by
    obtain ⟨first, hfirst, houtcomes⟩ := h.ofFirst
    exact ⟨j :: first, List.cons_prefix_cons.mpr ⟨rfl, hfirst⟩, .cons ⟨.refl _, ho⟩ houtcomes⟩
  inOrder := by
    rw [List.flatMap_cons]
    exact (List.prefix_append_right_inj _).mpr h.inOrder
  keeps hbulk := (hkeeps hbulk).append (h.keeps hbulk)

/-- The run of one job. -/
theorem run_scanJob (h : env.AnswersBy answer) (hd : Unfailing answer) (s : Scanner) (used : Seed)
    (j : Job) (w : World (σ × List Answered)) :
    ∃ o calls w', (s.scanJob used j).run env.logged.handler w = (.ok o, w') ∧
      w'.calls = w.calls ++ calls ∧
      (((s.scanJob used j).value answer).Truncates o ∧ o.failure = none) ∧
      calls <+: (s.scanJob used j).issued answer ∧
      (s.usesBulk = false → Keeps answer calls o.addresses o.scanned) ∧
      (w'.cancelled = false →
        o = (s.scanJob used j).value answer ∧ calls = (s.scanJob used j).issued answer) := by
  have hcut : CutsShort answer SchemeOutcome.Truncates w.calls (s.scanJob used j) :=
    scanScheme_cutsShort
  have hkeeps : Records (fun c a => a = answer c) (fun _ => True) w.calls (s.scanJob used j)
      fun o log => s.usesBulk = false → ∃ calls, log = w.calls ++ calls ∧
        Keeps answer calls o.addresses o.scanned := by
    by_cases hbulk : s.usesBulk = false
    · exact (keeps_scanScheme hbulk _ _).mono fun _ _ ho _ => ho
    · exact Program.Ensures.mono (Gives.trivial _) fun _ _ _ hsingle => absurd hsingle hbulk
  have hends : Records (fun c a => a = answer c) (fun _ => True) w.calls (s.scanJob used j)
      fun o _ => ((s.scanJob used j).value answer).Truncates o ∧ o.failure = none :=
    scanScheme_truncates hd
  obtain ⟨o, w', calls, hr, hcalls, hcourse, hkeeps, ho⟩ := h.run_any
    (Records.and hcut (hkeeps.and hends))
  refine ⟨o, calls, w', hr, hcalls, ho, ?_, fun hbulk => ?_, fun hgoing => ?_⟩
  · rw [hcalls] at hcourse
    rcases hcourse with ⟨-, hall⟩ | ⟨-, hpart⟩
    · exact List.append_cancel_left hall ▸ List.prefix_rfl
    · exact (List.prefix_append_right_inj _).mp hpart
  · obtain ⟨made, hmade, hkept⟩ := hkeeps hbulk
    rw [hcalls] at hmade
    exact List.append_cancel_left hmade ▸ hkept
  · obtain ⟨-, hvalue, hall⟩ := h.run_going hr hgoing
    rw [hcalls] at hall
    exact ⟨hvalue, List.append_cancel_left hall⟩

/-- The schemes of an attempt are scanned in order up to the one in which, or before which, the
token is found cancelled. -/
theorem run_scanInOrder (h : env.AnswersBy answer) (hd : Unfailing answer) (s : Scanner)
    (used : Seed) (schemes : List PathScheme) (first : Nat) (a : Attempt)
    (w : World (σ × List Answered)) :
    ∃ outcomes calls w', (s.scanInOrder used first schemes a).run env.logged.handler w =
        (.ok (outcomes.foldl Attempt.absorb a), w') ∧
      w'.calls = w.calls ++ calls ∧
      Cut answer s used (s.jobsFrom first schemes) outcomes calls ∧
      (w.cancelled = true → outcomes = [] ∧ calls = []) := by
  induction schemes generalizing first a w with
  | nil => exact ⟨[], [], w, rfl, by simp, .none _, fun _ => ⟨rfl, rfl⟩⟩
  | cons scheme rest ih =>
    have hlook : (isCancelled : Scan Bool).run env.logged.handler w =
      (.ok (env.logged.handler .isCancelled w).2.cancelled,
        (env.logged.handler .isCancelled w).2) := rfl
    have hcalls : (env.logged.handler .isCancelled w).2.calls = w.calls := rfl
    have hgoing : (env.logged.handler .isCancelled w).2.cancelled = false → w.cancelled = false :=
      Environment.going_of_handler
    generalize (env.logged.handler .isCancelled w).2 = w₁ at hlook hcalls hgoing
    rw [Scanner.scanInOrder, Program.run_bind, hlook]
    cases hw₁ : w₁.cancelled with
    | true =>
      exact ⟨[], [], w₁, rfl, by rw [hcalls, List.append_nil], .none _, fun _ => ⟨rfl, rfl⟩⟩
    | false =>
      obtain ⟨o, calls₁, w₂, hrun, hcalls₁, ho, hpart, hkeeps, hwhole⟩ := run_scanJob h hd s used
        ⟨scheme, s.options.gapLimitAt first, first⟩ w₁
      obtain ⟨outcomes, calls₂, w', hrest, hcalls₂, hcut, hstopped⟩ :=
        ih (first + 1) (a.absorb o) w₂
      refine ⟨o :: outcomes, calls₁ ++ calls₂, w', ?_, ?_, ?_, ?_⟩
      · have hscan : (s.scanScheme used scheme (s.options.gapLimitAt first) first).run
          env.logged.handler w₁ = (.ok o, w₂) := hrun
        show (s.scanScheme _ _ _ _ >>= _).run _ w₁ = _
        rw [Program.run_bind, hscan]
        exact hrest
      · rw [hcalls₂, hcalls₁, hcalls, List.append_assoc]
      · cases hw₂ : w₂.cancelled with
        | true =>
          obtain ⟨rfl, rfl⟩ := hstopped hw₂
          rw [List.append_nil]
          exact .one ho hpart hkeeps
        | false =>
          obtain ⟨rfl, rfl⟩ := hwhole hw₂
          exact .cons ho.2 hkeeps hcut
      · rw [hgoing hw₁]
        rintro ⟨⟩

/-- One attempt over all schemes, whose last look at the token is noted. -/
theorem run_attempt (h : env.AnswersBy answer) (hd : Unfailing answer) (s : Scanner) (used : Seed)
    (schemes : List PathScheme) (passphrase : String) (w : World (σ × List Answered)) :
    ∃ outcomes calls w', (s.attempt schemes used passphrase).run env.logged.handler w =
        (.ok ((Attempt.gathered passphrase outcomes).noteToken w'.cancelled), w') ∧
      w'.calls = w.calls ++ calls ∧ Cut answer s used (s.jobs schemes) outcomes calls := by
  obtain ⟨outcomes, calls, w₁, hscan, hcalls, hcut, -⟩ :=
    run_scanInOrder h hd s used schemes 0 (.start passphrase) w
  refine ⟨outcomes, calls, (env.logged.handler .isCancelled w₁).2, ?_, hcalls, hcut⟩
  rw [Scanner.attempt, Program.run_bind, hscan]
  rfl

end Attempts

/-! ## Scans -/

section Scans

variable {env : Environment σ} {s : Scanner} {seed : Seed} {schemes : List PathScheme}

theorem passphraseAttempts_plain {options : ScanOptions} (hplain : options.passphrases = []) :
    options.passphraseAttempts = [""] := by
  rw [ScanOptions.passphraseAttempts, hplain]
  rfl

/-- Without passphrases, the attempt on the seed itself is the scan. -/
theorem scanSchemes_plain (hready : s.checkReady seed schemes = .ok ())
    (hplain : s.options.passphrases = []) :
    s.scanSchemes seed schemes =
      s.attempt (sortByPriority schemes) seed "" >>= fun a => .done (.ok a.result) := by
  rw [Scanner.scanSchemes, hready, map_eq_pure_bind, Scanner.attempts,
    passphraseAttempts_plain hplain]
  simp only [Attempts.run, Scanner.seedFor, ↓reduceIte, Program.pure_eq, Program.done_bind,
    bind_assoc]
  refine bind_congr fun a => ?_
  split <;> rfl

theorem issued_scanSchemes_plain (hready : s.checkReady seed schemes = .ok ())
    (hplain : s.options.passphrases = []) :
    (s.scanSchemes seed schemes).issued answer =
      (s.jobs (sortByPriority schemes)).flatMap fun j => (s.scanJob seed j).issued answer := by
  rw [scanSchemes_plain hready hplain]
  simp [Scanner.attempt, Scanner.issued_scanInOrder, Scanner.jobs_eq_jobsFrom]

/-- The run of a scan is that of its attempt. -/
theorem run_scanSchemes_plain (h : env.AnswersBy answer) (hd : Unfailing answer)
    (hready : s.checkReady seed schemes = .ok ()) (hplain : s.options.passphrases = [])
    (w : World (σ × List Answered)) :
    ∃ outcomes calls w', (s.scanSchemes seed schemes).run env.logged.handler w =
        (.ok (.ok ((Attempt.gathered "" outcomes).noteToken w'.cancelled).result), w') ∧
      w'.calls = w.calls ++ calls ∧
      Cut answer s seed (s.jobs (sortByPriority schemes)) outcomes calls := by
  obtain ⟨outcomes, calls, w', hattempt, hcalls, hcut⟩ :=
    run_attempt h hd s seed (sortByPriority schemes) "" w
  refine ⟨outcomes, calls, w', ?_, hcalls, hcut⟩
  rw [scanSchemes_plain hready hplain, Program.run_bind, hattempt]
  rfl

/-- What an attempt keeps of its jobs is in its result. -/
theorem Cut.keeps_result {calls : List Call} {outcomes : List SchemeOutcome} {used : Seed}
    (h : Cut answer s used (s.jobs schemes) outcomes calls) (hd : Unfailing answer)
    (hn : (schemes.map (·.name)).Nodup) (hbulk : s.usesBulk = false) (passphrase : String)
    (cancelled : Bool) :
    Keeps answer calls ((Attempt.gathered passphrase outcomes).noteToken cancelled).result.addresses
      ((Attempt.gathered passphrase outcomes).noteToken cancelled).result.addressesScanned := by
  obtain ⟨first, hfirst, houtcomes⟩ := h.ofFirst
  have hkeeps := h.keeps hbulk
  rw [← Attempt.addressesScanned_gathered passphrase, ← Attempt.addresses_gathered
    (houtcomes.nodup_first hd hn hfirst) houtcomes.sound passphrase cancelled] at hkeeps
  exact hkeeps

end Scans

end FundRecovery.Discovery
