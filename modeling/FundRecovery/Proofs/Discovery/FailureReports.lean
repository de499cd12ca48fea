import FundRecovery.Proofs.Discovery.ParallelScan
import FundRecovery.Proofs.Discovery.Searches

/-!
# Every failure is reported once

A search that tries several passphrases returns one attempt, and tells of what went wrong in the
others. Collaborators may keep states, fail and crash, and the token may be cancelled at any moment.

* `Trial.IsOf`: what came of the attempt with a passphrase. `leads_trials`: attempts are made with
  the passphrases in turn.
* `search_failures_exact`: the failures of the returned attempt are in the result as they are, those
  of every other attempt under its number, each once.
-/

namespace FundRecovery.Discovery

variable {σ : Type} {env : Environment σ}

/-- If the attempt was completed, it was made with the passphrase. -/
def Trial.IsOf (passphrase : String) (t : Trial) : Prop :=
  ∀ a, t.attempt? = some a → a.passphrase = passphrase

/-- The attempts made are those with the first passphrases, in order. -/
def Attempts.Tried (passphrases : List String) (trials : List Trial) : Prop :=
  ∃ made, made <+: passphrases ∧ List.Forall₂ Trial.IsOf made trials

section Passphrases

variable {R : World σ → World σ → Prop}

theorem Attempts.Tried.cons {passphrase : String} {passphrases : List String} {t : Trial}
    {trials : List Trial} (ht : t.IsOf passphrase) (h : Tried passphrases trials) :
    Tried (passphrase :: passphrases) (t :: trials) := by
  obtain ⟨made, hmade, htrials⟩ := h
  exact ⟨passphrase :: made, List.cons_prefix_cons.mpr ⟨rfl, hmade⟩, .cons ht htrials⟩

/-- Attempts are made with the passphrases in turn, if each is made with its own. -/
theorem Attempts.leads_trials (hrefl : ∀ w, R w w)
    (htrans : ∀ {w₁ w₂ w₃}, R w₁ w₂ → R w₂ w₃ → R w₁ w₃)
    {seedFor : String → Run σ (Except DerivationError Seed)}
    {scan : Nat → Seed → String → Run σ Attempt}
    (hseed : ∀ p, Leads R (fun _ => True) (seedFor p) fun _ _ => True)
    (hscan : ∀ number seed p, Leads R (fun _ => True) (scan number seed p) fun a _ =>
      a.passphrase = p) (number : Nat) (passphrases : List String) :
    Leads R (fun _ => True) (trials seedFor scan number passphrases) fun trials _ =>
      Tried passphrases trials := by
  induction passphrases generalizing number with
  | nil => exact .pure hrefl fun _ _ => ⟨[], List.prefix_rfl, .nil⟩
  | cons passphrase rest ih =>
    refine .bind htrans (hseed passphrase) fun r => ?_
    cases r with
    | error e =>
      refine .bind htrans (ih _) fun trials => .pure hrefl fun _ h => ?_
      exact h.cons (by rintro _ ⟨⟩)
    | ok seed =>
      refine .bind htrans (hscan number seed passphrase) fun a => ?_
      split
      · refine .pure hrefl fun _ ha => ?_
        have hnone : Tried rest [] := ⟨[], List.nil_prefix, .nil⟩
        exact hnone.cons (by rintro _ ⟨rfl⟩; exact ha)
      · refine .bind htrans (((ih (number + 1)).frame_and (F := fun _ => a.passphrase = passphrase)
          fun _ => id).mono (fun _ ha => ⟨.intro, ha⟩) fun _ _ => id) fun trials =>
          .pure hrefl fun _ h => ?_
        exact h.1.cons (by rintro _ ⟨rfl⟩; exact h.2)

/-- Either way, an attempt is made with its passphrase. -/
theorem leads_attemptBy (env : Environment σ) (s : Scanner) (schedules : Option (Nat → List Nat))
    (schemes : List PathScheme) (number : Nat) (seed : Seed) (passphrase : String) :
    Leads (fun _ _ => True) (fun _ => True)
      (s.attemptBy env schedules schemes number seed passphrase) fun a _ =>
        a.passphrase = passphrase := by
  have hevolves : Evolves env (fun _ => True) (fun _ _ => True) fun _ _ _ => True :=
    Environment.Tells.evolves fun _ _ _ _ => .intro
  have hE : Upholds (fun _ => True) (fun _ _ : World σ => True) (fun _ _ _ => True)
      s.options.scanChangeAddresses schemes fun _ _ _ found => ∀ d ∈ found, True :=
    upholds_each (fun _ => id) (fun _ _ => .intro) (fun _ => .intro) (fun _ _ _ _ _ => .intro)
      fun _ _ _ _ _ _ _ _ _ => .intro
  have hlist : ∀ scheme ∈ schemes, scheme ∈ schemes := fun _ => id
  cases schedules with
  | none =>
    have h : Leads _ (fun _ => True) _ _ := leads_attempt hevolves hE rfl hlist seed passphrase
    exact h.mono (fun _ => id) fun a _ ha => ha.1
  | some schedules =>
    have h : Leads _ (fun _ => True) _ _ :=
      leads_attemptParallel hevolves hE rfl hlist (schedules number) seed passphrase
    exact h.mono (fun _ => id) fun a _ ha => ha.1

end Passphrases

/-- **Every failure of a search is reported once.** The attempts of a run are `trials`. If one was
completed, the last such is returned: the result has its failures as they are, the failures of the
others under the numbers of their attempts, and a note if it was cancelled. If none was completed,
the result has the failures to obtain the seeds, and nothing else. -/
theorem search_failures_exact {s : Scanner} {schedules : Option (Nat → List Nat)}
    {schemes : List PathScheme} {seed : Seed} {result : ScanResult} {w w' : World σ}
    (h : (Search.given schedules schemes).run env s seed w = (.ok (.ok result), w')) :
    ∃ trials, Attempts.trials (m := Run σ) (fun p => Run.ofScan env (Scanner.seedFor seed p))
        (s.attemptBy env schedules (sortByPriority schemes)) 1 s.options.passphraseAttempts w =
          (.ok trials, w') ∧
      Attempts.Tried s.options.passphraseAttempts trials ∧
      (∀ before a after, trials = before ++ .completed a :: after →
        (∀ t ∈ after, t.attempt? = none) →
          result.findings = a.result.findings ∧
          result.errors.Perm
            (a.errors ++ (reported 1 before ++ reported (before.length + 2) after) ++
              if result.cancelled then [Attempt.cancelledNote] else [])) ∧
      ((∀ t ∈ trials, t.attempt? = none) →
        result.findings = .empty ∧ result.errors = reported 1 trials) := by
  cases hready : s.checkReady seed schemes with
  | error e =>
    rw [Search.run_given_error hready] at h
    cases h
  | ok _ =>
    rw [Search.run_given hready, Attempts.run_eq_replay] at h
    obtain ⟨as, has, hresult⟩ := Run.ok_of_map h
    obtain ⟨trials, htrials, rfl⟩ := Run.ok_of_map has
    obtain rfl : (Attempts.replay 1 .none trials).result = result := Except.ok.inj hresult
    refine ⟨trials, htrials, ?_, ?_, fun hnone => ?_⟩
    · have hseed (p : String) : Leads (fun _ _ => True) (fun _ => True)
          (Run.ofScan env (Scanner.seedFor seed p)) fun _ _ => True :=
        fun _ _ _ _ _ => ⟨.intro, fun _ _ => .intro⟩
      have htried := Attempts.leads_trials (fun _ => .intro) (fun _ _ => .intro) hseed
        (leads_attemptBy env s schedules (sortByPriority schemes)) 1 s.options.passphraseAttempts
      exact (htried w _ w' .intro htrials).2 trials rfl
    · rintro before a after rfl hafter
      exact ⟨Attempts.findings_returned hafter before a, Attempts.errors_returned hafter before a⟩
    · exact ⟨Attempts.findings_skipped hnone, Attempts.errors_skipped hnone⟩

/-- Collaborators without a key at index 1, without any key for the seed 7, and without a seed for
the passphrase b; the token is cancelled in the course of call number `last`. -/
def keysMissing (last : Nat) : Environment Nat :=
  .cancelling (fun
    | .deriveAddress seed _ _ _ i =>
      if seed.bytes = [7] ∨ i = 1 then .error (.failed "no key") else .ok ⟨"a", "m"⟩
    | .seedForPassphrase _ passphrase =>
      if passphrase = "b" then .error .passphraseUnsupported else .ok ⟨[8]⟩
    | c => Environment.ledgerAnswer (fun _ => []) c) last

/-- A search with three passphrases that is cancelled in the course of its last derivation. -/
def searchKeysMissing : Except Crash (Except RecoveryError ScanResult) × World Nat :=
  (Search.given none [.bip44 "wallet" 5 [0] 1]).run (keysMissing 6)
    ⟨{ ScanOptions.default with
      scanChangeAddresses := false, passphrases := ["", "b", "c"] }, false⟩ ⟨[7]⟩ ⟨0, false, 0⟩

/-- The first attempt fails at once, the second has no seed, the third fails and is cancelled. -/
theorem search_failures_exact_three_attempts :
    ∃ result w, searchKeysMissing = (.ok (.ok result), w) ∧ result.errors.Perm [
      .forScheme "wallet" "derivation failed at index 1: Key derivation failed: no key",
      .forScheme "wallet"
        "passphrase attempt 1: derivation failed at index 0: Key derivation failed: no key",
      .general "passphrase attempt 2: Passphrase seeds are not supported by this deriver",
      .general "scan cancelled"] := by
  let failed (passphrase : String) (scanned : Nat) (index : UInt32) (cancelled : Bool) : Attempt :=
    { Attempt.start passphrase with
      schemesScanned := ["wallet"], addressesScanned := scanned, cancelled
      errors := [.forScheme "wallet" (DerivationFailure.message ⟨index, .failed "no key"⟩)] }
  let trials : List Trial :=
    [.completed (failed "" 0 0 false), .skipped .passphraseUnsupported,
      .completed (failed "c" 1 1 true)]
  have hrun : searchKeysMissing =
      (.ok (.ok (Attempts.replay 1 .none trials).result), ⟨6, true, 0⟩) := by decide +kernel
  obtain ⟨made, hmade, -, hreturned, -⟩ := search_failures_exact hrun
  have hmade : made = trials := by
    have h : (Except.ok made : Except Crash (List Trial)) = .ok trials :=
      (congrArg Prod.fst hmade).symm.trans (by decide +kernel)
    exact Except.ok.inj h
  obtain ⟨-, herrors⟩ := hreturned
    [.completed (failed "" 0 0 false), .skipped .passphraseUnsupported] (failed "c" 1 1 true) []
    hmade (List.forall_mem_nil _)
  exact ⟨_, _, hrun, herrors⟩

end FundRecovery.Discovery
