import FundRecovery.Discovery.Attempt

/-!
# Attempts one after the other

A search makes attempts until one of them settles it, by finding funds or by being cancelled. What
an attempt is made of does not matter here, nor in which monad it is made.

* `Attempts.run_related`: attempts that are related one by one are related as a whole.
* `Attempts.run_append`: where the first attempts settle the search, later ones are not made.
* `Trial`: what comes of one attempt. `Attempts.trials`: the attempts that are made, with what comes
  of each. `Attempts.run_eq_replay`: this alone decides what the search returns.
* `Attempts.findings_returned`, `Attempts.errors_returned`: the last completed attempt is returned,
  with every failure of the others under the number of its attempt.
-/

namespace FundRecovery

/-- A result without its failures. -/
def ScanResult.findings (r : ScanResult) : ScanResult := { r with errors := [] }

namespace Discovery

variable {m n : Type → Type}

/-! ## Attempts in any monad -/

/-- The attempt found funds or was cancelled, so that no other follows it. -/
def Attempt.settles (a : Attempt) : Bool := a.hasFunds || a.cancelled

namespace Attempts

/-- The last completed attempt settles the search. -/
def settled (as : Attempts) : Bool := as.last.any (·.2.settles)

@[simp] theorem settled_seedFailed (as : Attempts) (number : Nat) (e : DerivationError) :
    (as.seedFailed number e).settled = as.settled := rfl

@[simp] theorem settled_complete (as : Attempts) (number : Nat) (a : Attempt) :
    (as.complete number a).settled = a.settles := rfl

/-- What relates the seeds and the attempts one by one relates all of them together, if it relates
what is at hand and one thing after the other. -/
theorem run_related [Monad m] [Monad n] (R : ∀ {α : Type}, m α → n α → Prop)
    (hpure : ∀ as : Attempts, R (pure as) (pure as))
    (hbind : ∀ {α β : Type} {x : m α} {y : n α} {f : α → m β} {g : α → n β}, R x y →
      (∀ a, R (f a) (g a)) → R (x >>= f) (y >>= g))
    {seedFor : String → m (Except DerivationError Seed)}
    {seedFor' : String → n (Except DerivationError Seed)}
    {scan : Nat → Seed → String → m Attempt} {scan' : Nat → Seed → String → n Attempt}
    (hseed : ∀ p, R (seedFor p) (seedFor' p))
    (hscan : ∀ number seed p, R (scan number seed p) (scan' number seed p))
    (number : Nat) (as : Attempts) (passphrases : List String) :
    R (run seedFor scan number as passphrases) (run seedFor' scan' number as passphrases) := by
  induction passphrases generalizing number as with
  | nil => exact hpure as
  | cons passphrase rest ih =>
    refine hbind (hseed passphrase) fun r => ?_
    cases r with
    | error e => exact ih _ _
    | ok seed =>
      refine hbind (hscan number seed passphrase) fun a => ?_
      split
      · exact hpure _
      · exact ih _ _

/-- What goes for each seed and each attempt goes for all of them together, in the same way. -/
theorem run_all [Monad m] (P : ∀ {α : Type}, m α → Prop) (hpure : ∀ as : Attempts, P (pure as))
    (hbind : ∀ {α β : Type} {x : m α} {f : α → m β}, P x → (∀ a, P (f a)) → P (x >>= f))
    {seedFor : String → m (Except DerivationError Seed)} {scan : Nat → Seed → String → m Attempt}
    (hseed : ∀ p, P (seedFor p)) (hscan : ∀ number seed p, P (scan number seed p)) (number : Nat)
    (as : Attempts) (passphrases : List String) : P (run seedFor scan number as passphrases) :=
  @run_related m m _ _ (fun x _ => P x) hpure hbind seedFor seedFor scan scan hseed hscan number as
    passphrases

section Lawful

variable [Monad m] [LawfulMonad m] {seedFor : String → m (Except DerivationError Seed)}
  {scan : Nat → Seed → String → m Attempt}

/-- Attempts in two groups. Where the first group settles the search, the second is left out. -/
theorem run_append {as : Attempts} (h : as.settled = false) (number : Nat)
    (first rest : List String) :
    run seedFor scan number as (first ++ rest) =
      run seedFor scan number as first >>= fun as =>
        if as.settled then pure as else run seedFor scan (number + first.length) as rest := by
  induction first generalizing number as with
  | nil => simp [run, h]
  | cons passphrase first ih =>
    have hnumber : number + (passphrase :: first).length = number + 1 + first.length := by
      rw [List.length_cons]
      omega
    rw [List.cons_append, run, run, hnumber, bind_assoc]
    refine bind_congr fun r => ?_
    cases r with
    | error e => exact ih (by rwa [settled_seedFailed]) _
    | ok seed =>
      rw [bind_assoc]
      refine bind_congr fun a => ?_
      cases ha : a.settles with
      | true => simp [show (a.hasFunds || a.cancelled) = true from ha, ha]
      | false =>
        simp only [show (a.hasFunds || a.cancelled) = false from ha, Bool.false_eq_true, ↓reduceIte]
        exact ih (by rwa [settled_complete]) _

end Lawful

end Attempts

/-! ## What comes of each attempt -/

/-- What comes of one attempt. -/
inductive Trial where
  /-- Its seed could not be obtained. -/
  | skipped (e : DerivationError)
  | completed (a : Attempt)
  deriving DecidableEq, Repr

namespace Trial

def attempt? : Trial → Option Attempt
  | skipped _ => none
  | completed a => some a

/-- It was completed and settles the search. -/
def settles (t : Trial) : Bool := t.attempt?.any (·.settles)

@[simp] theorem settles_skipped (e : DerivationError) : (skipped e).settles = false := rfl

@[simp] theorem settles_completed (a : Attempt) : (completed a).settles = a.settles := rfl

/-- The failures of an attempt that is not returned, under its number. -/
def reports (number : Nat) : Trial → List ScanFailure
  | skipped e => [.general (attemptMessage number e.message)]
  | completed a => a.errors.map fun f => ⟨f.scheme, attemptMessage number f.message⟩

end Trial

/-- The failures of attempts that are not returned, the first of them number `first`. -/
def reported (first : Nat) (trials : List Trial) : List ScanFailure :=
  (trials.zipIdx first).flatMap fun (t, number) => t.reports number

@[simp] theorem reported_nil (first : Nat) : reported first [] = [] := rfl

@[simp] theorem reported_cons (first : Nat) (t : Trial) (rest : List Trial) :
    reported first (t :: rest) = t.reports first ++ reported (first + 1) rest := by
  rw [reported, List.zipIdx_cons, List.flatMap_cons]
  rfl

namespace Attempts

/-- Makes attempts as `run` does, and keeps what comes of each. -/
def trials [Monad m] (seedFor : String → m (Except DerivationError Seed))
    (scan : Nat → Seed → String → m Attempt) (number : Nat) : List String → m (List Trial)
  | [] => pure []
  | passphrase :: rest => do
    match ← seedFor passphrase with
    | .error e => return .skipped e :: (← trials seedFor scan (number + 1) rest)
    | .ok seed =>
      let a ← scan number seed passphrase
      if a.hasFunds || a.cancelled then return [.completed a]
      return .completed a :: (← trials seedFor scan (number + 1) rest)

/-- Attempts after these, the first of them number `number`. -/
def replay (number : Nat) (as : Attempts) : List Trial → Attempts
  | [] => as
  | .skipped e :: rest => replay (number + 1) (as.seedFailed number e) rest
  | .completed a :: rest => replay (number + 1) (as.complete number a) rest

/-- What a search returns is decided by what comes of its attempts. -/
theorem run_eq_replay [Monad m] [LawfulMonad m]
    {seedFor : String → m (Except DerivationError Seed)} {scan : Nat → Seed → String → m Attempt}
    (number : Nat) (as : Attempts) (passphrases : List String) :
    run seedFor scan number as passphrases =
      replay number as <$> trials seedFor scan number passphrases := by
  induction passphrases generalizing number as with
  | nil => simp [run, trials, replay]
  | cons passphrase rest ih =>
    rw [run, trials, map_bind]
    refine bind_congr fun r => ?_
    cases r with
    | error e => simp [ih, replay]
    | ok seed =>
      simp only [map_bind]
      refine bind_congr fun a => ?_
      split
      · simp [replay]
      · simp [ih, replay]

theorem replay_append (number : Nat) (as : Attempts) (first rest : List Trial) :
    replay number as (first ++ rest) = replay (number + first.length) (replay number as first) rest
    := by
  induction first generalizing number as with
  | nil => rfl
  | cons t first ih =>
    have hnumber : number + (t :: first).length = number + 1 + first.length := by
      rw [List.length_cons]
      omega
    cases t <;> rw [List.cons_append, replay, replay, ih, hnumber]

/-- Skipped attempts leave what there is, and their failures. -/
theorem replay_skipped {trials : List Trial} (h : ∀ t ∈ trials, t.attempt? = .none) (number : Nat)
    (as : Attempts) :
    replay number as trials = ⟨as.carried ++ reported number trials, as.last⟩ := by
  induction trials generalizing number as with
  | nil => simp [replay]
  | cons t rest ih =>
    obtain ⟨ht, hrest⟩ := List.forall_mem_cons.mp h
    cases t with
    | completed a => cases ht
    | skipped e =>
      rw [replay, ih hrest, reported_cons]
      simp [seedFailed, Trial.reports]

/-- Were no attempt returned, there would be the failures of all of them, each once. -/
theorem perm_replay (number : Nat) (as : Attempts) (trials : List Trial) :
    ((replay number as trials).carried ++ renumbered (replay number as trials).last).Perm
      (as.carried ++ renumbered as.last ++ reported number trials) := by
  induction trials generalizing number as with
  | nil => simp [replay]
  | cons t rest ih =>
    cases t with
    | skipped e =>
      refine (ih _ _).trans ?_
      rw [reported_cons, seedFailed, ← List.append_assoc]
      refine List.Perm.append_right _ ?_
      rw [List.append_assoc, List.append_assoc]
      exact List.perm_append_comm.append_left _
    | completed a =>
      refine (ih _ _).trans ?_
      rw [reported_cons, complete, ← List.append_assoc]
      rfl

/-- Without a completed attempt, the result tells of failures only. -/
theorem findings_skipped {trials : List Trial} (h : ∀ t ∈ trials, t.attempt? = .none) :
    (replay 1 none trials).result.findings = ScanResult.empty := by
  rw [replay_skipped h]
  rfl

theorem errors_skipped {trials : List Trial} (h : ∀ t ∈ trials, t.attempt? = .none) :
    (replay 1 none trials).result.errors = reported 1 trials := by
  rw [replay_skipped h]
  exact List.append_nil _

section Returned

variable {after : List Trial} (hafter : ∀ t ∈ after, t.attempt? = .none) (before : List Trial)
  (a : Attempt)

include hafter

/-- After the last completed attempt, there are the failures of the others to carry. -/
theorem replay_returned :
    ∃ carried, replay 1 none (before ++ .completed a :: after) =
        ⟨carried, some (before.length + 1, a)⟩ ∧
      carried.Perm (reported 1 before ++ reported (before.length + 2) after) := by
  rw [replay_append, replay, replay_skipped hafter, Nat.add_comm 1 before.length]
  exact ⟨_, rfl, (perm_replay 1 none before).append_right _⟩

theorem settled_returned :
    (replay 1 none (before ++ .completed a :: after)).settled = a.settles := by
  obtain ⟨carried, hreplay, -⟩ := replay_returned hafter before a
  rw [hreplay]
  rfl

/-- The last completed attempt is returned. -/
theorem findings_returned :
    (replay 1 none (before ++ .completed a :: after)).result.findings = a.result.findings := by
  obtain ⟨carried, hreplay, -⟩ := replay_returned hafter before a
  rw [hreplay]
  rfl

/-- Its failures are returned as they are, those of the others under their numbers. -/
theorem errors_returned :
    let r := (replay 1 none (before ++ .completed a :: after)).result
    r.errors.Perm (a.errors ++ (reported 1 before ++ reported (before.length + 2) after) ++
      if r.cancelled then [Attempt.cancelledNote] else []) := by
  obtain ⟨carried, hreplay, hcarried⟩ := replay_returned hafter before a
  have herrors : (carried ++ a.errors).Perm
      (a.errors ++ (reported 1 before ++ reported (before.length + 2) after)) :=
    List.perm_append_comm.trans (hcarried.append_left _)
  rw [hreplay]
  show (if a.cancelled then carried ++ a.errors ++ [Attempt.cancelledNote]
    else carried ++ a.errors).Perm (_ ++ if a.cancelled then _ else _)
  cases a.cancelled with
  | true => exact herrors.append_right _
  | false =>
    simp only [Bool.false_eq_true, ↓reduceIte, List.append_nil]
    exact herrors

end Returned

end Attempts

end Discovery

end FundRecovery
