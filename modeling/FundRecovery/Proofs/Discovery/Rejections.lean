import FundRecovery.Proofs.Discovery.ParallelScan
import FundRecovery.Proofs.Discovery.Searches
import Mathlib.Tactic.Tauto

/-!
# What fails a search

Only settings and arguments do, and before anything is asked. However its collaborators fail, a
search that got past the checks returns a result.

* `Search.Rejected`: the settings and arguments that each way to search turns down.
* `Run.Rejects P`: a run fails at once if `P`, and never fails otherwise. `Search.rejects`: a search
  fails at once if it is rejected, and never otherwise.
* `Run.Completes`: a run comes to an end without a crash, as every search does whose calls are all
  answered: `Search.completes`.
* `search_fails_iff`: both together.
-/

namespace FundRecovery.Discovery

variable {σ α β : Type} {env : Environment σ} {s : Scanner} {seed : Seed}

/-- The settings and arguments that a search turns down. -/
def Search.Rejected (s : Scanner) (seed : Seed) : Search → Prop
  | .configured | .configuredParallel _ => s.options.Invalid ∨ seed.isEmpty
  | .schemes list | .schemesParallel _ list =>
    s.options.Invalid ∨ ¬(list.map (·.name)).Nodup ∨ seed.isEmpty
  | .names list | .namesParallel _ list =>
    (∃ name ∈ list, name ∉ registry.map (·.name)) ∨ ¬list.Nodup ∨ s.options.Invalid ∨ seed.isEmpty
  | .oldWallet r => r.effectiveGapLimit = 0 ∨ s.options.maxConcurrent = 0 ∨ seed.isEmpty
  | .beyondGap r =>
    r.stop ≤ r.start ∨ r.scheme ∉ registry.map (·.name) ∨ s.options.Invalid ∨ seed.isEmpty

instance (s : Scanner) (seed : Seed) : (search : Search) → Decidable (search.Rejected s seed)
  | .configured | .configuredParallel _ => inferInstanceAs (Decidable (_ ∨ _))
  | .schemes _ | .schemesParallel .. => inferInstanceAs (Decidable (_ ∨ ¬_ ∨ _))
  | .names list | .namesParallel _ list =>
    inferInstanceAs (Decidable ((∃ name ∈ list, _ ∉ _) ∨ ¬_ ∨ _ ∨ _))
  | .oldWallet _ => inferInstanceAs (Decidable (_ ∨ _ ∨ _))
  | .beyondGap _ => inferInstanceAs (Decidable (_ ∨ _ ∨ _ ∨ _))

/-! ## Failing at once or not at all -/

namespace Run

variable {x : Run σ (Except RecoveryError ScanResult)} {P Q : Prop}

/-- The run fails at once if `P`, and never fails otherwise. -/
def Rejects (x : Run σ (Except RecoveryError ScanResult)) (P : Prop) : Prop :=
  (P ∧ ∃ e, x = pure (.error e)) ∨ (¬P ∧ ∃ y : Run σ ScanResult, x = Except.ok <$> y)

namespace Rejects

theorem congr (h : x.Rejects P) (hPQ : P ↔ Q) : x.Rejects Q := by rwa [← hPQ]

theorem error (hP : P) (e : RecoveryError) : Rejects (pure (.error e) : Run σ _) P :=
  .inl ⟨hP, e, rfl⟩

/-- A failure is the rejection, and leaves the world as it is. -/
theorem of_error (h : x.Rejects P) {w w' : World σ} {e : RecoveryError}
    (hx : x w = (.ok (.error e), w')) : P ∧ w' = w := by
  rcases h with ⟨hP, e', rfl⟩ | ⟨-, y, rfl⟩
  · cases hx
    exact ⟨hP, rfl⟩
  · obtain ⟨a, -, ha⟩ := ok_of_map hx
    cases ha

theorem accepts (h : x.Rejects P) (hP : ¬P) : ∃ y : Run σ ScanResult, x = Except.ok <$> y := by
  rcases h with ⟨hP', -⟩ | ⟨-, hx⟩
  · exact absurd hP' hP
  · exact hx

end Rejects

end Run

/-- The schemes of a request have distinct names. -/
theorem OldWalletRecovery.nodup_selectedSchemes (request : OldWalletRecovery) :
    (request.selectedSchemes.map (·.name)).Nodup := by
  unfold selectedSchemes
  split
  · exact nodup_registry
  · exact nodup_map_firstOccurrences _ _

namespace Search

theorem rejects_given (s : Scanner) (schedules : Option (Nat → List Nat)) (list : List PathScheme) :
    ((given schedules list).run env s seed).Rejects
      (s.options.Invalid ∨ ¬(list.map (·.name)).Nodup ∨ seed.isEmpty) := by
  cases hready : s.checkReady seed list with
  | error e =>
    rw [run_given_error hready]
    exact .error (Scanner.rejected_of_checkReady hready) e
  | ok _ =>
    rw [run_given hready]
    refine .inr ⟨?_, Attempts.result <$> _, (Functor.map_map ..).symm⟩
    simpa only [not_or, not_not, Bool.not_eq_true] using Scanner.checkReady_eq_ok_iff.mp hready

/-- The configured schemes are checked with the options. -/
theorem rejects_configured (schedules : Option (Nat → List Nat)) :
    ((given schedules s.options.pathSchemes).run env s seed).Rejects
      (s.options.Invalid ∨ seed.isEmpty) := by
  refine (rejects_given s schedules _).congr ?_
  unfold ScanOptions.Invalid
  tauto

/-- Of schemes found by their names, the names were checked before. -/
theorem rejects_found (schedules : Option (Nat → List Nat)) {list : List String}
    {schemes : List PathScheme} (h : resolveSchemes list = .ok schemes) :
    ((given schedules schemes).run env s seed).Rejects
      ((∃ name ∈ list, name ∉ registry.map (·.name)) ∨ ¬list.Nodup ∨ s.options.Invalid ∨
        seed.isEmpty) := by
  obtain ⟨hfound, hdistinct⟩ := resolveSchemes_eq_ok_iff.mp h
  have hknown : ¬∃ name ∈ list, name ∉ registry.map (·.name) := by
    rintro ⟨name, hname, hunknown⟩
    exact hunknown (known_of_found hfound name hname)
  refine (rejects_given s schedules schemes).congr ?_
  rw [map_name_found hfound]
  simp only [hdistinct, hknown, not_true_eq_false, false_or]

/-- The gap limit of the request takes the place of both limits. -/
theorem rejects_oldWallet (request : OldWalletRecovery) :
    ((Search.oldWallet request).run env s seed).Rejects
      (request.effectiveGapLimit = 0 ∨ s.options.maxConcurrent = 0 ∨ seed.isEmpty) := by
  have hdistinct := request.nodup_selectedSchemes
  refine (rejects_configured none).congr ?_
  show (request.effectiveGapLimit = 0 ∨ request.effectiveGapLimit = 0 ∨
    s.options.maxConcurrent = 0 ∨ ¬(request.selectedSchemes.map (·.name)).Nodup) ∨ _ ↔ _
  tauto

/-- The wider scan that takes the place of a range in bulk. -/
theorem rejects_widened (scheme : PathScheme) (stop : UInt32) :
    (Run.ofScan env (s.scanWidened seed scheme stop)).Rejects
      (stop = 0 ∨ s.options.maxConcurrent = 0 ∨ ¬(s.options.pathSchemes.map (·.name)).Nodup ∨
        seed.isEmpty) := by
  refine (rejects_given _ none [scheme]).congr ?_
  show (stop = 0 ∨ stop = 0 ∨ s.options.maxConcurrent = 0 ∨
    ¬(s.options.pathSchemes.map (·.name)).Nodup) ∨ ¬[scheme.name].Nodup ∨ _ ↔ _
  have hone : [scheme.name].Nodup := List.nodup_singleton _
  tauto

/-- Past the checks of a range, the wider scan cannot fail. -/
theorem accepts_widened {scheme : PathScheme} {start stop : UInt32} (hrange : ¬stop ≤ start)
    (hready : s.checkReady seed [scheme] = .ok ()) :
    ∃ y : Run σ ScanResult, Run.ofScan env (s.scanWidened seed scheme stop) = Except.ok <$> y := by
  obtain ⟨hvalid, -, hseed⟩ := Scanner.checkReady_eq_ok_iff.mp hready
  refine (rejects_widened scheme stop).accepts ?_
  have hstop : stop ≠ 0 := by
    rintro rfl
    exact hrange start.zero_le
  unfold ScanOptions.Invalid at hvalid
  simp only [hseed]
  tauto

theorem rejects_beyondGap (request : BeyondGapRecovery) :
    ((Search.beyondGap request).run env s seed).Rejects
      (request.stop ≤ request.start ∨ request.scheme ∉ registry.map (·.name) ∨ s.options.Invalid ∨
        seed.isEmpty) := by
  rw [run]
  unfold Scanner.recoverBeyondGap
  split
  case isTrue hempty => exact .error (.inl hempty) _
  case isFalse hrange =>
  split
  case h_1 hunknown => exact .error (.inr (.inl (scheme?_eq_none_iff.mp hunknown))) _
  case h_2 scheme hscheme =>
  have hknown : request.scheme ∈ registry.map (·.name) := by
    by_contra hunknown
    rw [scheme?_eq_none_iff.mpr hunknown] at hscheme
    cases hscheme
  split
  case h_1 e hready =>
    have hone : [scheme.name].Nodup := List.nodup_singleton _
    have hrejected := Scanner.rejected_of_checkReady hready
    rw [List.map_singleton] at hrejected
    exact .error (by tauto) e
  case h_2 hready =>
  obtain ⟨hvalid, -, hseed⟩ := Scanner.checkReady_eq_ok_iff.mp hready
  refine .inr ⟨by simp only [hseed]; tauto, ?_⟩
  have hwide : ∃ y, Run.ofScan env (s.scanWidened seed scheme request.stop) = _ :=
    accepts_widened hrange hready
  obtain ⟨wide, hwide⟩ := hwide
  split
  · refine ⟨Run.ofScan env (s.scanRangeInBulk seed scheme request.indices) >>= fun r =>
      r.toOption.elim wide pure, ?_⟩
    rw [ofScan_bind, map_bind]
    refine bind_congr fun r => ?_
    cases r with
    | error e => exact hwide
    | ok result => rfl
  · exact ⟨wide, hwide⟩

/-- **A search fails at once if it is rejected, and never otherwise.** -/
theorem rejects (search : Search) :
    (search.run env s seed).Rejects (search.Rejected s seed) := by
  cases search with
  | configured => exact rejects_configured none
  | configuredParallel schedules => exact rejects_configured (some schedules)
  | schemes list => exact rejects_given s none list
  | schemesParallel schedules list => exact rejects_given s (some schedules) list
  | names list =>
    rw [run, Scanner.scanSchemeNames]
    cases hlist : resolveSchemes list with
    | error e => exact .error (or_assoc.mp (.inl (rejected_of_resolveSchemes hlist))) e
    | ok schemes => exact rejects_found none hlist
  | namesParallel schedules list =>
    rw [run, Scanner.scanSchemeNamesParallel]
    cases hlist : resolveSchemes list with
    | error e => exact .error (or_assoc.mp (.inl (rejected_of_resolveSchemes hlist))) e
    | ok schemes => exact rejects_found (some schedules) hlist
  | oldWallet request => exact rejects_oldWallet request
  | beyondGap request => exact rejects_beyondGap request

end Search

/-! ## Coming to an end -/

namespace Run

/-- From every world, the run ends without a crash. -/
def Completes (x : Run σ α) : Prop := ∀ w, ∃ a w', x w = (.ok a, w')

namespace Completes

theorem pure (a : α) : Completes (Pure.pure a : Run σ α) := fun w => ⟨a, w, rfl⟩

theorem bind {x : Run σ α} {f : α → Run σ β} (hx : x.Completes) (hf : ∀ a, (f a).Completes) :
    (x >>= f).Completes := by
  intro w
  obtain ⟨a, w₁, hx⟩ := hx w
  obtain ⟨b, w₂, hf⟩ := hf a w₁
  exact ⟨b, w₂, (bind_of_ok hx).trans hf⟩

theorem ofScan {A : (c : Call) → c.Answer → Prop} (h : env.Answers A) (p : Scan α) :
    (Run.ofScan env p).Completes := h.run_outcome p

end Completes

end Run

section Ends

variable {A : (c : Call) → c.Answer → Prop} (h : env.Answers A)

include h

theorem Scanner.completes_scanSchemesParallel (schedules : Nat → List Nat)
    (schemes : List PathScheme) : (s.scanSchemesParallel env schedules seed schemes).Completes := by
  rw [scanSchemesParallel]
  split
  · exact .pure _
  rw [map_eq_pure_bind, attemptsParallel]
  refine .bind (.bind (Attempts.run_all (m := Run σ) Run.Completes .pure .bind
    (fun p => .ofScan h (seedFor seed p)) (fun number used p => ?_) 1 .none _)
    fun as => .pure as.result) fun result => .pure _
  exact .bind (fun _ => ⟨_, _, rfl⟩) fun pool => .bind (.ofScan h isCancelled) fun b => .pure _

/-- Where every call is answered, in whatever way, a search comes to an end. -/
theorem Search.completes (search : Search) : (search.run env s seed).Completes := by
  cases search with
  | configured | schemes list | names list | oldWallet request | beyondGap request =>
    exact .ofScan h _
  | configuredParallel schedules | schemesParallel schedules list =>
    exact Scanner.completes_scanSchemesParallel h schedules _
  | namesParallel schedules list =>
    rw [run, Scanner.scanSchemeNamesParallel]
    split
    · exact .pure _
    · exact Scanner.completes_scanSchemesParallel h schedules _

end Ends

/-- Every collaborator fails whatever it is asked. -/
def Environment.failing : Environment Unit :=
  .ofAnswers fun
    | .deriveAddress .. | .deriveLegacyAddress .. => .error (.failed "no key")
    | .seedForPassphrase .. => .error .passphraseUnsupported
    | .listUtxos _ | .checkActivity _ | .fetchUtxos _ => .error .timeout
    | .report _ => ()

end FundRecovery.Discovery
