import FundRecovery.Proofs.Discovery.Consistency

/-!
# Totals and addresses

The totals of a result are added up over its entries, its addresses are those of the schemes it
lists. They are of the same discoveries after every search, also after one on a pool whose workers
crashed and took schemes along, since a scheme is listed before anything of it is entered.

* `Attempt.Covered`: every entry is of a listed scheme; whatever is absorbed or recorded keeps it
  so.
* `search_totals`: the totals of every result are those of its addresses.
-/

namespace FundRecovery.Discovery

variable {σ : Type} {env : Environment σ} {A : (c : Call) → c.Answer → Prop}

namespace Attempt

/-- Every entry is of a scheme that counts as scanned. -/
def Covered (a : Attempt) : Prop :=
  ∀ e ∈ a.foundAddresses.entries, e.1 ∈ a.schemesScanned

namespace Covered

variable {a : Attempt}

theorem start (passphrase : String) : (start passphrase).Covered :=
  fun _ he => absurd he List.not_mem_nil

theorem absorb (h : a.Covered) (o : SchemeOutcome) : (a.absorb o).Covered := by
  have hkept : ∀ e ∈ a.foundAddresses.entries, e.1 ∈ a.schemesScanned ++ [o.schemeName] :=
    fun e he => List.mem_append_left _ (h e he)
  intro e he
  rw [schemesScanned_absorb]
  unfold Attempt.absorb at he
  dsimp only at he
  split at he
  · exact hkept e he
  split at he
  · exact hkept e he
  obtain rfl | he := NameMap.mem_insertEntry he
  · exact List.mem_append_right _ (List.mem_singleton_self _)
  · exact hkept e he

theorem foldl_absorb (h : a.Covered) (outcomes : List SchemeOutcome) :
    (outcomes.foldl Attempt.absorb a).Covered := by
  induction outcomes generalizing a with
  | nil => exact h
  | cons o rest ih => exact ih (h.absorb o)

theorem foldl_recordFailure (h : a.Covered) (failures : List ScanFailure) :
    (failures.foldl Attempt.recordFailure a).Covered := by
  rw [Attempt.foldl_recordFailure]
  exact h

/-- The totals of a covered attempt are those of its addresses. -/
theorem totals (h : a.Covered) :
    a.result.totalBalance = wordTotal (·.balance) a.result.addresses ∧
      a.result.totalUtxos = wordTotal (·.utxoCount) a.result.addresses := by
  have hperm : a.result.addresses.Perm a.discoveries := ScanResult.addresses_perm h
  exact ⟨(wordTotal_perm hperm).symm, (wordTotal_perm hperm).symm⟩

end Covered

end Attempt

section Attempts

variable {s : Scanner} {seed : Seed} {Pre : World σ → Prop}

theorem gives_scanInOrder_covered (first : Nat) (schemes : List PathScheme) {a : Attempt}
    (h : a.Covered) : Gives A (s.scanInOrder seed first schemes a) Attempt.Covered := by
  induction schemes generalizing first a with
  | nil => exact .done h
  | cons scheme rest ih =>
    refine .bind (.trivial _) fun b _ => ?_
    cases b with
    | true => exact .done h
    | false => exact .bind (.trivial _) fun o _ => ih (first + 1) (h.absorb o)

theorem gives_attempt_covered (schemes : List PathScheme) (passphrase : String) :
    Gives A (s.attempt schemes seed passphrase) Attempt.Covered :=
  .bind (gives_scanInOrder_covered 0 schemes (.start passphrase)) fun _ ha =>
    .bind (.trivial _) fun _ _ => .done ha

/-- Whatever the workers hand over, outcomes or failures. -/
theorem leads_attemptParallel_covered (schedule : List Nat) (schemes : List PathScheme)
    (passphrase : String) :
    Leads (fun _ _ => True) Pre (s.attemptParallel env schedule schemes seed passphrase)
      fun a _ => a.Covered := by
  have hany {α : Type} (x : Run σ α) {Pre : World σ → Prop} :
      Leads (fun _ _ => True) Pre x fun _ _ => True :=
    fun _ _ _ _ _ => ⟨.intro, fun _ _ => .intro⟩
  refine .bind (fun _ _ => .intro) (hany _) fun pool => ?_
  refine .bind (fun _ _ => .intro) (hany _) fun b => .pure (fun _ => .intro) fun _ _ => ?_
  exact ((Attempt.Covered.start passphrase).foldl_absorb _).foldl_recordFailure pool.failures

/-- Covered attempts make up a result with the totals of its addresses. -/
theorem leads_attempts_covered {scan : Nat → Seed → String → Run σ Attempt}
    (hscan : ∀ number used p, Leads (fun _ _ => True) (fun _ => True) (scan number used p)
      fun a _ => a.Covered) (passphrases : List String) :
    Leads (fun _ _ => True) Pre (Attempts.run (fun p => Run.ofScan env (Scanner.seedFor seed p))
      scan 1 .none passphrases) fun as _ => as.Meets Attempt.Covered := by
  have hevolves : Evolves env (fun _ => True) (fun _ _ => True) fun _ _ _ => True :=
    Environment.Tells.evolves fun _ _ _ _ => .intro
  exact (Attempts.leads_run (J := fun as _ => as.Meets Attempt.Covered) (S := fun _ _ _ => True)
    hevolves (fun _ => id) (fun _ _ has => has)
    (fun number _ ha => Attempts.meets_complete _ number ha)
    (fun p w r w' _ _ => ⟨.intro, fun _ _ _ _ => .intro⟩) hscan .none 1 passphrases).mono
    (fun _ _ => by rintro _ _ ⟨⟩) fun _ _ => id

/-- A range is one scheme. -/
theorem gives_scanRangeInBulk_covered (s : Scanner) (seed : Seed) (scheme : PathScheme)
    (indices : List Nat) : Gives A (s.scanRangeInBulk seed scheme indices) fun r =>
      ∀ result, r = .ok result → ∃ a : Attempt, a.Covered ∧ result = a.result := by
  refine .bind (.trivial _) fun r _ => ?_
  rcases r with e | ⟨noted, scan⟩
  · exact .done (by rintro _ ⟨⟩)
  · refine .done ?_
    rintro _ ⟨rfl⟩
    exact ⟨_, ((Attempt.Covered.start "").foldl_recordFailure noted).absorb _, rfl⟩

end Attempts

/-- **The totals of every result are those of its addresses,** whichever way the wallet was
searched and whatever became of the collaborators and the workers. -/
theorem search_totals {s : Scanner} {seed : Seed} {search : Search} {w w' : World σ}
    {result : ScanResult} (hr : search.run env s seed w = (.ok (.ok result), w')) :
    result.totalBalance = wordTotal (·.balance) result.addresses ∧
      result.totalUtxos = wordTotal (·.utxoCount) result.addresses := by
  have hevolves : Evolves env (fun _ => True) (fun _ _ => True) fun _ _ _ => True :=
    Environment.Tells.evolves fun _ _ _ _ => .intro
  have hfound : Leads (fun _ _ => True) (fun _ => True) (search.run env s seed) fun r _ =>
      ∀ result, r = .ok result → ∃ a : Attempt, a.Covered ∧ result = a.result := by
    have hresult {as : Attempts} (has : as.Meets Attempt.Covered) :
        ∃ a : Attempt, a.Covered ∧ as.result = a.result := by
      refine ⟨_, ?_, rfl⟩
      cases hlast : as.last with
      | none => exact .start ""
      | some last => exact has last.1 last.2 hlast
    refine Search.leads_of (fun _ => .intro) (fun _ _ => .intro) (fun e w => by rintro _ ⟨⟩)
      (fun s' _ _ => ?_) (fun schedules _ _ => ?_) fun scheme start count _ _ => ?_
    · rw [Scanner.attempts, ofScan_bind, ofScan_attempts]
      refine .bind (fun _ _ => .intro) (leads_attempts_covered (fun number used p =>
        leads_ofScan hevolves (asks_any _) fun _ => gives_attempt_covered _ p) _)
        fun as => .pure (fun _ => .intro) fun w has => ?_
      rintro _ ⟨rfl⟩
      exact hresult has
    · refine .bind (fun _ _ => .intro) (leads_attempts_covered (fun number used p =>
        leads_attemptParallel_covered (schedules number) _ p) _)
        fun as => .pure (fun _ => .intro) fun w has => ?_
      rintro _ ⟨rfl⟩
      exact hresult has
    · refine (leads_ofScan hevolves (asks_any _) fun _ => gives_scanRangeInBulk_covered s seed
        scheme _).mono (fun _ => id) fun r w hr => ?_
      rintro result rfl _ ⟨rfl⟩
      exact hr result rfl
  obtain ⟨a, ha, rfl⟩ := (hfound w _ w' .intro hr).2 _ rfl result rfl
  exact ha.totals

end FundRecovery.Discovery
