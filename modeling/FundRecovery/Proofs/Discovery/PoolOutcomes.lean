import FundRecovery.Proofs.Discovery.Conduct
import Mathlib.Data.List.Nodup

/-!
# The outcomes of a pool

Workers hand over outcomes in any order. Where no scan crashes, sorting them gives one outcome per
job, in the order of the jobs, for the jobs that were first in the queue.

* `mergeSort_outcomes`: outcomes with different priorities have one order.
* `Pool.sortedOutcomes_queue`, `Pool.sortedOutcomes_run`: what is known of each job at its end, in
  the order of the jobs.
* `Steady A p Q`: outcomes of a program that never finds the token cancelled.
* `Scanner.sortedOutcomes_runPool`: what scans give holds of the outcomes of a pool, and what they
  give while the token is untouched holds unless it was cancelled.
-/

namespace FundRecovery.Discovery

variable {σ : Type}

/-- Outcomes with different priorities are put in order by sorting, however they arrived. -/
theorem mergeSort_outcomes {arrived ordered : List SchemeOutcome} (hp : arrived.Perm ordered)
    (ho : ordered.Pairwise fun a b => a.priorityIndex < b.priorityIndex) :
    (arrived.mergeSort fun a b => a.priorityIndex ≤ b.priorityIndex) = ordered := by
  have hsort : (arrived.mergeSort fun a b => a.priorityIndex ≤ b.priorityIndex).Pairwise
      fun a b => a.priorityIndex ≤ b.priorityIndex :=
    (List.pairwise_mergeSort (fun a b c => by simpa using Nat.le_trans)
      (fun a b => by simpa using Nat.le_total _ _) arrived).imp (by simp)
  have hnodup : (ordered.map (·.priorityIndex)).Nodup :=
    List.pairwise_map.mpr (ho.imp Nat.ne_of_lt)
  have hperm := (List.mergeSort_perm arrived fun a b => a.priorityIndex ≤ b.priorityIndex).trans hp
  refine List.Perm.eq_of_pairwise (fun a b ha hb hab hba => ?_) hsort (ho.imp Nat.le_of_lt) hperm
  exact List.inj_on_of_nodup_map hnodup (hperm.subset ha) hb (Nat.le_antisymm hab hba)

/-- Lists that correspond have the same images. -/
theorem map_eq_of_forall₂ {α β γ : Type} {f : α → γ} {g : β → γ} {as : List α} {bs : List β}
    (h : List.Forall₂ (fun a b => g b = f a) as bs) : bs.map g = as.map f := by
  induction h with
  | nil => rfl
  | cons hfirst _ ih => rw [List.map_cons, List.map_cons, hfirst, ih]

/-- What corresponds to ascending jobs ascends. -/
theorem pairwise_of_forall₂ {jobs : List Job} {outcomes : List SchemeOutcome}
    (h : List.Forall₂ (fun j o => o.priorityIndex = j.priorityIndex) jobs outcomes)
    (hj : jobs.Pairwise fun a b => a.priorityIndex < b.priorityIndex) :
    outcomes.Pairwise fun a b => a.priorityIndex < b.priorityIndex := by
  rw [← List.pairwise_map, map_eq_of_forall₂ h]
  exact List.pairwise_map.mpr hj

namespace Pool

variable {env : Environment σ} {scan : Job → Scan SchemeOutcome} {jobs : List Job}
  {Inv : World σ → Prop} {Stands : Job → Scan SchemeOutcome → World σ → Prop}

/-- The outcomes that settle jobs, in the order of their arrival. -/
theorem forall₂_settled {w : World σ} {settled : List (Job × Delivery)}
    (h : ∀ x ∈ settled, Settles env Stands (fun _ _ => False) w x.1 x.2) :
    List.Forall₂ (fun j o => Stands j (.done o) w) (settled.map (·.1))
        (settled.filterMap (·.2.outcome?)) ∧
      settled.filterMap (·.2.failure?) = [] := by
  induction settled with
  | nil => exact ⟨.nil, rfl⟩
  | cons x rest ih =>
    obtain ⟨hfirst, hrest⟩ := List.forall_mem_cons.mp h
    obtain ⟨houtcomes, hfailures⟩ := ih hrest
    obtain ⟨o, ho, hs⟩ | ⟨_, _, -, hlost⟩ := hfirst
    · simp only [List.map_cons, List.filterMap_cons, ho, Delivery.outcome?, Delivery.failure?]
      exact ⟨.cons hs houtcomes, hfailures⟩
    · exact hlost.elim

/-- **What is known of each job at its end holds of the sorted outcomes,** job by job. They are
those of the first jobs; of the others, what is known is what was known before. There are no others
unless the token was cancelled. -/
theorem sortedOutcomes_queue (hr : Tracks env jobs Inv Stands fun _ _ => False)
    (hsorted : jobs.Pairwise fun a b => a.priorityIndex < b.priorityIndex)
    (hindex : ∀ j ∈ jobs, ∀ o w, Stands j (.done o) w → o.priorityIndex = j.priorityIndex)
    {workerCount : Nat} (hworkers : workerCount = 0 → jobs = []) (schedule : List Nat)
    {w w' : World σ} (hi : Inv (opening workerCount jobs w).2)
    (hs : ∀ j ∈ jobs, Stands j (scan j) (opening workerCount jobs w).2) {p : Pool}
    (hp : run env scan workerCount jobs schedule w = (p, w')) :
    p.failures = [] ∧ Inv w' ∧ ∃ first others, first ++ others = jobs ∧
      List.Forall₂ (fun j o => Stands j (.done o) w') first p.sortedOutcomes ∧
      (∀ j ∈ others, Stands j (scan j) w') ∧ (others = [] ∨ w'.cancelled = true) := by
  have hnodup : jobs.Nodup := hsorted.imp fun hlt he => by simp [he] at hlt
  obtain ⟨settled, hdel, ⟨taken, htaken, hperm⟩, hsettles, hqueue, hinv, hend⟩ :=
    accounted_run hr hnodup workerCount schedule w hi hs hp
  obtain ⟨harrived, hnone⟩ := forall₂_settled hsettles
  have hfail : p.failures = [] := by rwa [failures, hdel, List.filterMap_map]
  have hprefix : taken <+: jobs := ⟨p.queue, htaken⟩
  -- Put in the order of their jobs, the outcomes ascend, so this is how they are sorted.
  obtain ⟨ordered, hordered, horder⟩ := List.perm_comp_forall₂ hperm harrived
  have hmem := (List.forall₂_and_left _ _).mpr ⟨fun j hj => hprefix.subset hj, hordered⟩
  have hascend := pairwise_of_forall₂ (hmem.imp fun j o h => hindex j h.1 o w' h.2)
    (hsorted.sublist hprefix.sublist)
  have houtcomes : p.sortedOutcomes = ordered := by
    refine mergeSort_outcomes ?_ hascend
    rw [outcomes, hdel, List.filterMap_map]
    exact horder.symm
  refine ⟨hfail, hinv, taken, p.queue, htaken, houtcomes ▸ hordered, hqueue, ?_⟩
  rcases hend with hq | hc | hf
  · exact .inl hq
  · exact .inr hc
  · have hz : workerCount = 0 := by rw [← hf, hfail, List.length_nil]
    rw [hworkers hz] at htaken
    exact .inl (List.append_eq_nil_iff.mp htaken).2

/-- The outcomes are those of the first jobs, and of all jobs unless the token was cancelled. -/
theorem sortedOutcomes_run (hr : Tracks env jobs Inv Stands fun _ _ => False)
    (hsorted : jobs.Pairwise fun a b => a.priorityIndex < b.priorityIndex)
    (hindex : ∀ j ∈ jobs, ∀ o w, Stands j (.done o) w → o.priorityIndex = j.priorityIndex)
    {workerCount : Nat} (hworkers : workerCount = 0 → jobs = []) (schedule : List Nat)
    {w w' : World σ} (hi : Inv (opening workerCount jobs w).2)
    (hs : ∀ j ∈ jobs, Stands j (scan j) (opening workerCount jobs w).2) {p : Pool}
    (hp : run env scan workerCount jobs schedule w = (p, w')) :
    p.failures = [] ∧ Inv w' ∧ ∃ first, first <+: jobs ∧
      List.Forall₂ (fun j o => Stands j (.done o) w') first p.sortedOutcomes ∧
      (first = jobs ∨ w'.cancelled = true) := by
  obtain ⟨hfail, hinv, first, others, hjobs, houtcomes, -, hend⟩ :=
    sortedOutcomes_queue hr hsorted hindex hworkers schedule hi hs hp
  refine ⟨hfail, hinv, first, ⟨others, hjobs⟩, houtcomes, hend.imp_left fun hnone => ?_⟩
  rw [← hjobs, hnone, List.append_nil]

end Pool

/-! ## What scans give -/

/-- With answers that `A` allows, and looks that never find the token cancelled, every outcome of
the program meets `Q`. -/
def Steady {α : Type} (A : (c : Call) → c.Answer → Prop) (p : Scan α) (Q : α → Prop) : Prop :=
  p.Ensures (Request.Allows A (· = false)) fun a _ => Q a

theorem Gives.steady {α : Type} {A : (c : Call) → c.Answer → Prop} {p : Scan α} {Q : α → Prop}
    (h : Gives A p Q) : Steady A p Q :=
  Program.Ensures.anti h fun q _ ha => by
    cases q with
    | call c => exact ha
    | isCancelled => exact .intro

/-- With fixed answers this is the value. -/
theorem steady_fixed_iff {α : Type} {answer : (c : Call) → c.Answer} {p : Scan α}
    {Q : α → Prop} : Steady (fun c a => a = answer c) p Q ↔ Q (p.value answer) := by
  have h : Records (fun c a => a = answer c) (· = false) [] p (fun a _ => Q a) ↔
      Q (p.value answer) := Records.fixed_iff
  exact h

section Answers

variable {env : Environment σ} {A : (c : Call) → c.Answer → Prop} {q : Request} {a : q.Answer}
  {w w' : World σ}

theorem Environment.Answers.allowed (h : env.Answers A) (hq : env.handler q w = (.ok a, w')) :
    Request.Allows A (fun _ => True) q a := by
  cases q with
  | isCancelled => exact .intro
  | call c =>
    obtain ⟨b, hb, hA⟩ := h c w.state
    have ha : (env.reply c w.state).answer = .ok a := congrArg Prod.fst hq
    exact Except.ok.inj (hb.symm.trans ha) ▸ hA

/-- An environment that answers the calls answers all requests. -/
theorem Environment.Answers.handler_answers (h : env.Answers A) :
    env.handler.Answers (Request.Allows A fun _ => True) := by
  intro q w
  obtain ⟨a, ha⟩ := h.total (fun _ => True) q w .intro
  rcases hq : env.handler q w with ⟨r, w'⟩
  rw [hq] at ha
  obtain rfl : r = .ok a := ha
  exact ⟨a, rfl, h.allowed hq⟩

/-- Where every call is answered, a program comes to an outcome. -/
theorem Environment.Answers.run_outcome {α : Type} (h : env.Answers A) (p : Scan α) (w : World σ) :
    ∃ a w', p.run env.handler w = (.ok a, w') := by
  obtain ⟨a, w', -, hr, -⟩ := (Gives.trivial p).run_answers h.handler_answers w
  exact ⟨a, w', hr⟩

/-- A token that is not cancelled has never been. -/
theorem Environment.going_of_handler (h : (env.handler q w).2.cancelled = false) :
    w.cancelled = false := by
  cases hw : w.cancelled with
  | false => rfl
  | true =>
    rw [Pool.Ledger.cancelled_handler hw] at h
    cases h

/-- A look tells how it leaves the token. -/
theorem Environment.Answers.allowed_steady (h : env.Answers A)
    (hq : env.handler q w = (.ok a, w')) (hw' : w'.cancelled = false) :
    Request.Allows A (· = false) q a := by
  cases q with
  | call c => exact h.allowed hq
  | isCancelled =>
    obtain ⟨hlook, hworld⟩ := Prod.mk.inj hq
    have ha : w'.cancelled = a := by rw [← hworld]; exact Except.ok.inj hlook
    exact ha.symm.trans hw'

theorem tracks_gives (h : env.Answers A) (jobs : List Job) (Q S : Job → SchemeOutcome → Prop) :
    Tracks env jobs (fun _ => True) (fun j rest w =>
      Gives A rest (Q j) ∧ (w.cancelled = true ∨ Steady A rest (S j))) fun _ _ => False where
  inv _ _ _ := .intro
  answered {j q next w a w'} _ _ hs hq := by
    have hstays (hc : w.cancelled = true) : w'.cancelled = true := by
      have hhandler : (env.handler q w).2.cancelled = true := Pool.Ledger.cancelled_handler hc
      rwa [hq] at hhandler
    refine ⟨hs.1 a (h.allowed hq), ?_⟩
    rcases hs.2 with hc | hsteady
    · exact .inl (hstays hc)
    · cases hw' : w'.cancelled with
      | true => exact .inl rfl
      | false => exact .inr (hsteady a (h.allowed_steady hq hw'))
  crashed {j q next w e w'} _ _ _ hq := by
    obtain ⟨a, ha⟩ := h.total (fun _ => True) q w .intro
    rw [hq] at ha
    cases ha
  frame _ _ _ _ _ hs := ⟨hs.1, hs.2.imp_left Pool.Ledger.cancelled_handler⟩
  invLook _ := .intro
  look _ _ hs := ⟨hs.1, hs.2.imp_left Pool.Ledger.cancelled_handler⟩

end Answers

/-- **What the scans of single schemes give holds of the outcomes of a pool,** whatever the
schedule. They are those of the first jobs. Unless the token was cancelled, they are those of all
jobs, and they are as scans give them that never find the token cancelled. -/
theorem Scanner.sortedOutcomes_runPool {env : Environment σ} {A : (c : Call) → c.Answer → Prop}
    (h : env.Answers A) {s : Scanner} (hmax : 0 < s.options.maxConcurrent)
    {schemes : List PathScheme} {seed : Seed} {Q S : Job → SchemeOutcome → Prop}
    (hindex : ∀ {j o}, Q j o → o.priorityIndex = j.priorityIndex)
    (hscan : ∀ j ∈ s.jobs schemes,
      Gives A (s.scanJob seed j) (Q j) ∧ Steady A (s.scanJob seed j) (S j))
    (schedule : List Nat) {w w' : World σ} {p : Pool}
    (hr : s.runPool env schedule schemes seed w = (.ok p, w')) :
    p.failures = [] ∧ ∃ first, first <+: s.jobs schemes ∧
      List.Forall₂ (fun j o => Q j o ∧ (w'.cancelled = true ∨ S j o)) first p.sortedOutcomes ∧
      (first = s.jobs schemes ∨ w'.cancelled = true) := by
  rcases hrun : Pool.run env (s.scanJob seed) (s.workerCount schemes.length) (s.jobs schemes)
    schedule w with ⟨p₁, w₁⟩
  obtain ⟨rfl, rfl⟩ : p₁ = p ∧ w₁ = w' := by
    have hpair : ((.ok p₁, w₁) : Except Crash Pool × World σ) = (.ok p, w') := by
      rw [← hr]
      simp only [Scanner.runPool, hrun]
    simpa using hpair
  obtain ⟨hfail, -, first, hfirst, hsettled, hall⟩ := Pool.sortedOutcomes_run
    (tracks_gives h (s.jobs schemes) Q S) (Scanner.pairwise_jobsFrom 0)
    (fun j _ o w hs => hindex hs.1) (Scanner.jobs_eq_nil_of_workerCount hmax) schedule .intro
    (fun j hj => ⟨(hscan j hj).1, .inr (hscan j hj).2⟩) hrun
  exact ⟨hfail, first, hfirst, hsettled, hall⟩

end FundRecovery.Discovery
