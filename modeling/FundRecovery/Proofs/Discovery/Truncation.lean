import FundRecovery.Proofs.Discovery.CutScans
import FundRecovery.Proofs.Discovery.Totals

/-!
# Results that are cut short

An attempt absorbs the outcomes of its schemes one after the other. If it stops early, or if some of
the outcomes were cut short, its result is a part of the result of the whole attempt.

* `Attempt.gathered`: an attempt with the outcomes it has absorbed. `Attempt.addresses_gathered`:
  the result has what the outcomes of distinct schemes have, in order.
* `ScanResult.Truncates full r`: the result of a scan that was cut short or not, instead of `full`.
  `ScanResult.TotalsLe`: its sums are no higher, and neither are the words that hold the totals
  where the sums fit.
* `CutOutcomes.truncates`: outcomes of the first schemes, each cut short or not, make such a result.
* `wholeAttempt`: what an attempt over all schemes gathers. `value_scanSchemes`: it is the result of
  a scan with one attempt. `CutOutcomes.truncates_whole`: of which the others are parts.
-/

namespace FundRecovery

/-- A part of a list has a part of its total. -/
theorem totalOf_sublist {α : Type} {measure : α → Nat} {part whole : List α}
    (h : part.Sublist whole) : totalOf measure part ≤ totalOf measure whole := by
  induction h with
  | slnil => exact Nat.le_refl _
  | cons a _ ih => exact Nat.le_trans ih (Nat.le_add_left _ _)
  | cons_cons a _ ih => exact Nat.add_le_add_left ih _

/-- What `less` found adds up to no more than what `more` found, and where the sums of `more` fit in
their words, its totals are no higher. -/
structure ScanResult.TotalsLe (less more : ScanResult) : Prop where
  sums : ∀ measure, totalOf measure less.discoveries ≤ totalOf measure more.discoveries
  totalBalance : totalOf (·.balance) more.discoveries ≤ maxAmount →
    less.totalBalance ≤ more.totalBalance
  totalUtxos : totalOf (·.utxoCount) more.discoveries ≤ maxAmount →
    less.totalUtxos ≤ more.totalUtxos

/-- The result of a scan that was cut short or not, instead of `full`. -/
structure ScanResult.Truncates (full r : ScanResult) : Prop where
  schemesScanned : r.schemesScanned <+: full.schemesScanned
  addressesOf : ∀ name, r.addressesOf name <+: full.addressesOf name
  addressesScanned : r.addressesScanned ≤ full.addressesScanned
  totals : r.TotalsLe full

namespace Discovery

/-! ## Outcomes of distinct schemes -/

/-- The entry that an outcome makes: what was found, if anything was and the scan did not fail. -/
def SchemeOutcome.entry? (o : SchemeOutcome) : Option (List DiscoveredAddress) :=
  match o.failure with
  | some _ => none
  | none => if o.addresses.isEmpty then none else some o.addresses

namespace Attempt

variable {a : Attempt} {o : SchemeOutcome} {outcomes : List SchemeOutcome} {name : String}

/-- The funded addresses of one scheme so far. -/
def addressesOf (a : Attempt) (scheme : String) : List DiscoveredAddress :=
  (a.foundAddresses.get? scheme).getD []

@[simp] theorem addressesScanned_absorb (a : Attempt) (o : SchemeOutcome) :
    (a.absorb o).addressesScanned = a.addressesScanned + o.scanned := by
  unfold absorb
  dsimp only
  split
  · rfl
  split <;> rfl

@[simp] theorem cancelled_absorb (a : Attempt) (o : SchemeOutcome) :
    (a.absorb o).cancelled = (a.cancelled || o.cancelled) := by
  unfold absorb
  dsimp only
  split
  · rfl
  split <;> rfl

@[simp] theorem passphrase_absorb (a : Attempt) (o : SchemeOutcome) :
    (a.absorb o).passphrase = a.passphrase := by
  unfold absorb
  dsimp only
  split
  · rfl
  split <;> rfl

/-- An outcome changes nothing of other schemes. -/
theorem get?_absorb_ne (hne : name ≠ o.schemeName) :
    (a.absorb o).foundAddresses.get? name = a.foundAddresses.get? name := by
  unfold absorb
  dsimp only
  split
  · rfl
  split
  · rfl
  · rw [NameMap.get?_insert, if_neg hne]

/-- An outcome makes the entry of its scheme. -/
theorem get?_absorb (hfresh : a.foundAddresses.get? o.schemeName = none) :
    (a.absorb o).foundAddresses.get? o.schemeName = o.entry? := by
  unfold absorb SchemeOutcome.entry?
  dsimp only
  cases o.failure with
  | some failure => exact hfresh
  | none =>
    dsimp only
    split
    · exact hfresh
    · rw [NameMap.get?_insert, if_pos rfl]

theorem schemesScanned_foldl_absorb (outcomes : List SchemeOutcome) (a : Attempt) :
    (outcomes.foldl absorb a).schemesScanned = a.schemesScanned ++ outcomes.map (·.schemeName) := by
  induction outcomes generalizing a with
  | nil => simp
  | cons o rest ih => simp [ih]

theorem addressesScanned_foldl_absorb (outcomes : List SchemeOutcome) (a : Attempt) :
    (outcomes.foldl absorb a).addressesScanned =
      a.addressesScanned + totalOf (·.scanned) outcomes := by
  induction outcomes generalizing a with
  | nil => rfl
  | cons o rest ih => simp [ih, Nat.add_assoc]

theorem get?_foldl_absorb_of_not_mem (h : name ∉ outcomes.map (·.schemeName)) :
    (outcomes.foldl absorb a).foundAddresses.get? name = a.foundAddresses.get? name := by
  induction outcomes generalizing a with
  | nil => rfl
  | cons o rest ih =>
    obtain ⟨hne, hrest⟩ := not_or.mp (List.mem_cons.not.mp (List.map_cons ▸ h))
    rw [List.foldl_cons, ih hrest, get?_absorb_ne hne]

/-- After outcomes of distinct schemes, the attempt has for each the entry of its outcome. -/
theorem get?_foldl_absorb (hn : (outcomes.map (·.schemeName)).Nodup)
    (hfresh : ∀ o ∈ outcomes, a.foundAddresses.get? o.schemeName = none) (ho : o ∈ outcomes) :
    (outcomes.foldl absorb a).foundAddresses.get? o.schemeName = o.entry? := by
  induction outcomes generalizing a with
  | nil => cases ho
  | cons x rest ih =>
    obtain ⟨hx, hn⟩ := List.nodup_cons.mp (List.map_cons ▸ hn)
    obtain ⟨hfreshFirst, hfresh⟩ := List.forall_mem_cons.mp hfresh
    rw [List.foldl_cons]
    rcases List.mem_cons.mp ho with rfl | ho
    · rw [get?_foldl_absorb_of_not_mem hx]
      exact get?_absorb hfreshFirst
    · refine ih hn (fun y hy => ?_) ho
      have hne : y.schemeName ≠ x.schemeName := fun he => hx (he ▸ List.mem_map_of_mem hy)
      rw [get?_absorb_ne hne, hfresh y hy]

/-- The results of two attempts, one of which gathered less. -/
theorem totalsLe {less more : Attempt}
    (h : ∀ measure, totalOf measure less.discoveries ≤ totalOf measure more.discoveries) :
    less.result.TotalsLe more.result where
  sums := h
  totalBalance := wordTotal_mono (h _)
  totalUtxos := wordTotal_mono (h _)

/-- An attempt that has absorbed the outcomes. -/
def gathered (passphrase : String) (outcomes : List SchemeOutcome) : Attempt :=
  outcomes.foldl absorb (.start passphrase)

section Gathered

variable {passphrase : String} (hn : (outcomes.map (·.schemeName)).Nodup)
  (hsound : ∀ o ∈ outcomes, o.failure = none)

theorem schemesScanned_gathered :
    (gathered passphrase outcomes).schemesScanned = outcomes.map (·.schemeName) :=
  schemesScanned_foldl_absorb outcomes (.start passphrase)

@[simp] theorem passphrase_gathered (passphrase : String) (outcomes : List SchemeOutcome) :
    (gathered passphrase outcomes).passphrase = passphrase := by
  have hfold (a : Attempt) : (outcomes.foldl absorb a).passphrase = a.passphrase := by
    induction outcomes generalizing a with
    | nil => rfl
    | cons o rest ih => rw [List.foldl_cons, ih, passphrase_absorb]
  exact hfold _

theorem addressesScanned_gathered (passphrase : String) (outcomes : List SchemeOutcome) :
    (gathered passphrase outcomes).addressesScanned = totalOf (·.scanned) outcomes :=
  (addressesScanned_foldl_absorb outcomes (.start passphrase)).trans (Nat.zero_add _)

theorem addressesOf_gathered_of_not_mem (h : name ∉ outcomes.map (·.schemeName)) :
    (gathered passphrase outcomes).addressesOf name = [] := by
  rw [addressesOf, gathered, get?_foldl_absorb_of_not_mem h]
  rfl

include hn in
theorem get?_gathered (ho : o ∈ outcomes) :
    (gathered passphrase outcomes).foundAddresses.get? o.schemeName = o.entry? :=
  get?_foldl_absorb hn (fun _ _ => rfl) ho

include hn hsound

/-- What scans found that did not fail is what the attempt has for their schemes. -/
theorem addressesOf_gathered (ho : o ∈ outcomes) :
    (gathered passphrase outcomes).addressesOf o.schemeName = o.addresses := by
  rw [addressesOf, get?_gathered hn ho, SchemeOutcome.entry?, hsound o ho]
  dsimp only
  split
  case isTrue hempty => rw [List.isEmpty_iff.mp hempty, Option.getD_none]
  case isFalse => rw [Option.getD_some]

/-- The addresses of the result are those of the outcomes, in order. -/
theorem addresses_gathered (passphrase : String) (cancelled : Bool) :
    ((gathered passphrase outcomes).noteToken cancelled).result.addresses =
      outcomes.flatMap (·.addresses) := by
  have hscanned : ((gathered passphrase outcomes).noteToken cancelled).result.schemesScanned =
      outcomes.map (·.schemeName) := schemesScanned_gathered
  rw [ScanResult.addresses, hscanned, firstOccurrences_eq_self (by rwa [List.map_id]),
    List.flatMap_map]
  exact List.flatMap_congr fun o ho => addressesOf_gathered hn hsound ho

theorem perm_discoveries_gathered (passphrase : String) :
    (outcomes.flatMap (·.addresses)).Perm (gathered passphrase outcomes).discoveries := by
  rw [← addresses_gathered hn hsound passphrase false]
  have hcovered : (gathered passphrase outcomes).Covered :=
    (Covered.start passphrase).foldl_absorb outcomes
  exact ScanResult.addresses_perm hcovered

/-- The totals of the result are those of the outcomes. -/
theorem totalOf_gathered (measure : DiscoveredAddress → Nat) (passphrase : String) :
    totalOf measure (gathered passphrase outcomes).discoveries =
      totalOf measure (outcomes.flatMap (·.addresses)) :=
  (totalOf_perm (perm_discoveries_gathered hn hsound passphrase)).symm

end Gathered

end Attempt

/-! ## Outcomes that were cut short -/

/-- Outcomes of scans that were cut short or not, and in which no derivation failed. -/
abbrev CutOutcomes (fulls outcomes : List SchemeOutcome) : Prop :=
  List.Forall₂ (fun full o => full.Truncates o ∧ o.failure = none) fulls outcomes

namespace CutOutcomes

variable {fulls outcomes : List SchemeOutcome}

theorem map_schemeName (h : CutOutcomes fulls outcomes) :
    outcomes.map (·.schemeName) = fulls.map (·.schemeName) :=
  map_eq_of_forall₂ (h.imp fun _ _ ho => ho.1.schemeName)

theorem sound (h : CutOutcomes fulls outcomes) : ∀ o ∈ outcomes, o.failure = none := by
  induction h with
  | nil => exact List.forall_mem_nil _
  | cons ho _ ih => exact List.forall_mem_cons.mpr ⟨ho.2, ih⟩

theorem exists_full (h : CutOutcomes fulls outcomes) {o : SchemeOutcome} (ho : o ∈ outcomes) :
    ∃ full ∈ fulls, full.Truncates o := by
  induction h with
  | nil => cases ho
  | cons hfirst _ ih =>
    rcases List.mem_cons.mp ho with rfl | ho
    · exact ⟨_, List.mem_cons_self, hfirst.1⟩
    · obtain ⟨full, hfull, ho⟩ := ih ho
      exact ⟨full, List.mem_cons_of_mem _ hfull, ho⟩

theorem scanned_le (h : CutOutcomes fulls outcomes) :
    totalOf (·.scanned) outcomes ≤ totalOf (·.scanned) fulls := by
  induction h with
  | nil => exact Nat.le_refl _
  | cons ho _ ih => exact Nat.add_le_add ho.1.scanned ih

theorem addresses_sublist (h : CutOutcomes fulls outcomes) :
    (outcomes.flatMap (·.addresses)).Sublist (fulls.flatMap (·.addresses)) := by
  induction h with
  | nil => exact .slnil
  | cons ho _ ih => exact ho.1.addresses.sublist.append ih

/-- **The first outcomes, each cut short or not, make a part of the result.** -/
theorem truncates {rest : List SchemeOutcome} (h : CutOutcomes fulls outcomes)
    (hn : ((fulls ++ rest).map (·.schemeName)).Nodup)
    (hsound : ∀ full ∈ fulls ++ rest, full.failure = none) (passphrase : String) (c c' : Bool) :
    ((Attempt.gathered passphrase (fulls ++ rest)).noteToken c).result.Truncates
      ((Attempt.gathered passphrase outcomes).noteToken c').result := by
  have hnames : outcomes.map (·.schemeName) <+: (fulls ++ rest).map (·.schemeName) := by
    rw [h.map_schemeName, List.map_append]
    exact List.prefix_append _ _
  have hnodup : (outcomes.map (·.schemeName)).Nodup := hn.sublist hnames.sublist
  have hfound : (outcomes.flatMap (·.addresses)).Sublist
      ((fulls ++ rest).flatMap (·.addresses)) := by
    rw [List.flatMap_append]
    exact h.addresses_sublist.trans (List.sublist_append_left _ _)
  have htotal (measure : DiscoveredAddress → Nat) :
      totalOf measure (Attempt.gathered passphrase outcomes).discoveries ≤
        totalOf measure (Attempt.gathered passphrase (fulls ++ rest)).discoveries := by
    rw [Attempt.totalOf_gathered hnodup h.sound, Attempt.totalOf_gathered hn hsound]
    exact totalOf_sublist hfound
  exact {
    schemesScanned := by
      rw [← Attempt.schemesScanned_gathered, ← Attempt.schemesScanned_gathered] at hnames
      exact hnames
    addressesOf := fun name => by
      show (Attempt.gathered passphrase outcomes).addressesOf name <+:
        (Attempt.gathered passphrase (fulls ++ rest)).addressesOf name
      by_cases hname : name ∈ outcomes.map (·.schemeName)
      · obtain ⟨o, ho, rfl⟩ := List.mem_map.mp hname
        obtain ⟨full, hfull, hcut⟩ := h.exists_full ho
        rw [Attempt.addressesOf_gathered hnodup h.sound ho, hcut.schemeName,
          Attempt.addressesOf_gathered hn hsound (List.mem_append_left _ hfull)]
        exact hcut.addresses
      · rw [Attempt.addressesOf_gathered_of_not_mem hname]
        exact List.nil_prefix
    addressesScanned := by
      show (Attempt.gathered passphrase outcomes).addressesScanned ≤
        (Attempt.gathered passphrase (fulls ++ rest)).addressesScanned
      rw [Attempt.addressesScanned_gathered, Attempt.addressesScanned_gathered, totalOf_append]
      exact Nat.le_trans h.scanned_le (Nat.le_add_right _ _)
    totals := Attempt.totalsLe htotal }

end CutOutcomes

/-! ## Whole attempts -/

section Whole

variable {answer : (c : Call) → c.Answer} {s : Scanner} {schemes : List PathScheme}
  {seed used : Seed} {passphrase : String}

/-- What an attempt over all schemes gathers. -/
def wholeAttempt (answer : (c : Call) → c.Answer) (s : Scanner) (schemes : List PathScheme)
    (used : Seed) (passphrase : String) : Attempt :=
  .gathered passphrase ((s.jobs schemes).map fun j => (s.scanJob used j).value answer)

theorem value_attempt (schemes : List PathScheme) (used : Seed) (passphrase : String) :
    (s.attempt schemes used passphrase).value answer =
      (wholeAttempt answer s schemes used passphrase).noteToken false := by
  simp only [Scanner.attempt, Scan.value_bind, Scanner.value_scanInOrder, Scan.value_isCancelled]
  rfl

/-- The result of the only attempt is that of the scan. -/
theorem value_scanSchemes (hready : s.checkReady seed schemes = .ok ())
    (hone : s.options.passphraseAttempts = [passphrase])
    (hseed : (Scanner.seedFor seed passphrase).value answer = .ok used) :
    (s.scanSchemes seed schemes).value answer =
      .ok ((wholeAttempt answer s (sortByPriority schemes) used passphrase).noteToken
        false).result := by
  rw [Scanner.scanSchemes, hready, map_eq_pure_bind, Scan.value_bind, Scanner.attempts, hone,
    Scan.value_bind]
  simp only [Attempts.run, Scan.value_bind, hseed, value_attempt]
  split <;> rfl

/-- The whole scan of a job is one of its scheme. -/
theorem value_scanJob_schemeName (s : Scanner) (used : Seed) (j : Job) :
    ((s.scanJob used j).value answer).schemeName = j.scheme.name := by
  have hname : (fun o : SchemeOutcome => o.Of j.scheme.name ∧ o.priorityIndex = j.priorityIndex)
      ((s.scanJob used j).value answer) := steady_fixed_iff.mp (gives_scanScheme ..).steady
  exact hname.1.1

/-- The whole scan of a job is one of its scheme, and it does not fail. -/
theorem value_scanJob (hd : Unfailing answer) (s : Scanner) (used : Seed) (j : Job) :
    ((s.scanJob used j).value answer).schemeName = j.scheme.name ∧
      ((s.scanJob used j).value answer).failure = none := by
  have hsound : (fun o => SchemeOutcome.Truncates _ o ∧ o.failure = none)
      ((s.scanJob used j).value answer) := steady_fixed_iff.mp (scanScheme_truncates hd).steady
  exact ⟨value_scanJob_schemeName s used j, hsound.2⟩

/-- Outcomes of the first jobs carry the names of their schemes. -/
theorem CutOutcomes.map_schemeName_first (hd : Unfailing answer) {first : List Job}
    {outcomes : List SchemeOutcome}
    (h : CutOutcomes (first.map fun j => (s.scanJob used j).value answer) outcomes) :
    outcomes.map (·.schemeName) = first.map (·.scheme.name) := by
  rw [h.map_schemeName, List.map_map]
  exact List.map_congr_left fun j _ => (value_scanJob hd s used j).1

theorem CutOutcomes.nodup_first (hd : Unfailing answer) (hn : (schemes.map (·.name)).Nodup)
    {first : List Job} (hfirst : first <+: s.jobs schemes) {outcomes : List SchemeOutcome}
    (h : CutOutcomes (first.map fun j => (s.scanJob used j).value answer) outcomes) :
    (outcomes.map (·.schemeName)).Nodup := by
  rw [h.map_schemeName_first hd]
  rw [← Scanner.map_name_jobs (s := s)] at hn
  exact hn.sublist (hfirst.map _).sublist

/-- **Outcomes of the first jobs, each cut short or not, make a part of the whole result.** -/
theorem CutOutcomes.truncates_whole (hd : Unfailing answer) (hn : (schemes.map (·.name)).Nodup)
    {first : List Job} (hfirst : first <+: s.jobs schemes) {outcomes : List SchemeOutcome}
    (h : CutOutcomes (first.map fun j => (s.scanJob used j).value answer) outcomes)
    (passphrase : String) (cancelled : Bool) :
    ((wholeAttempt answer s schemes used passphrase).noteToken false).result.Truncates
      ((Attempt.gathered passphrase outcomes).noteToken cancelled).result := by
  obtain ⟨rest, hjobs⟩ := hfirst
  have hnames : ((s.jobs schemes).map fun j => (s.scanJob used j).value answer).map
      (·.schemeName) = schemes.map (·.name) := by
    rw [List.map_map, ← Scanner.map_name_jobs]
    exact List.map_congr_left fun j _ => (value_scanJob hd s used j).1
  rw [wholeAttempt]
  rw [← hjobs, List.map_append] at hnames ⊢
  refine h.truncates (hnames ▸ hn) (fun full hfull => ?_) passphrase false cancelled
  rw [← List.map_append] at hfull
  obtain ⟨j, -, rfl⟩ := List.mem_map.mp hfull
  exact (value_scanJob hd s used j).2

end Whole

end Discovery

end FundRecovery
