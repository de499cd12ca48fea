import FundRecovery.Proofs.Migration.Conservation
import FundRecovery.Proofs.Migration.Sweep

/-!
# What a validation says of an execution

A validation looks at each source by itself and adds up what they hold; an execution lists the
sources once more and adds up their outputs. Both take an address once, where it occurs first, so
that for a client whose listings depend on the address alone they come to one amount, whatever was
done to the plan in between.

* `course_liveTotal`, `course_validate`: a validation that succeeds found the recorded balances.
* `ListsBy`: listings depend on the address alone. `ListsBy.outputs_eq`: so do holdings.
* `Spends`: a result that accounts for what the plan records. `validated_execution_spends`: that of
  a validated plan does.
-/

namespace FundRecovery.Migration

variable {t : Record}

/-! ## Validation -/

/-- A sum that comes to its end found at each source what it recorded, and saturates. -/
theorem course_liveTotal {sources : List MigrationSource} {total live : Nat}
    (htotal : total ≤ maxAmount) (h : Course (liveTotal total sources) t (.ok (.ok live))) :
    ∃ found : List Holding, found.map (·.source) = sources ∧ t = found.map Holding.listing ∧
      (∀ f ∈ found, totalAmount f.utxos = f.source.balance) ∧
      live = min (total + totalOf (·.source.balance) found) maxAmount := by
  induction sources generalizing t total with
  | nil =>
    obtain ⟨rfl, hr⟩ := course_pure.mp h
    cases hr
    exact ⟨[], rfl, rfl, List.forall_mem_nil _, (Nat.min_eq_left htotal).symm⟩
  | cons source rest ih =>
    obtain ⟨e, he, -⟩ | ⟨utxos, u, v, rfl, hlist, hthen⟩ := course_bind.mp h
    · exact absurd he.symm (e.ending_ne_ok _)
    obtain ⟨answer, rfl, ha⟩ := course_listUtxos.mp hlist
    obtain rfl := eq_ok_of_answered ha
    obtain ⟨-, he⟩ | ⟨hsame, hrest⟩ := course_unless hthen
    · exact absurd he.symm (Halt.ending_ne_ok _ _)
    have hbalance : totalAmount utxos = source.balance := not_not.mp hsame
    obtain ⟨found, rfl, rfl, hall, rfl⟩ := ih (Nat.min_le_right _ _) hrest
    refine ⟨⟨source, utxos⟩ :: found, rfl, rfl, List.forall_mem_cons.mpr ⟨hbalance, hall⟩, ?_⟩
    simp only [hbalance, totalOf_cons]
    omega

/-- A validation that succeeds found at each source what the plan recorded, and the total of the
plan unless that saturates. -/
theorem course_validate {plan : MigrationPlan} (h : Course (validate plan) t (.ok (.ok ()))) :
    ∃ found : List Holding, found.map (·.source) = distinctSources plan ∧
      t = found.map Holding.listing ∧ (∀ f ∈ found, totalAmount f.utxos = f.source.balance) ∧
      plan.totalInput = min (totalOf (·.source.balance) found) maxAmount := by
  unfold validate at h
  obtain ⟨-, he⟩ | ⟨-, hsum⟩ := course_unless h
  · exact absurd he.symm (Halt.ending_ne_ok _ _)
  obtain ⟨e, he, -⟩ | ⟨live, u, v, rfl, hlive, hcheck⟩ := course_bind.mp hsum
  · exact absurd he.symm (e.ending_ne_ok _)
  obtain ⟨found, hsources, rfl, hall, rfl⟩ := course_liveTotal (Nat.zero_le _) hlive
  split at hcheck
  · exact absurd (course_throw.mp hcheck).2.symm (Halt.ending_ne_ok _ _)
  case isFalse htotal =>
    obtain ⟨rfl, -⟩ := course_pure.mp hcheck
    rw [Nat.zero_add] at htotal
    exact ⟨found, hsources, List.append_nil _, hall, (not_not.mp htotal).symm⟩

/-! ## Listings -/

/-- What a client lists by address. -/
abbrev Listing : Type := String → Except Crash (Except ChainError (List Utxo))

/-- The outputs of an address, none where listing them fails. -/
def Listing.outputs (listing : Listing) (address : String) : List Utxo :=
  match listing address with
  | .ok (.ok utxos) => utxos
  | _ => []

/-- Listings depend on the address alone. -/
def ListsBy {σ : Type} (h : Handler interface σ) (listing : Listing) : Prop :=
  ∀ address s, (h (.listUtxos address) s).1 = listing address

/-- Whoever has listed sources, in whatever states of the client, found what it lists. -/
theorem ListsBy.outputs_eq {σ : Type} {h : Handler interface σ} {listing : Listing}
    {found : List Holding} (hlists : ListsBy h listing) (hmem : ∀ f ∈ found, f.listing ∈ t)
    (ht : ∀ x ∈ t, ∃ s, (h x.request s).1 = x.answer) :
    ∀ f ∈ found, listing.outputs f.source.address = f.utxos := by
  intro f hf
  obtain ⟨s, hs⟩ := ht f.listing (hmem f hf)
  have hanswer : listing f.source.address = .ok (.ok f.utxos) := (hlists _ s).symm.trans hs
  simp only [Listing.outputs, hanswer]

/-- Sources that were listed are what was found. -/
theorem eq_map_outputs {listing : Listing} {found : List Holding}
    (h : ∀ f ∈ found, listing.outputs f.source.address = f.utxos) :
    found = (found.map (·.source)).map fun source => ⟨source, listing.outputs source.address⟩ := by
  rw [List.map_map]
  refine (List.map_id _).symm.trans (List.map_congr_left fun f hf => ?_)
  simp only [id, Function.comp_apply, h f hf]

/-! ## Execution -/

/-- The result accounts for what the plan records: for its total, at its rate, and for each source
whose first record is of something. -/
structure Spends (plan : MigrationPlan) (r : MigrationResult) : Prop where
  value : r.totalMigrated + r.fee = plan.totalInput
  fee : r.fee = consolidationFee r.inputCount plan.feeRate
  sources : ∀ before source after, plan.sources = before ++ source :: after →
    source.address ∉ before.map (·.address) → source.balance ≠ 0 →
      source.address ∈ r.sourceAddresses

/-- An execution that ends with a result has listed each source and spends what it found. -/
theorem course_execute_result {sigHash : SigHash} {seed : Seed} {plan : MigrationPlan}
    {r : MigrationResult} (h : Course (execute sigHash seed plan) t (.ok (.ok r))) :
    ∃ found txid, (∀ f ∈ found, f.listing ∈ t) ∧ Prepared plan seed found ∧
      r = resultOf plan found txid := by
  obtain ⟨e, he, -⟩ | ⟨validation, found, answer, after, -, hprepared, rfl, hthen⟩ :=
    course_execute h
  · exact absurd he.symm (e.ending_ne_ok r)
  obtain ⟨e, -, -, he⟩ | ⟨tx, sent, -, -, hsent⟩ := hthen
  · exact absurd he.symm (e.ending_ne_ok r)
  rcases sent with c | e | txid <;> cases hsent
  refine ⟨found, txid, fun f hf => List.mem_append_left _ ?_, hprepared, rfl⟩
  exact List.mem_cons_of_mem _ (List.mem_map_of_mem hf)

/-- **An execution of a validated plan spends what the plan recorded.** The plan may be any, the
client may list anything as long as it depends on the address alone, and the other collaborators
may do anything between and during the two runs. -/
theorem validated_execution_spends {σ : Type} {h : Handler interface σ} {listing : Listing}
    {sigHash : SigHash} {seed : Seed} {plan : MigrationPlan} {r : MigrationResult} {s s' u u' : σ}
    (hlists : ListsBy h listing)
    (hfits : totalOf (fun source => totalAmount (listing.outputs source.address))
      (distinctSources plan) ≤ maxAmount)
    (hvalid : Program.run h (validate plan).run s = (.ok (.ok ()), s'))
    (hexecuted : Program.run h (execute sigHash seed plan).run u = (.ok (.ok r), u')) :
    Spends plan r := by
  obtain ⟨t, hcourse, ht⟩ := Program.exists_exchanges h (validate plan).run s
  rw [hvalid] at hcourse
  obtain ⟨found, hsources, rfl, hbalances, htotal⟩ := course_validate hcourse
  obtain ⟨t', hcourse', ht'⟩ := Program.exists_exchanges h (execute sigHash seed plan).run u
  rw [hexecuted] at hcourse'
  obtain ⟨found', txid, hlisted, hprepared, rfl⟩ := course_execute_result hcourse'
  have houtputs := hlists.outputs_eq (fun f hf => List.mem_map_of_mem hf) ht
  -- The two runs list the same sources, and so find the same.
  have hsame : found' = found := by
    rw [eq_map_outputs (hlists.outputs_eq hlisted ht'), hprepared.listed, ← hsources]
    exact (eq_map_outputs houtputs).symm
  subst hsame
  have hbalance : totalOf (fun f => totalAmount f.utxos) found' =
      totalOf (·.source.balance) found' := totalOf_congr hbalances
  have hlive : totalAmount (found'.flatMap (·.utxos)) = plan.totalInput := by
    have houtput : totalOf (fun f => totalAmount (listing.outputs f.source.address)) found' =
        totalOf (fun f => totalAmount f.utxos) found' :=
      totalOf_congr fun f hf => by rw [houtputs f hf]
    rw [← hsources, totalOf_map, houtput] at hfits
    rw [totalAmount_flatMap, wordTotal_of_le hfits, htotal, ← hbalance, Nat.min_eq_left hfits]
  constructor
  case value =>
    have hworth := hprepared.worthwhile
    rw [hlive] at hworth
    simp only [resultOf, hlive]
    omega
  case fee => rfl
  case sources =>
    intro before source after hplan hfirst hrecorded
    have hmem : source ∈ found'.map (·.source) := by
      rw [hsources, distinctSources, hplan]
      exact mem_firstOccurrences_append hfirst
    obtain ⟨f, hf, rfl⟩ := List.mem_map.mp hmem
    have hheld : f.utxos ≠ [] := by
      intro hnone
      rw [← hbalances f hf, hnone] at hrecorded
      exact hrecorded totalAmount_nil
    rw [(delivered_resultOf hsources).1]
    exact List.mem_map_of_mem (List.mem_filter.mpr ⟨hf, decide_eq_true hheld⟩)

/-- A plan that repeats a source with another balance, has an empty one, and a fee that was made up:
it is valid, and the repeated source is spent once. -/
theorem validated_execution_spends_repeated_source :
    ∃ utxos plan r,
      plan.sources.map (·.address) = ["a", "b", "a"] ∧ plan.totalInput = 5000 ∧
      ListsBy (server utxos) (fun address => .ok (.ok (utxos address))) ∧
      Program.run (server utxos) (validate plan).run () = (.ok (.ok ()), ()) ∧
      Program.run (server utxos) (execute .all ⟨[7]⟩ plan).run () = (.ok (.ok r), ()) ∧
      r.totalMigrated = 4616 ∧ r.fee = 384 ∧ r.sourceAddresses = ["a"] ∧ Spends plan r := by
  let utxos : String → List Utxo := fun address =>
    if address = "a" then [⟨"t", 0, 5000, "a", 1⟩] else []
  let plan : MigrationPlan := {
    sources := [⟨"a", "m/0", 5000, 1⟩, ⟨"b", "m/1", 0, 3⟩, ⟨"a", "m/2", 40, 1⟩]
    destination := "destination", totalInput := 5000, estimatedFee := 1, netAmount := 9000
    feeRate := ⟨2000⟩, estimatedSize := 0, totalUtxos := 7, warning := none }
  let result : MigrationResult := {
    txid := "6d2f30", totalMigrated := 4616, fee := 384, inputCount := 1, sourceAddresses := ["a"]
    destination := "destination" }
  have hlists : ListsBy (server utxos) fun address => .ok (.ok (utxos address)) := fun _ _ => rfl
  have hvalid : Program.run (server utxos) (validate plan).run () = (.ok (.ok ()), ()) := by
    decide +kernel
  have hexecuted : Program.run (server utxos) (execute .all ⟨[7]⟩ plan).run () =
      (.ok (.ok result), ()) := by decide +kernel
  exact ⟨utxos, plan, result, rfl, rfl, hlists, hvalid, hexecuted, rfl, rfl, rfl,
    validated_execution_spends hlists (by decide +kernel) hvalid hexecuted⟩

end FundRecovery.Migration
