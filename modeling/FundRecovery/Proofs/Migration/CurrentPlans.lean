import FundRecovery.Proofs.Migration.Validations
import Mathlib.Algebra.BigOperators.Group.Finset.Basic

/-!
# Which plans are valid

A validation stops at the first listing that fails or disagrees, and passes over an address that it
has listed before. For a client whose listings depend on the address alone, what it accepts can be
said without it.

* `Listing.amount`: what an address holds. `Listing.worth`: what the addresses of a plan hold, each
  counted once.
* `Current`: the plan agrees with the chain. `CurrentThroughout`: it does so with every record of an
  address, not with the first one alone.
* `validate_iff_current`: a plan is valid exactly when it is current.
* `validate_accepts_stale_repeat`: a valid plan may repeat an address with a stale record.
-/

namespace FundRecovery.Migration

variable {σ : Type} {h : Handler interface σ} {listing : Listing} {plan : MigrationPlan}

/-! ## What a plan says of the chain -/

/-- What an address holds, nothing where listing it fails. -/
def Listing.amount (listing : Listing) (address : String) : Nat :=
  totalOf (·.amount) (listing.outputs address)

/-- What the addresses of a plan hold together. -/
def Listing.worth (listing : Listing) (plan : MigrationPlan) : Nat :=
  ∑ address ∈ (plan.sources.map (·.address)).toFinset, listing.amount address

/-- What the plan says of the chain is so. Of an address that it records repeatedly, this is about
the first record. -/
structure Current (listing : Listing) (plan : MigrationPlan) : Prop where
  planned : plan.sources ≠ []
  listed : ∀ source ∈ plan.sources, ∃ utxos, listing source.address = .ok (.ok utxos)
  recorded : ∀ before source after, plan.sources = before ++ source :: after →
    source.address ∉ before.map (·.address) → source.balance = listing.amount source.address
  total : plan.totalInput = listing.worth plan

/-- What the plan says of the chain is so, in every record. -/
structure CurrentThroughout (listing : Listing) (plan : MigrationPlan) : Prop
    extends Current listing plan where
  everywhere : ∀ source ∈ plan.sources, source.balance = listing.amount source.address

/-- The repeats of an address record what the first record of it does. -/
def RepeatsAgree (plan : MigrationPlan) : Prop :=
  ∀ source ∈ plan.sources, ∀ other ∈ plan.sources,
    source.address = other.address → source.balance = other.balance

/-- The sources that a validation visits are the first records. -/
theorem mem_distinctSources_iff {source : MigrationSource} :
    source ∈ distinctSources plan ↔ ∃ before after, plan.sources = before ++ source :: after ∧
      source.address ∉ before.map (·.address) :=
  mem_firstOccurrences_iff

theorem worth_eq_totalOf (listing : Listing) (plan : MigrationPlan) :
    listing.worth plan = totalOf (fun source => listing.amount source.address)
      (distinctSources plan) := by
  have hsame : (plan.sources.map (·.address)).toFinset =
      ((distinctSources plan).map (·.address)).toFinset := by
    ext address
    rw [List.mem_toFinset, List.mem_toFinset, distinctSources, mem_map_firstOccurrences]
  have hnodup : ((distinctSources plan).map (·.address)).Nodup :=
    nodup_map_firstOccurrences _ plan.sources
  rw [Listing.worth, hsame, List.sum_toFinset _ hnodup, List.map_map]
  generalize distinctSources plan = sources
  induction sources with
  | nil => rfl
  | cons source rest ih => rw [List.map_cons, List.sum_cons, ih, totalOf_cons, Function.comp_apply]

/-- Where the addresses of a plan together hold no more than a word, each amount is counted
exactly. -/
theorem totalAmount_outputs (hfits : listing.worth plan ≤ maxAmount) {source : MigrationSource}
    (hsource : source ∈ distinctSources plan) :
    totalAmount (listing.outputs source.address) = listing.amount source.address := by
  rw [worth_eq_totalOf] at hfits
  have hless := le_totalOf (fun source => listing.amount source.address) hsource
  exact totalAmount_of_le (Nat.le_trans hless hfits)

/-- A current plan without contradictory repeats is current throughout. -/
theorem Current.throughout (hcurrent : Current listing plan) (hplan : RepeatsAgree plan) :
    CurrentThroughout listing plan where
  toCurrent := hcurrent
  everywhere source hsource := by
    have haddress : source.address ∈ (distinctSources plan).map (·.address) :=
      mem_map_firstOccurrences.mpr (List.mem_map_of_mem hsource)
    obtain ⟨first, hfirst, hsame⟩ := List.mem_map.mp haddress
    obtain ⟨before, after, hsplit, hnew⟩ := mem_distinctSources_iff.mp hfirst
    have hmem : first ∈ plan.sources := hsplit ▸ List.mem_append_cons_self
    rw [hplan source hsource first hmem hsame.symm, hcurrent.recorded _ _ _ hsplit hnew, hsame]

/-! ## Runs of a validation -/

/-- What follows goes on with the value that comes before. -/
theorem run_bind_ok {α β : Type} {x : Migrate α} {f : α → Migrate β} {a : α} {s s' : σ}
    (hx : Program.run h x.run s = (.ok (.ok a), s')) :
    Program.run h (x >>= f).run s = Program.run h (f a).run s' := by
  show Program.run h (x.run >>= _) s = _
  rw [Program.run_bind, hx]
  rfl

theorem run_listUtxos {address : String} {s : σ} {utxos : List Utxo}
    (hanswer : (h (.listUtxos address) s).1 = .ok (.ok utxos)) :
    ∃ s', Program.run h (listUtxos address).run s = (.ok (.ok utxos), s') := by
  show ∃ s', Program.run h (Program.ask _ _) s = _
  rw [Program.run_ask]
  generalize h (.listUtxos address) s = r at hanswer
  obtain ⟨answer, s'⟩ := r
  obtain rfl : answer = .ok (.ok utxos) := hanswer
  exact ⟨s', rfl⟩

/-- Sources that hold what they record are added up. -/
theorem run_liveTotal (hlists : ListsBy h listing) {sources : List MigrationSource} {total : Nat}
    (hlisted : ∀ source ∈ sources, ∃ utxos, listing source.address = .ok (.ok utxos))
    (hrecorded : ∀ source ∈ sources,
      totalAmount (listing.outputs source.address) = source.balance)
    (hfits : total + totalOf (·.balance) sources ≤ maxAmount) (s : σ) :
    ∃ s', Program.run h (liveTotal total sources).run s =
      (.ok (.ok (total + totalOf (·.balance) sources)), s') := by
  induction sources generalizing total s with
  | nil => exact ⟨s, rfl⟩
  | cons source rest ih =>
    obtain ⟨⟨utxos, hutxos⟩, hlisted⟩ := List.forall_mem_cons.mp hlisted
    obtain ⟨hbalance, hrecorded⟩ := List.forall_mem_cons.mp hrecorded
    have hlive : totalAmount utxos = source.balance := by
      simp only [← hbalance, Listing.outputs, hutxos]
    rw [totalOf_cons, ← Nat.add_assoc] at hfits ⊢
    have hsum : min (total + totalAmount utxos) maxAmount = total + source.balance := by omega
    obtain ⟨s₁, hlist⟩ := run_listUtxos ((hlists _ s).trans hutxos)
    obtain ⟨s₂, hrest⟩ := ih hlisted hrecorded hfits s₁
    refine ⟨s₂, ?_⟩
    rw [liveTotal, run_bind_ok hlist, if_neg (not_not_intro hlive), hsum]
    exact hrest

/-- A current plan is valid. -/
theorem Current.valid (hcurrent : Current listing plan) (hlists : ListsBy h listing)
    (hfits : listing.worth plan ≤ maxAmount) (s : σ) :
    (Program.run h (validate plan).run s).1 = .ok (.ok ()) := by
  have hsources : plan.sources.isEmpty = false := by simpa using hcurrent.planned
  have hlisted : ∀ source ∈ distinctSources plan,
      ∃ utxos, listing source.address = .ok (.ok utxos) := fun source hsource =>
    hcurrent.listed source ((firstOccurrences_sublist _ _).subset hsource)
  have hrecorded : ∀ source ∈ distinctSources plan,
      source.balance = listing.amount source.address := by
    intro source hsource
    obtain ⟨before, after, hsplit, hnew⟩ := mem_distinctSources_iff.mp hsource
    exact hcurrent.recorded before source after hsplit hnew
  have hsum : 0 + totalOf (·.balance) (distinctSources plan) = plan.totalInput := by
    rw [Nat.zero_add, hcurrent.total, worth_eq_totalOf]
    exact totalOf_congr hrecorded
  have hcounted : ∀ source ∈ distinctSources plan,
      totalAmount (listing.outputs source.address) = source.balance := fun source hsource =>
    (totalAmount_outputs hfits hsource).trans (hrecorded source hsource).symm
  obtain ⟨s', hs'⟩ := run_liveTotal hlists hlisted hcounted
    (by rw [hsum, hcurrent.total]; exact hfits) s
  rw [hsum] at hs'
  simp only [validate, hsources, Bool.false_eq_true, ↓reduceIte]
  rw [run_bind_ok hs', if_neg (not_not_intro rfl)]
  rfl

/-- A valid plan is current. -/
theorem current_of_valid {s : σ} (hlists : ListsBy h listing)
    (hfits : listing.worth plan ≤ maxAmount)
    (hvalid : (Program.run h (validate plan).run s).1 = .ok (.ok ())) : Current listing plan := by
  obtain ⟨t, hcourse, ht⟩ := Program.exists_exchanges h (validate plan).run s
  rw [hvalid] at hcourse
  have hplanned : plan.sources ≠ [] := by
    intro hnone
    rw [validate, hnone] at hcourse
    exact absurd (course_throw.mp hcourse).2.symm (Halt.ending_ne_ok _ _)
  obtain ⟨found, hsources, rfl, hbalances, htotal⟩ := course_validate hcourse
  have hlisting : ∀ f ∈ found, listing f.source.address = .ok (.ok f.utxos) := by
    intro f hf
    obtain ⟨s', hs'⟩ := ht f.listing (List.mem_map_of_mem hf)
    exact (hlists _ s').symm.trans hs'
  have hrecorded : ∀ f ∈ found, f.source.balance = listing.amount f.source.address := by
    intro f hf
    have hsource : f.source ∈ distinctSources plan := hsources ▸ List.mem_map_of_mem hf
    have houtputs : listing.outputs f.source.address = f.utxos := by
      rw [Listing.outputs, hlisting f hf]
    rw [← hbalances f hf, ← totalAmount_outputs hfits hsource, houtputs]
  constructor
  case planned => exact hplanned
  case listed =>
    intro source hsource
    have haddress : source.address ∈ (distinctSources plan).map (·.address) :=
      mem_map_firstOccurrences.mpr (List.mem_map_of_mem hsource)
    rw [← hsources, List.map_map] at haddress
    obtain ⟨f, hf, hsame⟩ := List.mem_map.mp haddress
    exact ⟨f.utxos, hsame ▸ hlisting f hf⟩
  case recorded =>
    intro before source after hsplit hnew
    have hmem : source ∈ found.map (·.source) :=
      hsources ▸ mem_distinctSources_iff.mpr ⟨before, after, hsplit, hnew⟩
    obtain ⟨f, hf, rfl⟩ := List.mem_map.mp hmem
    exact hrecorded f hf
  case total =>
    have hworth : listing.worth plan = totalOf (·.source.balance) found := by
      rw [worth_eq_totalOf, ← hsources, totalOf_map]
      exact (totalOf_congr hrecorded).symm
    rw [htotal, ← hworth, Nat.min_eq_left hfits]

/-- **A plan is valid exactly when it is current**: listing each of its addresses succeeds, the
first record of each is what the address holds, and the addresses, each counted once, hold the
total. So far as repeats of an address do not contradict its first record, every record is. The plan
may be any, and the client may do anything as long as its listings depend on the address alone. -/
theorem validate_iff_current (hlists : ListsBy h listing)
    (hfits : listing.worth plan ≤ maxAmount) (s : σ) :
    ((Program.run h (validate plan).run s).1 = .ok (.ok ()) ↔ Current listing plan) ∧
    (RepeatsAgree plan → ((Program.run h (validate plan).run s).1 = .ok (.ok ()) ↔
      CurrentThroughout listing plan)) := by
  have hiff : (Program.run h (validate plan).run s).1 = .ok (.ok ()) ↔ Current listing plan :=
    ⟨current_of_valid hlists hfits, fun hcurrent => hcurrent.valid hlists hfits s⟩
  refine ⟨hiff, fun hplan => hiff.trans ?_⟩
  exact ⟨fun hcurrent => hcurrent.throughout hplan, fun hthroughout => hthroughout.toCurrent⟩

/-- A plan with an empty source and a repeat of the other one, on a client that holds what it
records. -/
theorem validate_iff_current_repeated_source :
    ∃ utxos plan, plan.sources.map (·.address) = ["a", "b", "a"] ∧ RepeatsAgree plan ∧
      ListsBy (server utxos) (fun address => .ok (.ok (utxos address))) ∧
      Listing.worth (fun address => .ok (.ok (utxos address))) plan ≤ maxAmount ∧
      CurrentThroughout (fun address => .ok (.ok (utxos address))) plan ∧
      plan.totalInput = 5000 := by
  let utxos : String → List Utxo := fun address =>
    if address = "a" then [⟨"t", 0, 2000, "a", 1⟩, ⟨"t", 1, 3000, "a", 1⟩] else []
  let plan : MigrationPlan := {
    sources := [⟨"a", "m/0", 5000, 1⟩, ⟨"b", "m/1", 0, 3⟩, ⟨"a", "m/2", 5000, 1⟩]
    destination := "destination", totalInput := 5000, estimatedFee := 1, netAmount := 9000
    feeRate := ⟨2000⟩, estimatedSize := 0, totalUtxos := 7, warning := none }
  have hagree : RepeatsAgree plan := by
    unfold RepeatsAgree
    decide
  have hlists : ListsBy (server utxos) fun address => .ok (.ok (utxos address)) := fun _ _ => rfl
  have hvalid : (Program.run (server utxos) (validate plan).run ()).1 = .ok (.ok ()) := by
    decide +kernel
  have hfits : Listing.worth (fun address => .ok (.ok (utxos address))) plan ≤ maxAmount := by
    decide +kernel
  exact ⟨utxos, plan, rfl, hagree, hlists, hfits,
    ((validate_iff_current hlists hfits ()).2 hagree).mp hvalid, rfl⟩

/-- A plan that is valid although it records of a repeated address, the second time, what the
address does not hold. -/
theorem validate_accepts_stale_repeat :
    ∃ utxos plan, ListsBy (server utxos) (fun address => .ok (.ok (utxos address))) ∧
      Listing.worth (fun address => .ok (.ok (utxos address))) plan ≤ maxAmount ∧
      (Program.run (server utxos) (validate plan).run ()).1 = .ok (.ok ()) ∧
      ¬ CurrentThroughout (fun address => .ok (.ok (utxos address))) plan := by
  let utxos : String → List Utxo := fun address =>
    if address = "a" then [⟨"t", 0, 5000, "a", 1⟩] else []
  let plan : MigrationPlan := {
    sources := [⟨"a", "m/0", 5000, 1⟩, ⟨"a", "m/0", 40, 1⟩]
    destination := "destination", totalInput := 5000, estimatedFee := 384, netAmount := 4616
    feeRate := ⟨2000⟩, estimatedSize := 192, totalUtxos := 1, warning := none }
  refine ⟨utxos, plan, fun _ _ => rfl, by decide +kernel, by decide +kernel, fun hcurrent => ?_⟩
  have hbalance : 40 = 5000 := hcurrent.everywhere ⟨"a", "m/0", 40, 1⟩ (by simp [plan])
  omega

end FundRecovery.Migration
