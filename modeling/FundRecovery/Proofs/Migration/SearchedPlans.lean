import FundRecovery.Proofs.Discovery.Searches
import FundRecovery.Proofs.Migration.Sweep

/-!
# From a search to a sweep

A search, the plan of its result, the validation of the plan and its execution each count and add up
for themselves: the search what it was answered while it ran, the plan the records of the search,
validation and execution what is listed later. On one ledger they agree.

* `Reads`: what a search is answered about outputs comes from a ledger; lookups may fail.
* `grants_backed`: then discoveries record what the ledger holds.
* `sweep_agrees_with_search`: then a plan of the result is valid, and its execution fulfils it.
-/

namespace FundRecovery

open Discovery (Environment Scanner Search World)
open Migration (Fulfils Serves)

variable {utxos : String → List Utxo}

namespace Discovery

/-- Outputs that are listed or fetched for an address are those that a ledger holds. -/
def Reads (utxos : String → List Utxo) : (c : Call) → c.Answer → Prop
  | .listUtxos address, r => ∀ listed, r = .ok listed → listed = utxos address
  | .fetchUtxos _, r => ∀ fetched, r = .ok fetched → ∀ f ∈ fetched, f.utxos = utxos f.address
  | _, _ => True

theorem lists_reads {address : String} {listed : List Utxo}
    (h : Lists (Reads utxos) address listed) : listed = utxos address := by
  obtain h | ⟨addresses, fetched, h, hmem⟩ := h
  · exact h listed rfl
  · exact h fetched rfl _ hmem

theorem grants_backed : Grants (Reads utxos) (·.Backed utxos) := by
  intro t index derived listed _ hlists hne
  obtain rfl := lists_reads hlists
  exact { balance := rfl, count := rfl, funded := hne }

theorem tells_ledgerAnswer :
    (Environment.ofAnswers (Environment.ledgerAnswer utxos)).Tells (Reads utxos) := by
  intro c s a ha
  obtain rfl : Environment.ledgerAnswer utxos c = a := Except.ok.inj ha
  cases c with
  | listUtxos address =>
    rintro listed ⟨rfl⟩
    rfl
  | fetchUtxos addresses =>
    rintro fetched ⟨rfl⟩ f hf
    obtain ⟨address, -, rfl⟩ := List.mem_map.mp hf
    rfl
  | _ => trivial

end Discovery

/-- **Search, plan, validation and execution agree.** However the wallet was searched, and whether
its lookups failed or not: if all that was answered about outputs came from one ledger, a plan of
the result is valid on this ledger, and its execution moves what the plan says. -/
theorem sweep_agrees_with_search {σ τ : Type} {env : Environment σ}
    {h : Handler Migration.interface τ} {s : Scanner} {seed : Seed} {search : Search}
    {w w' : World σ} {result : ScanResult} {destination : String} {rate : Nat}
    {plan : MigrationPlan} (hreads : env.Tells (Discovery.Reads utxos))
    (hsearch : search.run env s seed w = (.ok (.ok result), w'))
    (hplan : MigrationPlan.create result destination rate = .ok plan)
    (hfits : SumsFit plan.sources) (hserves : h.Answers (Serves utxos destination))
    (key : Seed) (hkey : key.isEmpty = false) (sigHash : SigHash) (t : τ) :
    (∃ t', Program.run h (Migration.validate plan).run t = (.ok (.ok ()), t')) ∧
    ∃ r t', Program.run h (Migration.execute sigHash key plan).run t = (.ok (.ok r), t') ∧
      Fulfils plan r := by
  have hbacked : ∀ d ∈ result.addresses, d.Backed utxos := by
    have hall := Search.granted hreads Discovery.grants_backed s seed search w _ w' hsearch
    exact fun d hd => (hall result rfl).of_mem_addresses hd
  have hprices : plan.Prices utxos := MigrationPlan.prices_create hplan hbacked
  constructor
  · obtain ⟨_, t', _, hr, ⟨⟩, rfl, -⟩ :=
      (Migration.validate_succeeds hprices hfits.balances).run_answers hserves t
    exact ⟨t', hr⟩
  · obtain rfl := MigrationPlan.destination_create hplan
    obtain ⟨_, t', _, hr, r, rfl, hfulfils⟩ :=
      (Migration.execute_succeeds hprices hfits.counts hkey sigHash).run_answers hserves t
    exact ⟨r, t', hr, hfulfils⟩

/-- The chains of a repeated account report the same address four times: it is swept once. -/
theorem sweep_agrees_with_search_repeated_account :
    ∃ utxos result plan r,
      (Search.schemes [.bip44 "wallet" 5 [0, 0] 1]).run
        (.ofAnswers (Environment.ledgerAnswer utxos))
        ⟨{ ScanOptions.default with extendedGapLimit := 2 }, false⟩ ⟨[7]⟩ ⟨(), false, 0⟩ =
          (.ok (.ok result), ⟨(), false, 0⟩) ∧
      result.addresses.length = 4 ∧
      MigrationPlan.create result "destination" 1000 = .ok plan ∧
      Program.run (Migration.server utxos) (Migration.validate plan).run () =
        (.ok (.ok ()), ()) ∧
      Program.run (Migration.server utxos) (Migration.execute .all ⟨[7]⟩ plan).run () =
        (.ok (.ok r), ()) ∧
      r.totalMigrated = 4808 ∧ r.inputCount = 1 ∧ r.sourceAddresses = ["a"] := by
  let utxos : String → List Utxo := fun address =>
    if address = "a" then [⟨"t", 0, 5000, "a", 1⟩] else []
  let report : Bool → DiscoveredAddress := fun isChange =>
    ⟨"a", "m", "wallet", 5000, 1, isChange, 1, 0, 5⟩
  let result : ScanResult := {
    foundAddresses := NameMap.insert ∅ "wallet"
      [report false, report true, report false, report true]
    totalBalance := 20000, totalUtxos := 4, schemesScanned := ["wallet"], addressesScanned := 16
    duration := .zero, passphraseUsed := "", errors := [], cancelled := false }
  let plan : MigrationPlan := {
    sources := [⟨"a", "m", 5000, 1⟩], destination := "destination", totalInput := 5000
    estimatedFee := 192, netAmount := 4808, feeRate := ⟨1000⟩, estimatedSize := 192
    totalUtxos := 1, warning := none }
  have hsearch : (Search.schemes [.bip44 "wallet" 5 [0, 0] 1]).run
      (.ofAnswers (Environment.ledgerAnswer utxos))
      ⟨{ ScanOptions.default with extendedGapLimit := 2 }, false⟩ ⟨[7]⟩ ⟨(), false, 0⟩ =
        (.ok (.ok result), ⟨(), false, 0⟩) := by
    change @Eq (Except Crash (Except RecoveryError ScanResult) × World Unit) _ _
    decide +kernel
  have hplan : MigrationPlan.create result "destination" 1000 = .ok plan := by decide +kernel
  obtain ⟨⟨_, hvalidate⟩, r, _, hexecute, hr⟩ := sweep_agrees_with_search
    Discovery.tells_ledgerAnswer hsearch hplan ⟨by decide, by decide⟩
    (Migration.answers_server "destination") ⟨[7]⟩ rfl .all ()
  exact ⟨utxos, result, plan, r, hsearch, by decide +kernel, hplan, hvalidate, hexecute,
    hr.totalMigrated, hr.inputCount, hr.sourceAddresses⟩

end FundRecovery
