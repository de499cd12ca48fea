import FundRecovery.Proofs.Discovery.Totals
import FundRecovery.Proofs.Migration.Plans
import Mathlib.Data.List.DropRight

/-!
# The price of a sweep

A plan is made of a result as it stands, and a result need not be one of a search: it may list a
scheme twice, hold entries of schemes that it does not list, report an address many times or have
totals of its own. The total of the result decides whether there is a plan at all; the price is that
of the addresses, each counted where it is reported first.

* `firstReports`: the sources by their positions. `ofAddresses_eq_firstReports`: those of a plan.
* `Priced`: a plan that prices the first reports. `create_cases`: the four ends of planning.
* `create_prices`: which of them it is, and that after a search the totals are those of the result.
-/

namespace FundRecovery

/-! ## Blank destinations -/

theorem Text.trim_eq_empty_iff {s : String} : Text.trim s = "" ↔ Text.allBlank s = true := by
  have hchars : Text.trimChars s.toList =
      (s.toList.dropWhile Text.isBlank).rdropWhile Text.isBlank := rfl
  rw [Text.trim, String.ofList_eq_empty_iff, hchars, List.rdropWhile_eq_nil_iff,
    ← List.dropWhile_eq_nil_iff, List.dropWhile_idempotent, List.dropWhile_eq_nil_iff,
    Text.allBlank, List.all_eq_true]

/-! ## Sources -/

/-- A source for each address where it is reported first, in order. -/
def firstReports (addresses : List DiscoveredAddress) : List MigrationSource :=
  (addresses.zipIdx.filter fun x => x.1.address ∉ (addresses.take x.2).map (·.address)).map
    fun x => .ofAddress x.1

theorem MigrationSource.ofAddresses_eq_firstReports (addresses : List DiscoveredAddress) :
    ofAddresses addresses = firstReports addresses := by
  rw [ofAddresses, firstOccurrences_eq_filter, List.map_map]
  rfl

namespace MigrationPlan

variable {result : ScanResult} {destination : String} {rate : Nat}

/-- What the first reports of a result add up to. -/
def sweepTotal (result : ScanResult) : Nat :=
  totalOf (·.balance) (firstReports result.addresses)

/-- The fee of a transaction that spends all outputs of the first reports. -/
def sweepFee (result : ScanResult) (rate : Nat) : Nat :=
  (FeeRate.orStandard rate).fee
    (consolidationSize (totalOf (·.utxoCount) (firstReports result.addresses)))

/-- The plan prices the sweep of the first reports of the result. -/
structure Priced (result : ScanResult) (destination : String) (rate : Nat) (plan : MigrationPlan) :
    Prop where
  sources : plan.sources = firstReports result.addresses
  nonempty : plan.sources ≠ []
  distinct : (plan.sources.map (·.address)).Nodup
  destination : plan.destination = destination
  feeRate : plan.feeRate = FeeRate.orStandard rate
  totalInput : plan.totalInput = sweepTotal result
  estimatedFee : plan.estimatedFee = sweepFee result rate
  netAmount : 1 ≤ plan.netAmount
  balanced : plan.netAmount + plan.estimatedFee = plan.totalInput
  totalUtxos : plan.totalUtxos = totalOf (·.utxoCount) plan.sources
  warned : plan.warning.isSome ↔ plan.totalInput < 10 * plan.estimatedFee

theorem isSome_feeWarning? {fee total : Nat} :
    (feeWarning? fee total).isSome ↔ total < 10 * fee := by
  unfold feeWarning? highFeePercent
  split
  · simp only [Option.isSome_some, true_iff]
    omega
  · simp only [Option.isSome_none, Bool.false_eq_true, false_iff]
    omega

/-- **The four ends of planning,** where the first reports add up in words. -/
theorem create_cases (destination : String) (rate : Nat)
    (hfits : SumsFit (firstReports result.addresses)) :
    (result.totalBalance = 0 ∧ create result destination rate = .error .noFunds) ∨
    (result.totalBalance ≠ 0 ∧ Text.allBlank destination = true ∧
      create result destination rate = .error .emptyDestination) ∨
    (result.totalBalance ≠ 0 ∧ Text.allBlank destination = false ∧
      sweepTotal result ≤ sweepFee result rate ∧
      create result destination rate =
        .error (.dust (sweepFee result rate) (sweepTotal result))) ∨
    (result.totalBalance ≠ 0 ∧ Text.allBlank destination = false ∧
      sweepFee result rate < sweepTotal result ∧
      ∃ plan, create result destination rate = .ok plan ∧ Priced result destination rate plan) := by
  have hinput : wordTotal (·.balance) (firstReports result.addresses) = sweepTotal result :=
    wordTotal_of_le hfits.balances
  have hcount : wordTotal (·.utxoCount) (firstReports result.addresses) =
      totalOf (·.utxoCount) (firstReports result.addresses) := wordTotal_of_le hfits.counts
  have hfee : (FeeRate.orStandard rate).fee (consolidationSize
      (totalOf (·.utxoCount) (firstReports result.addresses))) = sweepFee result rate := rfl
  unfold create
  dsimp only
  rw [MigrationSource.ofAddresses_eq_firstReports, hinput, hcount, hfee]
  split
  case isTrue hfunds => exact .inl ⟨by simpa [ScanResult.hasFunds] using hfunds, rfl⟩
  case isFalse hfunds =>
  have hfunds : result.totalBalance ≠ 0 := by
    simpa [ScanResult.hasFunds, Nat.pos_iff_ne_zero] using hfunds
  split
  case isTrue hblank => exact .inr (.inl ⟨hfunds, hblank, rfl⟩)
  case isFalse hblank =>
  have hblank : Text.allBlank destination = false := Bool.eq_false_iff.mpr hblank
  split
  case isTrue hdust => exact .inr (.inr (.inl ⟨hfunds, hblank, hdust, rfl⟩))
  case isFalse hdust =>
  have hworth : sweepFee result rate < sweepTotal result := Nat.lt_of_not_le hdust
  refine .inr (.inr (.inr ⟨hfunds, hblank, hworth, _, rfl, ?_⟩))
  have hnet : 1 ≤ sweepTotal result - sweepFee result rate := Nat.sub_pos_of_lt hworth
  exact {
    sources := rfl
    nonempty := by
      intro hnil
      have htotal : sweepTotal result = 0 := congrArg (totalOf MigrationSource.balance) hnil
      omega
    distinct := by
      rw [← MigrationSource.ofAddresses_eq_firstReports]
      exact MigrationSource.nodup_ofAddresses _
    destination := rfl
    feeRate := rfl
    totalInput := rfl
    estimatedFee := by dsimp only
    netAmount := hnet
    balanced := by
      dsimp only
      exact Nat.sub_add_cancel hworth.le
    totalUtxos := rfl
    warned := by
      dsimp only
      exact isSome_feeWarning? }

/-- Where no address is reported twice, every report becomes a source. -/
theorem Priced.totals {plan : MigrationPlan} (h : Priced result destination rate plan)
    (hn : (result.addresses.map (·.address)).Nodup) :
    plan.totalInput = totalOf (·.balance) result.addresses ∧
      plan.totalUtxos = totalOf (·.utxoCount) result.addresses := by
  have hsources : plan.sources = result.addresses.map .ofAddress := by
    rw [h.sources, ← MigrationSource.ofAddresses_eq_firstReports, MigrationSource.ofAddresses,
      firstOccurrences_eq_self hn]
  rw [h.totalInput, sweepTotal, ← h.sources, h.totalUtxos, hsources, totalOf_map, totalOf_map]
  exact ⟨rfl, rfl⟩

/-- A plan that comes out is priced. -/
theorem priced_create {plan : MigrationPlan} (hfits : SumsFit (firstReports result.addresses))
    (h : create result destination rate = .ok plan) : Priced result destination rate plan := by
  obtain ⟨-, he⟩ | ⟨-, -, he⟩ | ⟨-, -, -, he⟩ | ⟨-, -, -, plan', he, hpriced⟩ :=
    create_cases destination rate hfits
  · cases he.symm.trans h
  · cases he.symm.trans h
  · cases he.symm.trans h
  · obtain rfl : plan' = plan := Except.ok.inj (he.symm.trans h)
    exact hpriced

end MigrationPlan

end FundRecovery
