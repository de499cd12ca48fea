import FundRecovery.Collaborator
import FundRecovery.Migration.Plan

/-!
# What a plan records of a ledger

Discoveries that were read off a ledger may report an address many times; each report holds what the
ledger does. The plan made of them takes each address once, and everything in it is a sum over what
the ledger holds.

* `Backed`: a record of what a ledger holds for an address.
* `SumsFit`: what sources record adds up in words.
* `MigrationPlan.Prices`: a plan that prices the sweep of distinct funded addresses.
* `MigrationPlan.prices_create`: plans of backed discoveries do.
-/

namespace FundRecovery

variable {utxos : String → List Utxo}

/-! ## Records of a ledger -/

/-- A ledger holds `count` outputs for an address, at least one, and together they are worth
`balance`. -/
structure Backed (utxos : String → List Utxo) (address : String) (balance count : Nat) : Prop where
  balance : balance = totalAmount (utxos address)
  count : count = (utxos address).length
  funded : utxos address ≠ []

/-- The discovery records what the ledger holds for its address. -/
def DiscoveredAddress.Backed (utxos : String → List Utxo) (d : DiscoveredAddress) : Prop :=
  FundRecovery.Backed utxos d.address d.balance d.utxoCount

namespace MigrationSource

/-- The source records what the ledger holds for its address. -/
def Backed (utxos : String → List Utxo) (s : MigrationSource) : Prop :=
  FundRecovery.Backed utxos s.address s.balance s.utxoCount

theorem backed_ofAddresses {addresses : List DiscoveredAddress}
    (h : ∀ d ∈ addresses, d.Backed utxos) : ∀ s ∈ ofAddresses addresses, s.Backed utxos := by
  intro s hs
  obtain ⟨d, hd, rfl⟩ := List.mem_map.mp hs
  exact h d ((firstOccurrences_sublist _ _).mem hd)

/-- No address becomes two sources. -/
theorem nodup_ofAddresses (addresses : List DiscoveredAddress) :
    ((ofAddresses addresses).map (·.address)).Nodup := by
  rw [ofAddresses, List.map_map]
  exact nodup_map_firstOccurrences (·.address) addresses

end MigrationSource

/-- What the sources record adds up without leaving a word. -/
structure SumsFit (sources : List MigrationSource) : Prop where
  balances : totalOf (·.balance) sources ≤ maxAmount
  counts : totalOf (·.utxoCount) sources ≤ maxAmount

/-! ## Plans -/

namespace MigrationPlan

/-- The plan prices the sweep of distinct addresses that a ledger holds something for. -/
structure Prices (utxos : String → List Utxo) (plan : MigrationPlan) : Prop where
  backed : ∀ s ∈ plan.sources, s.Backed utxos
  distinct : (plan.sources.map (·.address)).Nodup
  destination : Text.allBlank plan.destination = false
  totalInput : plan.totalInput = wordTotal (·.balance) plan.sources
  totalUtxos : plan.totalUtxos = wordTotal (·.utxoCount) plan.sources
  estimatedFee : plan.estimatedFee = consolidationFee plan.totalUtxos plan.feeRate
  netAmount : plan.netAmount = plan.totalInput - plan.estimatedFee
  worthwhile : plan.estimatedFee < plan.totalInput

/-- Something is left after the fee, so there are sources. -/
theorem Prices.sources_ne_nil {plan : MigrationPlan} (h : plan.Prices utxos) :
    plan.sources ≠ [] := by
  intro hnil
  have htotal : plan.totalInput = 0 := by
    rw [h.totalInput, hnil]
    rfl
  have hless := h.worthwhile
  omega

variable {result : ScanResult} {destination : String} {rate : Nat} {plan : MigrationPlan}

theorem destination_create (h : create result destination rate = .ok plan) :
    plan.destination = destination := by
  unfold create at h
  dsimp only at h
  split at h
  · cases h
  split at h
  · cases h
  split at h
  · cases h
  · cases h
    rfl

/-- **A plan of discoveries that record what a ledger holds prices the sweep of it.** -/
theorem prices_create (h : create result destination rate = .ok plan)
    (hbacked : ∀ d ∈ result.addresses, d.Backed utxos) : plan.Prices utxos := by
  unfold create at h
  dsimp only at h
  split at h
  · cases h
  split at h
  · cases h
  rename_i hblank
  split at h
  · cases h
  rename_i hless
  cases h
  exact {
    backed := MigrationSource.backed_ofAddresses hbacked
    distinct := MigrationSource.nodup_ofAddresses _
    destination := Bool.eq_false_iff.mpr hblank
    totalInput := rfl
    totalUtxos := rfl
    estimatedFee := rfl
    netAmount := rfl
    worthwhile := Nat.lt_of_not_le hless }

end MigrationPlan

end FundRecovery
