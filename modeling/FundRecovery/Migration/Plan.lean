import FundRecovery.Discovery.Result
import FundRecovery.Error
import FundRecovery.Migration.Fee

/-!
# Migration plans

* `MigrationPlan.create`: prices the sweep of every discovered address into one destination.
* `MigrationSource.ofAddresses`: each address becomes one source, however often it was reported.
* `Decimal.oneDecimal`: a float written with one decimal, rounded from its exact value.
-/

namespace FundRecovery

/-! ## Rounded decimals -/

namespace Decimal

/-- The integer nearest to `n / d`; of two nearest ones the even. -/
def roundDiv (n d : Nat) : Nat :=
  if d < 2 * (n % d) ∨ d = 2 * (n % d) ∧ n / d % 2 = 1 then n / d + 1 else n / d

example : roundDiv 5 2 = 2 ∧ roundDiv 7 2 = 4 ∧ roundDiv 8 3 = 3 := by decide

/-- A float that is finite and not negative, with one decimal: its exact value `m * 2 ^ (e - 1075)`
counted in tenths. -/
def oneDecimal (x : Float) : String :=
  let bits := x.toBits.toNat
  let exponent := bits >>> 52 % 2048
  let mantissa := bits % (1 <<< 52)
  let tenths :=
    if exponent = 0 then roundDiv (mantissa * 10 * 2) (1 <<< 1075)
    else roundDiv (((mantissa + 1 <<< 52) * 10) <<< exponent) (1 <<< 1075)
  toString (tenths / 10) ++ "." ++ toString (tenths % 10)

end Decimal

/-! ## Plans -/

/-- A funded address to be swept. -/
structure MigrationSource where
  address : String
  /-- The path its signing key is derived from. -/
  path : String
  balance : Nat
  utxoCount : Nat
  deriving DecidableEq, Repr

namespace MigrationSource

def ofAddress (a : DiscoveredAddress) : MigrationSource :=
  { address := a.address, path := a.path, balance := a.balance, utxoCount := a.utxoCount }

/-- One source per address, the first report of it. -/
def ofAddresses (addresses : List DiscoveredAddress) : List MigrationSource :=
  (firstOccurrences (·.address) addresses).map ofAddress

end MigrationSource

/-- A priced consolidation. -/
structure MigrationPlan where
  sources : List MigrationSource
  destination : String
  totalInput : Nat
  estimatedFee : Nat
  netAmount : Nat
  feeRate : FeeRate
  estimatedSize : Nat
  totalUtxos : Nat
  /-- Present when the plan is valid and uneconomical. -/
  warning : Option String
  deriving DecidableEq, Repr

/-- What became of an executed migration. -/
structure MigrationResult where
  txid : String
  /-- The amount delivered to the destination. -/
  totalMigrated : Nat
  fee : Nat
  inputCount : Nat
  sourceAddresses : List String
  destination : String
  deriving DecidableEq, Repr

/-- The share of the input, in percent, above which a fee deserves a warning. -/
def highFeePercent : Nat := 10

/-- The warning about a fee above its share of the input. -/
def feeWarning? (fee total : Nat) : Option String :=
  if total * highFeePercent < fee * 100 then
    some ("fee " ++ toString fee ++ " sat is " ++
      Decimal.oneDecimal (Float.ofNat fee * 100.0 / Float.ofNat total) ++ "% of the " ++
      toString total ++ " sat being migrated")
  else none

namespace MigrationPlan

def empty : MigrationPlan where
  sources := []
  destination := ""
  totalInput := 0
  estimatedFee := 0
  netAmount := 0
  feeRate := .standard
  estimatedSize := 0
  totalUtxos := 0
  warning := none

instance : Inhabited MigrationPlan := ⟨empty⟩

/-- The fee as a fraction of the input. -/
def feeRatio (p : MigrationPlan) : Float :=
  if p.totalInput = 0 then 0.0 else Float.ofNat p.estimatedFee / Float.ofNat p.totalInput

/-- Sweeps every address of `result` into `destination` at `rate` satoshis per kilobyte, or the
standard rate when that is zero. -/
def create (result : ScanResult) (destination : String) (rate : Nat) :
    Except MigrationError MigrationPlan :=
  if !result.hasFunds then .error .noFunds
  else if Text.allBlank destination then .error .emptyDestination
  else
    let feeRate := FeeRate.orStandard rate
    let sources := MigrationSource.ofAddresses result.addresses
    let totalInput := wordTotal (·.balance) sources
    let totalUtxos := wordTotal (·.utxoCount) sources
    let estimatedSize := consolidationSize totalUtxos
    let estimatedFee := feeRate.fee estimatedSize
    if totalInput ≤ estimatedFee then .error (.dust estimatedFee totalInput)
    else .ok {
      sources, destination, totalInput, estimatedFee
      netAmount := totalInput - estimatedFee
      feeRate, estimatedSize, totalUtxos
      warning := feeWarning? estimatedFee totalInput }

end MigrationPlan

end FundRecovery
