import FundRecovery.Total

/-!
# Fees

* `FeeRate.fee`: the fee of a transaction size, rounded up, saturating where the product of rate
  and size leaves 64 bits.
* `consolidationSize`: the size of a transaction that spends inputs into one output, in a word.
-/

namespace FundRecovery

/-- Satoshis per kilobyte. -/
structure FeeRate where
  satPerKb : Nat
  deriving DecidableEq, Repr

namespace FeeRate

def standard : FeeRate := ⟨50⟩

/-- The standard rate in place of zero. -/
def orStandard (satPerKb : Nat) : FeeRate := if satPerKb = 0 then standard else ⟨satPerKb⟩

/-- The fee of `size` bytes. -/
def fee (rate : FeeRate) (size : Nat) : Nat :=
  if rate.satPerKb * size ≤ maxAmount then (rate.satPerKb * size + 999) / 1000 else maxAmount

def text (rate : FeeRate) : String := toString rate.satPerKb ++ " sat/kB"

end FeeRate

/-- Version, lock time and counts. -/
def overheadSize : Nat := 10

def inputSize : Nat := 148

def outputSize : Nat := 34

/-- The size of a transaction that spends `inputs` inputs into one output. A word is all that is
kept of it. -/
def consolidationSize (inputs : Nat) : Nat :=
  inWord (overheadSize + inputs * inputSize + outputSize)

def consolidationFee (inputs : Nat) (rate : FeeRate) : Nat := rate.fee (consolidationSize inputs)

end FundRecovery
