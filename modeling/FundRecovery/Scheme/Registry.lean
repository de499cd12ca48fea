import FundRecovery.Scheme.Basic

/-!
# The scheme registry

The conventions known by name, and the wallet applications known to have used them.

* `registry`: every known scheme, in priority order.
* `scheme?`: a scheme by its name.
* `resolveSchemes`: schemes by names, all of them known and none twice.
-/

namespace FundRecovery

namespace CoinType

def bitcoin : UInt32 := 0

def testnet : UInt32 := 1

def dash : UInt32 := 5

end CoinType

/-- Every known scheme, in priority order. -/
def registry : List PathScheme := [
  (PathScheme.bip44 "bip44" CoinType.dash [0] 0).withDescription "Standard BIP44 account 0",
  (PathScheme.bip44 "bip44-bitcoin-coin-type" CoinType.bitcoin [0] 1).withDescription
    "Wallets that reused the Bitcoin coin type",
  (PathScheme.bip44 "bip44-testnet-coin-type" CoinType.testnet [0] 2).withDescription
    "Wallets that derived mainnet funds on the testnet coin type",
  (PathScheme.legacy "legacy" CoinType.dash 3).withDescription
    "Pre-BIP44 single chain derivation",
  (PathScheme.bip44 "bip44-multi-account" CoinType.dash [1, 2, 3, 4] 4).withDescription
    "Additional BIP44 accounts 1-4"]

def scheme? (name : String) : Option PathScheme := registry.find? (·.name == name)

/-- Wallet applications and the names of the schemes they used. -/
def walletSchemes : List (String × List String) := [
  ("dash-core", ["bip44", "bip44-multi-account"]),
  ("electrum", ["legacy", "bip44"]),
  ("multi-coin", ["bip44-bitcoin-coin-type", "bip44"]),
  ("hardware", ["bip44", "bip44-testnet-coin-type", "bip44-multi-account"])]

def knownWallets : List String := walletSchemes.map (·.1)

/-- The schemes of a wallet application in registry order; none for an unknown one. The case of
ASCII letters does not matter. -/
def schemesForWallet (wallet : String) : List PathScheme :=
  match walletSchemes.find? (·.1.toLower == wallet.toLower) with
  | none => []
  | some (_, names) => registry.filter (·.name ∈ names)

/-- The schemes of these names in their order. The first unknown name fails, then the first
repeated one. -/
def resolveSchemes (names : List String) : Except RecoveryError (List PathScheme) := do
  let schemes ← names.mapM fun name =>
    match scheme? name with
    | some scheme => .ok scheme
    | none => .error (.unknownScheme name)
  ensureUniqueNames schemes
  return schemes

theorem registry_unique : firstRepeat? [] (registry.map (·.name)) = none := by decide +kernel

end FundRecovery
