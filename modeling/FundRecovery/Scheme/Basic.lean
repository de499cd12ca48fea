import FundRecovery.Error
import FundRecovery.FirstOccurrence

/-!
# Path schemes

A scheme says where a wallet application kept its addresses: under which coin type and accounts,
with or without change chains, or on the single chain of the time before BIP44.

* `PathScheme.chains`: the address chains of a scheme, in scan order.
* `sortByPriority`: the order in which schemes are scanned; equal priorities keep their order.
* `ensureUniqueNames`: results are kept by scheme name, so a name may occur once.
-/

namespace FundRecovery

/-- A wallet derivation convention. -/
structure PathScheme where
  name : String
  coinType : UInt32
  /-- The purpose level: 44 for BIP44, 0 for legacy paths. -/
  purpose : UInt32
  accounts : List UInt32
  scanChange : Bool
  isLegacy : Bool
  /-- Lower values are scanned first. -/
  priority : UInt32
  description : String
  deriving DecidableEq, Repr

/-- One address chain of a scheme. -/
structure Chain where
  account : UInt32
  isChange : Bool
  deriving DecidableEq, Repr

namespace Chain

/-- The change level of the paths of the chain. -/
def level (c : Chain) : UInt32 := if c.isChange then 1 else 0

end Chain

namespace PathScheme

def purposeBip44 : UInt32 := 44

def purposeLegacy : UInt32 := 0

/-- The standard layout, with its change chains. -/
def bip44 (name : String) (coinType : UInt32) (accounts : List UInt32) (priority : UInt32) :
    PathScheme :=
  { name, coinType, purpose := purposeBip44, accounts, scanChange := true, isLegacy := false,
    priority, description := "" }

/-- The single chain that has neither an account nor a change level. -/
def legacy (name : String) (coinType priority : UInt32) : PathScheme :=
  { name, coinType, purpose := purposeLegacy, accounts := [0], scanChange := false,
    isLegacy := true, priority, description := "" }

def withDescription (s : PathScheme) (description : String) : PathScheme := { s with description }

def withScanChange (s : PathScheme) (scanChange : Bool) : PathScheme := { s with scanChange }

/-- The chains to scan: the single one of a legacy scheme, or per account the receiving chain and
then, where both the scheme and the caller want it, the change chain. -/
def chains (s : PathScheme) (scanChange : Bool) : List Chain :=
  if s.isLegacy then [⟨s.accounts.headD 0, false⟩]
  else s.accounts.flatMap fun account =>
    if s.scanChange && scanChange then [⟨account, false⟩, ⟨account, true⟩] else [⟨account, false⟩]

end PathScheme

/-- Ascending priority; schemes of one priority keep their order. -/
def sortByPriority (schemes : List PathScheme) : List PathScheme :=
  schemes.mergeSort fun a b => a.priority ≤ b.priority

def ensureUniqueNames (schemes : List PathScheme) : Except RecoveryError Unit :=
  match firstRepeat? [] (schemes.map (·.name)) with
  | none => .ok ()
  | some name => .error (.config (.duplicateScheme name))

end FundRecovery
