import FundRecovery.Error

/-!
# Gap limits

A chain of addresses counts as exhausted after a run of `limit` unused addresses.

* `GapLimit`: the run of unused addresses at the end of a chain.
* `RecoveryMode`: how far past the last used address a recovery keeps looking.
-/

namespace FundRecovery

/-- Indices of a chain, coin types, accounts and limits are 32-bit numbers. -/
def indexSpace : Nat := UInt32.size

/-- The run of unused addresses at the end of one chain. -/
structure GapLimit where
  limit : Nat
  unused : Nat
  deriving DecidableEq, Repr

namespace GapLimit

def standard : UInt32 := 20

/-- The limit of the scheme scanned first, unless set otherwise. -/
def extended : UInt32 := 100

def new (limit : Nat) : GapLimit := ⟨limit, 0⟩

/-- The chain is exhausted. A limit of zero is reached at once. -/
def reached (g : GapLimit) : Bool := g.limit ≤ g.unused

/-- Counts the next address of the chain. -/
def mark (g : GapLimit) (used : Bool) : GapLimit :=
  ⟨g.limit, if used then 0 else g.unused + 1⟩

@[simp] theorem limit_mark (g : GapLimit) (used : Bool) : (g.mark used).limit = g.limit := rfl

end GapLimit

/-- How far past the last used address a recovery keeps looking. -/
inductive RecoveryMode where
  | standard
  | extended
  | aggressive
  deriving DecidableEq, Repr

namespace RecoveryMode

instance : Inhabited RecoveryMode := ⟨standard⟩

def gapLimit : RecoveryMode → UInt32
  | standard => 20
  | extended => 100
  | aggressive => 200

def text : RecoveryMode → String
  | standard => "standard"
  | extended => "extended"
  | aggressive => "aggressive"

/-- Reads a mode; the case of ASCII letters does not matter. -/
def ofText (s : String) : Except RecoveryError RecoveryMode :=
  match [standard, extended, aggressive].find? (·.text == s.toLower) with
  | some mode => .ok mode
  | none => .error (.config (.unknownMode s.toLower))

end RecoveryMode

end FundRecovery
