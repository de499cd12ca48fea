import FundRecovery.Collaborator
import FundRecovery.Error
import FundRecovery.Hex

/-!
# A builder that keeps what it was given

* `Builder.build`, `Builder.sign`, `Builder.broadcast`: each keeps its arguments unless it is set
  to fail.
-/

namespace FundRecovery.Simulation

/-- A consolidation as it was to be built. -/
structure BuiltTransaction where
  inputs : List Utxo
  destination : String
  amount : Nat
  deriving DecidableEq, Repr

/-- A signature as it was asked for. -/
structure Signature where
  index : Nat
  key : List UInt8
  sigHash : SigHash
  deriving DecidableEq, Repr

structure Builder where
  built : Array BuiltTransaction
  signed : Array Signature
  broadcasts : Array RawTransaction
  failBuild : Bool
  failSignAt : Option Nat
  failBroadcast : Bool
  deriving Repr

namespace Builder

def new : Builder := ⟨#[], #[], #[], false, none, false⟩

/-- The transaction is the text of the number of its inputs, its destination and its amount. -/
def build (b : Builder) (inputs : List Utxo) (destination : String) (amount : Nat) :
    Except TxError RawTransaction × Builder :=
  if b.failBuild then (.error (.build "mock build failure"), b)
  else
    (.ok ⟨(toString inputs.length ++ ":" ++ destination ++ ":" ++
        toString amount).toUTF8.toList⟩,
      { b with built := b.built.push ⟨inputs, destination, amount⟩ })

/-- A signature adds the byte of its flag. -/
def sign (b : Builder) (tx : RawTransaction) (index : Nat) (key : List UInt8) (sigHash : SigHash) :
    Except TxError RawTransaction × Builder :=
  if b.failSignAt = some index then (.error (.sign index "mock signing failure"), b)
  else
    (.ok ⟨tx.bytes ++ [sigHash.flag.toUInt8]⟩,
      { b with signed := b.signed.push ⟨index, key, sigHash⟩ })

/-- The id of a transaction is its number among those that were broadcast. -/
def broadcast (b : Builder) (tx : RawTransaction) : Except TxError String × Builder :=
  if b.failBroadcast then (.error (.broadcast "mock broadcast rejected"), b)
  else
    (.ok (Hex.padded 64 (b.broadcasts.size + 1)),
      { b with broadcasts := b.broadcasts.push tx })

end Builder

end FundRecovery.Simulation
