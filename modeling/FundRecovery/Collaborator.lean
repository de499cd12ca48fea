import FundRecovery.Error
import FundRecovery.Total

/-!
# What collaborators are given and answer

The values that key derivers, chain clients, bulk backends and transaction builders take and hand
over. Amounts are in satoshis.

* `Seed.ofHex`: a seed from hexadecimal text, blanks around it allowed. `Seed.redacted`: what
  diagnostics show of a seed, its length alone.
* `totalAmount`: what outputs add up to, in a word.
* `SigHash`: which parts of a transaction a signature covers.
-/

namespace FundRecovery

/-! ## Key derivers -/

/-- The bytes a wallet's keys derive from. -/
structure Seed where
  bytes : List UInt8
  deriving DecidableEq, Repr

namespace Seed

def ofHex (text : String) : Except RecoveryError Seed :=
  match Hex.decode (Text.trim text).toUTF8.toList with
  | .ok bytes => .ok ⟨bytes⟩
  | .error e => .error (.invalidSeed (.hex e))

def toHex (seed : Seed) : String := Hex.encode seed.bytes

def length (seed : Seed) : Nat := seed.bytes.length

def isEmpty (seed : Seed) : Bool := seed.bytes.isEmpty

/-- A seed never shows its bytes. -/
def redacted (seed : Seed) : String := "Seed([REDACTED; " ++ toString seed.length ++ "])"

end Seed

/-- An address with the path it was derived at. -/
structure DerivedAddress where
  address : String
  path : String
  deriving DecidableEq, Repr

/-! ## Chain clients and bulk backends -/

/-- An unspent output as a chain client reports it. -/
structure Utxo where
  txid : String
  vout : UInt32
  amount : Nat
  address : String
  confirmations : UInt32
  deriving DecidableEq, Repr

/-- The amounts of outputs, added up in a word. -/
def totalAmount (utxos : List Utxo) : Nat := wordTotal (·.amount) utxos

@[simp] theorem totalAmount_nil : totalAmount [] = 0 := rfl

/-- The outputs add up to what a word keeps of their worth. -/
theorem totalAmount_eq (utxos : List Utxo) :
    totalAmount utxos = inWord (totalOf (·.amount) utxos) := wordTotal_eq _ utxos

theorem totalAmount_of_le {utxos : List Utxo} (h : totalOf (·.amount) utxos ≤ maxAmount) :
    totalAmount utxos = totalOf (·.amount) utxos := wordTotal_of_le h

/-- Outputs that are added up list by list come to the same. -/
theorem totalAmount_flatMap {α : Type} (f : α → List Utxo) (items : List α) :
    totalAmount (items.flatMap f) = wordTotal (fun a => totalAmount (f a)) items := by
  rw [totalAmount_eq, totalOf_flatMap, ← wordTotal_eq, ← wordTotal_inWord]
  simp only [totalAmount_eq]

/-- What a chain client says of an address's form. -/
structure AddressValidation where
  isValid : Bool
  /-- Why the address is invalid, if the client says. -/
  reason : Option String
  deriving DecidableEq, Repr

/-- Whether an address ever appeared on chain. -/
structure AddressActivity where
  address : String
  hasActivity : Bool
  txCount : UInt32
  deriving DecidableEq, Repr

/-- The outputs that a bulk fetch reports for an address. -/
structure AddressUtxos where
  address : String
  utxos : List Utxo
  deriving DecidableEq, Repr

/-! ## Transaction builders -/

/-- A serialized transaction, handed from building to signing to broadcast. -/
structure RawTransaction where
  bytes : List UInt8
  deriving DecidableEq, Repr

/-- Which parts of a transaction a signature covers. -/
inductive SigHash where
  | all
  | none
  | single
  | allAnyoneCanPay
  deriving DecidableEq, Repr

namespace SigHash

/-- The flag as transactions encode it. -/
def flag : SigHash → UInt32
  | all => 0x01
  | none => 0x02
  | single => 0x03
  | allAnyoneCanPay => 0x81

end SigHash

end FundRecovery
