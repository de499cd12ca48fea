import FundRecovery.Collaborator
import FundRecovery.Migration.Plan
import FundRecovery.Program

/-!
# Carrying out a migration

* `Migration.execute`: lists what the sources of a plan hold now, builds one transaction that
  spends all of it, signs every input and broadcasts. Whatever fails ends it before the broadcast.
* `Migration.Inputs`: each output to spend is tagged with the position of its source.
* `Migration.validate`: the sources still hold what the plan recorded.
-/

namespace FundRecovery.Migration

/-- A call of the chain client, the key deriver or the transaction builder. -/
inductive Call where
  | validateAddress (address : String)
  | listUtxos (address : String)
  | derivePrivateKey (seed : Seed) (path : String)
  | build (inputs : List Utxo) (destination : String) (amount : Nat)
  | sign (tx : RawTransaction) (index : Nat) (key : List UInt8) (sigHash : SigHash)
  | broadcast (tx : RawTransaction)
  deriving DecidableEq, Repr

/-- The kind of answer that a call has. -/
@[reducible]
def Call.Answer : Call → Type
  | validateAddress _ => Except ChainError AddressValidation
  | listUtxos _ => Except ChainError (List Utxo)
  | derivePrivateKey .. => Except DerivationError (List UInt8)
  | build .. => Except TxError RawTransaction
  | sign .. => Except TxError RawTransaction
  | broadcast _ => Except TxError String

abbrev interface : Interface := ⟨Call, Call.Answer⟩

/-- A program of migration, which an error ends. -/
abbrev Migrate (α : Type) : Type := ExceptT MigrationError (Program interface) α

def call (c : Call) : Program interface c.Answer := Program.request (I := interface) c

/-- What a call reports as its failure is the failure of the migration. -/
def orFail {ε α : Type} (wrap : ε → MigrationError) (p : Program interface (Except ε α)) :
    Migrate α :=
  ExceptT.mk do return (← p).mapError wrap

def validateAddress (address : String) : Migrate AddressValidation :=
  orFail .chain (call (.validateAddress address))

def listUtxos (address : String) : Migrate (List Utxo) :=
  orFail .chain (call (.listUtxos address))

def derivePrivateKey (seed : Seed) (path : String) : Migrate (List UInt8) :=
  orFail .derivation (call (.derivePrivateKey seed path))

def build (inputs : List Utxo) (destination : String) (amount : Nat) : Migrate RawTransaction :=
  orFail .transaction (call (.build inputs destination amount))

def sign (tx : RawTransaction) (index : Nat) (key : List UInt8) (sigHash : SigHash) :
    Migrate RawTransaction :=
  orFail .transaction (call (.sign tx index key sigHash))

def broadcast (tx : RawTransaction) : Migrate String := orFail .transaction (call (.broadcast tx))

/-- Outputs to spend. Beside each is the position, in the plan, of the source it was listed for. -/
structure Inputs (plan : MigrationPlan) where
  utxos : List Utxo
  positions : List (Fin plan.sources.length)
  length_positions : positions.length = utxos.length

namespace Inputs

variable {plan : MigrationPlan}

def none (plan : MigrationPlan) : Inputs plan := ⟨[], [], rfl⟩

/-- Adds what was listed for the source at `position`. -/
def add (inputs : Inputs plan) (position : Fin plan.sources.length) (utxos : List Utxo) :
    Inputs plan where
  utxos := inputs.utxos ++ utxos
  positions := inputs.positions ++ List.replicate utxos.length position
  length_positions := by simp [inputs.length_positions]

end Inputs

/-- Adds to `inputs` what the sources at `positions` hold now, listing one after the other. A source
whose address is among `listed` is passed over. -/
def listPositions (plan : MigrationPlan) (listed : List String) (inputs : Inputs plan) :
    List (Fin plan.sources.length) → Migrate (Inputs plan)
  | [] => return inputs
  | position :: rest =>
    let source := plan.sources.get position
    if source.address ∈ listed then listPositions plan listed inputs rest
    else do
      let utxos ← listUtxos source.address
      listPositions plan (source.address :: listed) (inputs.add position utxos) rest

/-- Signs inputs in order, the first of them number `index`, with the keys of the sources at
`positions`. Each key is derived when its input is signed. -/
def signPositions (seed : Seed) (sigHash : SigHash) (plan : MigrationPlan) (index : Nat)
    (tx : RawTransaction) : List (Fin plan.sources.length) → Migrate RawTransaction
  | [] => return tx
  | position :: rest => do
    let key ← derivePrivateKey seed (plan.sources.get position).path
    let tx ← sign tx index key sigHash
    signPositions seed sigHash plan (index + 1) tx rest

/-- The addresses of the sources at `positions`, each added unless it was the last one added. -/
def addressesAt (plan : MigrationPlan) (positions : List (Fin plan.sources.length)) :
    List String :=
  positions.foldl (fun addresses position =>
    let address := (plan.sources.get position).address
    if addresses.getLast? = some address then addresses else addresses ++ [address]) []

/-- Builds, signs and broadcasts the consolidation that a plan describes. -/
def execute (sigHash : SigHash) (seed : Seed) (plan : MigrationPlan) :
    Migrate MigrationResult := do
  if plan.sources.isEmpty then throw .emptyPlan
  if seed.isEmpty then throw .emptySeed
  if Text.allBlank plan.destination then throw .emptyDestination
  let validation ← validateAddress plan.destination
  if !validation.isValid then
    throw (.invalidDestination (validation.reason.getD plan.destination))
  let inputs ← listPositions plan [] (.none plan) (List.finRange plan.sources.length)
  if inputs.utxos.isEmpty then throw .noInputs
  let total := totalAmount inputs.utxos
  let fee := consolidationFee inputs.utxos.length plan.feeRate
  if total ≤ fee then throw (.dust fee total)
  let tx ← build inputs.utxos plan.destination (total - fee)
  let tx ← signPositions seed sigHash plan 0 tx inputs.positions
  let txid ← broadcast tx
  return {
    txid
    totalMigrated := total - fee
    fee
    inputCount := inputs.utxos.length
    sourceAddresses := addressesAt plan inputs.positions
    destination := plan.destination }

/-- The sources of a plan with each address once, where it occurs first. -/
def distinctSources (plan : MigrationPlan) : List MigrationSource :=
  firstOccurrences (·.address) plan.sources

/-- The sum of what sources hold now, unless one holds another amount than it recorded. -/
def liveTotal (total : Nat) : List MigrationSource → Migrate Nat
  | [] => return total
  | source :: rest => do
    let live := totalAmount (← listUtxos source.address)
    if live ≠ source.balance then
      throw (.stalePlan (.source source.address live source.balance))
    liveTotal (min (total + live) maxAmount) rest

/-- Every source still holds what the plan recorded, and the sources add up to its total. -/
def validate (plan : MigrationPlan) : Migrate Unit := do
  if plan.sources.isEmpty then throw .emptyPlan
  let live ← liveTotal 0 (distinctSources plan)
  if live ≠ plan.totalInput then throw (.stalePlan (.total live plan.totalInput))

end FundRecovery.Migration
