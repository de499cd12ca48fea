import FundRecovery.Json.Record
import FundRecovery.Migration.Plan

/-!
# JSON forms of migrations

How fee rates, plans and what became of them are written and read.
-/

namespace FundRecovery

open Json

namespace FeeRate

def toJson (r : FeeRate) : Json := ofMembers [("sat_per_kb", .natural r.satPerKb)]

def fields : List String := ["sat_per_kb"]

def ofJson? (v : Json) : Option FeeRate := do
  let r ← Record.ofJson? fields v
  return { satPerKb := ← r.required? "sat_per_kb" amount? }

end FeeRate

namespace MigrationSource

def toJson (s : MigrationSource) : Json := ofMembers [
  ("address", .text s.address),
  ("path", .text s.path),
  ("balance", .natural s.balance),
  ("utxo_count", .natural s.utxoCount)]

def fields : List String := ["address", "path", "balance", "utxo_count"]

def ofJson? (v : Json) : Option MigrationSource := do
  let r ← Record.ofJson? fields v
  return {
    address := ← r.required? "address" text?
    path := ← r.required? "path" text?
    balance := ← r.required? "balance" amount?
    utxoCount := ← r.required? "utxo_count" amount? }

end MigrationSource

namespace MigrationPlan

def toJson (p : MigrationPlan) : Json := ofMembers [
  ("sources", ofList MigrationSource.toJson p.sources),
  ("destination", .text p.destination),
  ("total_input", .natural p.totalInput),
  ("estimated_fee", .natural p.estimatedFee),
  ("net_amount", .natural p.netAmount),
  ("fee_rate", p.feeRate.toJson),
  ("estimated_size", .natural p.estimatedSize),
  ("total_utxos", .natural p.totalUtxos),
  ("warning", ofOption .text p.warning)]

def fields : List String :=
  ["sources", "destination", "total_input", "estimated_fee", "net_amount", "fee_rate",
    "estimated_size", "total_utxos", "warning"]

def ofJson? (v : Json) : Option MigrationPlan := do
  let r ← Record.ofJson? fields v
  return {
    sources := ← r.required? "sources" (list? MigrationSource.ofJson?)
    destination := ← r.required? "destination" text?
    totalInput := ← r.required? "total_input" amount?
    estimatedFee := ← r.required? "estimated_fee" amount?
    netAmount := ← r.required? "net_amount" amount?
    feeRate := ← r.required? "fee_rate" FeeRate.ofJson?
    estimatedSize := ← r.required? "estimated_size" amount?
    totalUtxos := ← r.required? "total_utxos" amount?
    warning := ← r.optional? "warning" text? }

end MigrationPlan

namespace MigrationResult

def toJson (r : MigrationResult) : Json := ofMembers [
  ("txid", .text r.txid),
  ("total_migrated", .natural r.totalMigrated),
  ("fee", .natural r.fee),
  ("input_count", .natural r.inputCount),
  ("source_addresses", ofList .text r.sourceAddresses),
  ("destination", .text r.destination)]

def fields : List String :=
  ["txid", "total_migrated", "fee", "input_count", "source_addresses", "destination"]

def ofJson? (v : Json) : Option MigrationResult := do
  let r ← Record.ofJson? fields v
  return {
    txid := ← r.required? "txid" text?
    totalMigrated := ← r.required? "total_migrated" amount?
    fee := ← r.required? "fee" amount?
    inputCount := ← r.required? "input_count" amount?
    sourceAddresses := ← r.required? "source_addresses" (list? text?)
    destination := ← r.required? "destination" text? }

end MigrationResult

end FundRecovery
