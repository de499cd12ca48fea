import FundRecovery.Collaborator
import FundRecovery.Discovery.Result
import FundRecovery.Json.Record
import FundRecovery.Options

/-!
# JSON forms of scans

How schemes, options, outputs, discoveries and results are written and read. Numbers are refused
outside the range of their field; a missing field is refused unless it is optional.

* `ScanOptions.ofJson?`: fields left out take their defaults, and no observer is ever read.
* `Duration.ofJson?`: nanoseconds beyond a second carry over, and no other member is allowed.
-/

namespace FundRecovery

open Json

namespace PathScheme

def toJson (s : PathScheme) : Json := ofMembers [
  ("name", .text s.name),
  ("coin_type", ofUInt32 s.coinType),
  ("purpose", ofUInt32 s.purpose),
  ("accounts", ofList ofUInt32 s.accounts),
  ("scan_change", .bool s.scanChange),
  ("is_legacy", .bool s.isLegacy),
  ("priority", ofUInt32 s.priority),
  ("description", .text s.description)]

def fields : List String :=
  ["name", "coin_type", "purpose", "accounts", "scan_change", "is_legacy", "priority",
    "description"]

def ofJson? (v : Json) : Option PathScheme := do
  let r ← Record.ofJson? fields v
  return {
    name := ← r.required? "name" text?
    coinType := ← r.required? "coin_type" uint32?
    purpose := ← r.required? "purpose" uint32?
    accounts := ← r.required? "accounts" (list? uint32?)
    scanChange := ← r.required? "scan_change" bool?
    isLegacy := ← r.required? "is_legacy" bool?
    priority := ← r.required? "priority" uint32?
    description := ← r.required? "description" text? }

end PathScheme

namespace ScanOptions

def toJson (o : ScanOptions) : Json := ofMembers [
  ("gap_limit", ofUInt32 o.gapLimit),
  ("extended_gap_limit", ofUInt32 o.extendedGapLimit),
  ("max_concurrent", .natural o.maxConcurrent),
  ("path_schemes", ofList PathScheme.toJson o.pathSchemes),
  ("scan_change_addresses", .bool o.scanChangeAddresses),
  ("passphrases", ofList .text o.passphrases),
  ("use_bulk_operations", .bool o.useBulkOperations)]

def fields : List String :=
  ["gap_limit", "extended_gap_limit", "max_concurrent", "path_schemes", "scan_change_addresses",
    "passphrases", "use_bulk_operations"]

def ofJson? (v : Json) : Option ScanOptions := do
  let r ← Record.ofPartial? fields v
  let o := ScanOptions.default
  return {
    gapLimit := ← r.withDefault? "gap_limit" o.gapLimit uint32?
    extendedGapLimit := ← r.withDefault? "extended_gap_limit" o.extendedGapLimit uint32?
    maxConcurrent := ← r.withDefault? "max_concurrent" o.maxConcurrent amount?
    pathSchemes := ← r.withDefault? "path_schemes" o.pathSchemes (list? PathScheme.ofJson?)
    scanChangeAddresses :=
      ← r.withDefault? "scan_change_addresses" o.scanChangeAddresses bool?
    passphrases := ← r.withDefault? "passphrases" o.passphrases (list? text?)
    useBulkOperations := ← r.withDefault? "use_bulk_operations" o.useBulkOperations bool?
    observed := false }

end ScanOptions

namespace ScanPhase

def name : ScanPhase → String
  | scanning => "Scanning"
  | found => "Found"
  | error => "Error"

def toJson (p : ScanPhase) : Json := .text p.name

def ofJson? (v : Json) : Option ScanPhase := do
  let phases := [scanning, found, error]
  let written ← v.variant? (phases.map name)
  phases.find? (·.name == written)

end ScanPhase

namespace ScanProgress

def toJson (p : ScanProgress) : Json := ofMembers [
  ("phase", p.phase.toJson),
  ("scheme_name", .text p.schemeName),
  ("addresses_scanned", .natural p.addressesScanned),
  ("utxos_found", .natural p.utxosFound),
  ("balance_found", .natural p.balanceFound),
  ("current_address", .text p.currentAddress),
  ("message", .text p.message)]

def fields : List String :=
  ["phase", "scheme_name", "addresses_scanned", "utxos_found", "balance_found", "current_address",
    "message"]

def ofJson? (v : Json) : Option ScanProgress := do
  let r ← Record.ofJson? fields v
  return {
    phase := ← r.required? "phase" ScanPhase.ofJson?
    schemeName := ← r.required? "scheme_name" text?
    addressesScanned := ← r.required? "addresses_scanned" amount?
    utxosFound := ← r.required? "utxos_found" amount?
    balanceFound := ← r.required? "balance_found" amount?
    currentAddress := ← r.required? "current_address" text?
    message := ← r.required? "message" text? }

end ScanProgress

namespace RecoveryMode

def name : RecoveryMode → String
  | standard => "Standard"
  | extended => "Extended"
  | aggressive => "Aggressive"

def toJson (m : RecoveryMode) : Json := .text m.name

def ofJson? (v : Json) : Option RecoveryMode := do
  let modes := [standard, extended, aggressive]
  let written ← v.variant? (modes.map name)
  modes.find? (·.name == written)

end RecoveryMode

namespace Utxo

def toJson (u : Utxo) : Json := ofMembers [
  ("txid", .text u.txid),
  ("vout", ofUInt32 u.vout),
  ("amount", .natural u.amount),
  ("address", .text u.address),
  ("confirmations", ofUInt32 u.confirmations)]

def fields : List String := ["txid", "vout", "amount", "address", "confirmations"]

def ofJson? (v : Json) : Option Utxo := do
  let r ← Record.ofJson? fields v
  return {
    txid := ← r.required? "txid" text?
    vout := ← r.required? "vout" uint32?
    amount := ← r.required? "amount" amount?
    address := ← r.required? "address" text?
    confirmations := ← r.required? "confirmations" uint32? }

end Utxo

namespace DiscoveredAddress

def toJson (a : DiscoveredAddress) : Json := ofMembers [
  ("address", .text a.address),
  ("path", .text a.path),
  ("scheme_name", .text a.schemeName),
  ("balance", .natural a.balance),
  ("utxo_count", .natural a.utxoCount),
  ("is_change", .bool a.isChange),
  ("index", ofUInt32 a.index),
  ("account", ofUInt32 a.account),
  ("coin_type", ofUInt32 a.coinType)]

def fields : List String :=
  ["address", "path", "scheme_name", "balance", "utxo_count", "is_change", "index", "account",
    "coin_type"]

def ofJson? (v : Json) : Option DiscoveredAddress := do
  let r ← Record.ofJson? fields v
  return {
    address := ← r.required? "address" text?
    path := ← r.required? "path" text?
    schemeName := ← r.required? "scheme_name" text?
    balance := ← r.required? "balance" amount?
    utxoCount := ← r.required? "utxo_count" amount?
    isChange := ← r.required? "is_change" bool?
    index := ← r.required? "index" uint32?
    account := ← r.required? "account" uint32?
    coinType := ← r.required? "coin_type" uint32? }

end DiscoveredAddress

namespace ScanFailure

def toJson (f : ScanFailure) : Json := ofMembers [
  ("scheme", ofOption .text f.scheme),
  ("message", .text f.message)]

def fields : List String := ["scheme", "message"]

def ofJson? (v : Json) : Option ScanFailure := do
  let r ← Record.ofJson? fields v
  return {
    scheme := ← r.optional? "scheme" text?
    message := ← r.required? "message" text? }

end ScanFailure

namespace Duration

def toJson (d : Duration) : Json := ofMembers [
  ("secs", .natural d.secs),
  ("nanos", .natural d.nanos)]

def fields : List String := ["secs", "nanos"]

/-- Whole seconds among the nanoseconds count as seconds, of which there are at most 64 bits. -/
def ofJson? (v : Json) : Option Duration := do
  let r ← Record.ofExact? fields v
  let secs ← r.required? "secs" amount?
  let nanos ← r.required? "nanos" (natural? UInt32.size)
  if secs + nanos / 1000000000 < UInt64.size then
    some ⟨secs + nanos / 1000000000, nanos % 1000000000, Nat.mod_lt _ (by decide)⟩
  else none

end Duration

namespace NameMap

variable {α : Type}

def toJson (item : α → Json) (m : NameMap α) : Json :=
  Json.ofMembers (m.entries.map fun e => (e.1, item e.2))

/-- Of several members with one key the last counts. -/
def ofJson? (item? : Json → Option α) : Json → Option (NameMap α)
  | .object members => do
    let entries ← members.mapM fun m => do
      let key ← m.1
      let value ← item? m.2
      return (key, value)
    return ofList entries
  | _ => none

end NameMap

namespace ScanResult

def toJson (r : ScanResult) : Json := ofMembers [
  ("found_addresses", r.foundAddresses.toJson (ofList DiscoveredAddress.toJson)),
  ("total_balance", .natural r.totalBalance),
  ("total_utxos", .natural r.totalUtxos),
  ("schemes_scanned", ofList .text r.schemesScanned),
  ("addresses_scanned", .natural r.addressesScanned),
  ("duration", r.duration.toJson),
  ("passphrase_used", .text r.passphraseUsed),
  ("errors", ofList ScanFailure.toJson r.errors),
  ("cancelled", .bool r.cancelled)]

def fields : List String :=
  ["found_addresses", "total_balance", "total_utxos", "schemes_scanned", "addresses_scanned",
    "duration", "passphrase_used", "errors", "cancelled"]

def ofJson? (v : Json) : Option ScanResult := do
  let r ← Record.ofJson? fields v
  return {
    foundAddresses :=
      ← r.required? "found_addresses" (NameMap.ofJson? (list? DiscoveredAddress.ofJson?))
    totalBalance := ← r.required? "total_balance" amount?
    totalUtxos := ← r.required? "total_utxos" amount?
    schemesScanned := ← r.required? "schemes_scanned" (list? text?)
    addressesScanned := ← r.required? "addresses_scanned" amount?
    duration := ← r.required? "duration" Duration.ofJson?
    passphraseUsed := ← r.required? "passphrase_used" text?
    errors := ← r.required? "errors" (list? ScanFailure.ofJson?)
    cancelled := ← r.required? "cancelled" bool? }

end ScanResult

end FundRecovery
