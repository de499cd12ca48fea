import FundRecovery.Json.MigrationForms
import FundRecovery.Json.ScanForms
import FundRecovery.Proofs.Json.Documents

/-!
# Forms read back

Each record is written as an object with a member per field, and reads from what was written: the
names it is written under are the names it reads, and each field reads in the range it can have.

* `Record.ofJson?_ofMembers`: an object reads as its members, if no name repeats.
* `InRange`: amounts and counts of a value fit in 64 bits, for each type that has any.
* `Form`: how a type is written and read, with what reads back from it.
* `Form.roundTripsBy`: the texts of a form read back through any printer and reader that agree, so
  that no text is that of two values; `forms_round_trip`: through those of this project.
-/

namespace FundRecovery

open Json

/-! ## Fields -/

namespace Json

attribute [simp] Writable.null Writable.bool Writable.natural Writable.text

@[simp] theorem writable_ofUInt32 (n : UInt32) : Writable (ofUInt32 n) := .natural n.toNat

@[simp] theorem writable_ofList {α : Type} {item : α → Json} {items : List α}
    (h : ∀ a ∈ items, Writable (item a)) : Writable (ofList item items) := by
  refine .list fun v hv => ?_
  obtain ⟨a, ha, rfl⟩ := List.mem_map.mp hv
  exact h a ha

@[simp] theorem writable_ofOption {α : Type} {item : α → Json} (o : Option α)
    (h : ∀ a, Writable (item a)) : Writable (ofOption item o) := by
  cases o with
  | none => exact .null
  | some a => exact h a

@[simp] theorem text?_text (s : String) : text? (text s) = some s := rfl

@[simp] theorem bool?_bool (b : Bool) : bool? (bool b) = some b := rfl

@[simp] theorem amount?_natural {n : Nat} (h : n < UInt64.size) : amount? (natural n) = some n :=
  if_pos h

@[simp] theorem uint32?_ofUInt32 (n : UInt32) : uint32? (ofUInt32 n) = some n := by
  rw [uint32?, ofUInt32, natural?, if_pos n.toNat_lt_size, Option.map_some, UInt32.ofNat_toNat]

@[simp] theorem list?_ofList {α : Type} {item : α → Json} {item? : Json → Option α}
    {items : List α} (h : ∀ a ∈ items, item? (item a) = some a) :
    list? item? (ofList item items) = some items := by
  rw [ofList, list?]
  induction items with
  | nil => rfl
  | cons a rest ih =>
    obtain ⟨ha, hrest⟩ := List.forall_mem_cons.mp h
    rw [List.map_cons, List.mapM_cons, ha, ih hrest]
    rfl

@[simp] theorem list?_ofList_text (items : List String) :
    list? text? (ofList text items) = some items := list?_ofList fun _ _ => rfl

/-- A text is not written as `null`. -/
@[simp] theorem optional?_ofOption_text (o : Option String) :
    optional? text? (ofOption text o) = some o := by
  cases o <;> rfl

end Json

/-! ## Records -/

namespace Record

variable {names : List String} {members : List (String × Json)}

theorem ofMembers?_ofMembers (hnames : members.map (·.1) = names) (hn : names.Nodup) :
    ofMembers? names (members.map fun m => (some m.1, m.2)) = some members := by
  have hkeyed : (members.map fun m => (some m.1, m.2)).mapM
      (fun m : Option String × Json => m.1.map fun key => (key, m.2)) = some members := by
    clear hnames
    induction members with
    | nil => rfl
    | cons m rest ih => rw [List.map_cons, List.mapM_cons, ih]; rfl
  have hknown : members.filter (·.1 ∈ names) = members := by
    refine List.filter_eq_self.mpr fun m hm => decide_eq_true ?_
    rw [← hnames]
    exact List.mem_map_of_mem hm
  rw [ofMembers?, hkeyed]
  dsimp only [Option.bind_eq_bind, Option.bind_some]
  rw [hknown, hnames, firstRepeat?_eq_none_iff.mpr hn]
  rfl

/-- An object reads as its members. -/
theorem ofJson?_ofMembers (hnames : members.map (·.1) = names) (hn : names.Nodup) :
    ofJson? names (ofMembers members) = some members := ofMembers?_ofMembers hnames hn

theorem ofPartial?_ofMembers (hnames : members.map (·.1) = names) (hn : names.Nodup) :
    ofPartial? names (ofMembers members) = some members := ofMembers?_ofMembers hnames hn

theorem ofExact?_ofMembers (hnames : members.map (·.1) = names) (hn : names.Nodup) :
    ofExact? names (ofMembers members) = some members := by
  have hnamed : (members.map fun m => (some m.1, m.2)).all
      (fun m : Option String × Json => m.1.any (· ∈ names)) = true := by
    simp only [List.all_eq_true, List.mem_map]
    rintro _ ⟨m, hm, rfl⟩
    rw [Option.any_some, decide_eq_true_eq, ← hnames]
    exact List.mem_map_of_mem hm
  exact (if_pos hnamed).trans (ofMembers?_ofMembers hnames hn)

theorem lookup_cons (key name : String) (v : Json) (rest : Record) :
    List.lookup name ((key, v) :: rest) = if name = key then some v else rest.lookup name := by
  by_cases h : name = key
  · rw [if_pos h, h, List.lookup_cons_self]
  · rw [if_neg h, List.lookup_cons, beq_false_of_ne h]

end Record

/-! ## Forms of scans -/

namespace PathScheme

@[simp] theorem writable_toJson (s : PathScheme) : Writable s.toJson := .object (by simp)

@[simp] theorem ofJson?_toJson (s : PathScheme) : ofJson? s.toJson = some s := by
  rw [ofJson?, toJson, Record.ofJson?_ofMembers]
  · simp [Record.required?, Record.lookup_cons]
  · rfl
  · decide

end PathScheme

namespace ScanOptions

/-- Amounts and counts fit in 64 bits. -/
def InRange (o : ScanOptions) : Prop := o.maxConcurrent < UInt64.size

theorem writable_toJson (o : ScanOptions) : Writable o.toJson := .object (by simp)

/-- The observer is not written. -/
theorem ofJson?_toJson {o : ScanOptions} (h : o.InRange) :
    ofJson? o.toJson = some { o with observed := false } := by
  rw [ofJson?, toJson, Record.ofPartial?_ofMembers]
  · simp [Record.withDefault?, Record.lookup_cons, amount?_natural h]
  · rfl
  · decide

end ScanOptions

namespace ScanPhase

@[simp] theorem writable_toJson (p : ScanPhase) : Writable p.toJson := .text p.name

@[simp] theorem ofJson?_toJson (p : ScanPhase) : ofJson? p.toJson = some p := by
  cases p <;> decide

end ScanPhase

namespace ScanProgress

structure InRange (p : ScanProgress) : Prop where
  addressesScanned : p.addressesScanned < UInt64.size
  utxosFound : p.utxosFound < UInt64.size
  balanceFound : p.balanceFound < UInt64.size

theorem writable_toJson (p : ScanProgress) : Writable p.toJson := .object (by simp)

theorem ofJson?_toJson {p : ScanProgress} (h : p.InRange) : ofJson? p.toJson = some p := by
  rw [ofJson?, toJson, Record.ofJson?_ofMembers]
  · simp [Record.required?, Record.lookup_cons, h.addressesScanned, h.utxosFound, h.balanceFound]
  · rfl
  · decide

end ScanProgress

namespace RecoveryMode

theorem writable_toJson (m : RecoveryMode) : Writable m.toJson := .text m.name

theorem ofJson?_toJson (m : RecoveryMode) : ofJson? m.toJson = some m := by
  cases m <;> decide

end RecoveryMode

namespace Utxo

def InRange (u : Utxo) : Prop := u.amount < UInt64.size

theorem writable_toJson (u : Utxo) : Writable u.toJson := .object (by simp)

theorem ofJson?_toJson {u : Utxo} (h : u.InRange) : ofJson? u.toJson = some u := by
  rw [ofJson?, toJson, Record.ofJson?_ofMembers]
  · simp [Record.required?, Record.lookup_cons, amount?_natural h]
  · rfl
  · decide

end Utxo

namespace DiscoveredAddress

structure InRange (a : DiscoveredAddress) : Prop where
  balance : a.balance < UInt64.size
  utxoCount : a.utxoCount < UInt64.size

@[simp] theorem writable_toJson (a : DiscoveredAddress) : Writable a.toJson := .object (by simp)

theorem ofJson?_toJson {a : DiscoveredAddress} (h : a.InRange) : ofJson? a.toJson = some a := by
  rw [ofJson?, toJson, Record.ofJson?_ofMembers]
  · simp [Record.required?, Record.lookup_cons, h.balance, h.utxoCount]
  · rfl
  · decide

end DiscoveredAddress

namespace ScanFailure

@[simp] theorem writable_toJson (f : ScanFailure) : Writable f.toJson := .object (by simp)

@[simp] theorem ofJson?_toJson (f : ScanFailure) : ofJson? f.toJson = some f := by
  rw [ofJson?, toJson, Record.ofJson?_ofMembers]
  · simp [Record.required?, Record.optional?, Record.lookup_cons]
  · rfl
  · decide

end ScanFailure

namespace Duration

def InRange (d : Duration) : Prop := d.secs < UInt64.size

@[simp] theorem writable_toJson (d : Duration) : Writable d.toJson := .object (by simp)

/-- The nanoseconds of a duration are less than a second: nothing carries over. -/
theorem ofJson?_toJson {d : Duration} (h : d.InRange) : ofJson? d.toJson = some d := by
  have hnanos : natural? UInt32.size (natural d.nanos) = some d.nanos :=
    if_pos (Nat.lt_trans d.nanos_lt (by decide))
  have hcarry : d.nanos / 1000000000 = 0 := Nat.div_eq_of_lt d.nanos_lt
  have hrest : d.nanos % 1000000000 = d.nanos := Nat.mod_eq_of_lt d.nanos_lt
  have hsecs : d.secs < UInt64.size := h
  rw [ofJson?, toJson, Record.ofExact?_ofMembers]
  · simp [Record.required?, Record.lookup_cons, hsecs, hnanos, hcarry, hrest]
  · rfl
  · decide

end Duration

namespace NameMap

variable {α : Type} {item : α → Json} {item? : Json → Option α}

@[simp] theorem writable_toJson (m : NameMap α) (h : ∀ a, Writable (item a)) :
    Writable (m.toJson item) := by
  refine .object fun e he => ?_
  obtain ⟨entry, -, rfl⟩ := List.mem_map.mp he
  exact h entry.2

theorem ofJson?_toJson {m : NameMap α} (h : ∀ e ∈ m.entries, item? (item e.2) = some e.2) :
    ofJson? item? (m.toJson item) = some m := by
  have hread : ∀ entries : List (String × α), (∀ e ∈ entries, item? (item e.2) = some e.2) →
      ((entries.map fun e => (e.1, item e.2)).map fun m => (some m.1, m.2)).mapM
        (fun m : Option String × Json => do
          let key ← m.1
          let value ← item? m.2
          return (key, value)) = some entries := by
    intro entries hentries
    induction entries with
    | nil => rfl
    | cons e rest ih =>
      obtain ⟨he, hrest⟩ := List.forall_mem_cons.mp hentries
      rw [List.map_cons, List.map_cons, List.mapM_cons, ih hrest]
      dsimp only [Option.bind_eq_bind, Option.bind_some]
      rw [he]
      rfl
  rw [toJson, Json.ofMembers, ofJson?, hread m.entries h]
  exact congrArg some (ofList_entries m)

end NameMap

namespace ScanResult

structure InRange (r : ScanResult) : Prop where
  found : ∀ e ∈ r.foundAddresses.entries, ∀ a ∈ e.2, a.InRange
  totalBalance : r.totalBalance < UInt64.size
  totalUtxos : r.totalUtxos < UInt64.size
  addressesScanned : r.addressesScanned < UInt64.size
  duration : r.duration.InRange

theorem writable_toJson (r : ScanResult) : Writable r.toJson := .object (by simp)

theorem ofJson?_toJson {r : ScanResult} (h : r.InRange) : ofJson? r.toJson = some r := by
  have hfound : NameMap.ofJson? (list? DiscoveredAddress.ofJson?)
      (r.foundAddresses.toJson (ofList DiscoveredAddress.toJson)) = some r.foundAddresses :=
    NameMap.ofJson?_toJson fun e he => list?_ofList fun a ha =>
      DiscoveredAddress.ofJson?_toJson (h.found e he a ha)
  rw [ofJson?, toJson, Record.ofJson?_ofMembers]
  · simp [Record.required?, Record.lookup_cons, hfound, h.totalBalance, h.totalUtxos,
      h.addressesScanned, Duration.ofJson?_toJson h.duration]
  · rfl
  · decide

end ScanResult

/-! ## Forms of migrations -/

namespace FeeRate

def InRange (r : FeeRate) : Prop := r.satPerKb < UInt64.size

@[simp] theorem writable_toJson (r : FeeRate) : Writable r.toJson := .object (by simp)

theorem ofJson?_toJson {r : FeeRate} (h : r.InRange) : ofJson? r.toJson = some r := by
  rw [ofJson?, toJson, Record.ofJson?_ofMembers]
  · simp [Record.required?, amount?_natural h]
  · rfl
  · decide

end FeeRate

namespace MigrationSource

structure InRange (s : MigrationSource) : Prop where
  balance : s.balance < UInt64.size
  utxoCount : s.utxoCount < UInt64.size

@[simp] theorem writable_toJson (s : MigrationSource) : Writable s.toJson := .object (by simp)

theorem ofJson?_toJson {s : MigrationSource} (h : s.InRange) : ofJson? s.toJson = some s := by
  rw [ofJson?, toJson, Record.ofJson?_ofMembers]
  · simp [Record.required?, Record.lookup_cons, h.balance, h.utxoCount]
  · rfl
  · decide

end MigrationSource

namespace MigrationPlan

structure InRange (p : MigrationPlan) : Prop where
  sources : ∀ s ∈ p.sources, s.InRange
  totalInput : p.totalInput < UInt64.size
  estimatedFee : p.estimatedFee < UInt64.size
  netAmount : p.netAmount < UInt64.size
  feeRate : p.feeRate.InRange
  estimatedSize : p.estimatedSize < UInt64.size
  totalUtxos : p.totalUtxos < UInt64.size

theorem writable_toJson (p : MigrationPlan) : Writable p.toJson := .object (by simp)

theorem ofJson?_toJson {p : MigrationPlan} (h : p.InRange) : ofJson? p.toJson = some p := by
  have hsources : list? MigrationSource.ofJson? (ofList MigrationSource.toJson p.sources) =
      some p.sources := list?_ofList fun s hs => MigrationSource.ofJson?_toJson (h.sources s hs)
  rw [ofJson?, toJson, Record.ofJson?_ofMembers]
  · simp [Record.required?, Record.optional?, Record.lookup_cons, hsources, h.totalInput,
      h.estimatedFee, h.netAmount, FeeRate.ofJson?_toJson h.feeRate, h.estimatedSize, h.totalUtxos]
  · rfl
  · decide

end MigrationPlan

namespace MigrationResult

structure InRange (r : MigrationResult) : Prop where
  totalMigrated : r.totalMigrated < UInt64.size
  fee : r.fee < UInt64.size
  inputCount : r.inputCount < UInt64.size

theorem writable_toJson (r : MigrationResult) : Writable r.toJson := .object (by simp)

theorem ofJson?_toJson {r : MigrationResult} (h : r.InRange) : ofJson? r.toJson = some r := by
  rw [ofJson?, toJson, Record.ofJson?_ofMembers]
  · simp [Record.required?, Record.lookup_cons, h.totalMigrated, h.fee, h.inputCount]
  · rfl
  · decide

end MigrationResult

/-! ## All forms -/

/-- How the values of a type are written and read. What is kept of a value in range reads back. -/
structure Form (α : Type) where
  toJson : α → Json
  ofJson? : Json → Option α
  InRange : α → Prop
  kept : α → α
  writable : ∀ a, Writable (toJson a)
  reads : ∀ {a}, InRange a → ofJson? (toJson a) = some (kept a)

/-- The text of a value reads as what is kept of it, and is the text of no value of which something
else is kept. -/
structure RoundTripsBy {α : Type} (print : Json → String) (read? : String → Option Json)
    (toJson : α → Json) (ofJson? : Json → Option α) (InRange : α → Prop) (kept : α → α) :
    Prop where
  reads : ∀ a, InRange a → (read? (print (toJson a))).bind ofJson? = some (kept a)
  injective : ∀ a b, InRange a → InRange b → print (toJson a) = print (toJson b) → kept a = kept b

/-- The form round-trips through the texts of this project. -/
abbrev RoundTrips {α : Type} (toJson : α → Json) (ofJson? : Json → Option α)
    (InRange : α → Prop) (kept : α → α) : Prop :=
  RoundTripsBy render parse? toJson ofJson? InRange kept

/-- A form round-trips through the texts of any library that reads what it prints: of the texts
themselves nothing else is assumed. -/
theorem Form.roundTripsBy {α : Type} (form : Form α) {print : Json → String}
    {read? : String → Option Json} (hread : ∀ v, Writable v → read? (print v) = some v) :
    RoundTripsBy print read? form.toJson form.ofJson? form.InRange form.kept := by
  have hreads (a : α) (ha : form.InRange a) :
      (read? (print (form.toJson a))).bind form.ofJson? = some (form.kept a) := by
    rw [hread _ (form.writable a), Option.bind_some, form.reads ha]
  refine ⟨hreads, fun a b ha hb htext => Option.some.inj ?_⟩
  rw [← hreads a ha, ← hreads b hb, htext]

theorem Form.roundTrips {α : Type} (form : Form α) :
    RoundTrips form.toJson form.ofJson? form.InRange form.kept :=
  form.roundTripsBy fun _ => parse?_render

def PathScheme.form : Form PathScheme :=
  ⟨toJson, ofJson?, fun _ => True, id, writable_toJson, fun _ => ofJson?_toJson _⟩

def Utxo.form : Form Utxo := ⟨toJson, ofJson?, InRange, id, writable_toJson, ofJson?_toJson⟩

def DiscoveredAddress.form : Form DiscoveredAddress :=
  ⟨toJson, ofJson?, InRange, id, writable_toJson, ofJson?_toJson⟩

def ScanFailure.form : Form ScanFailure :=
  ⟨toJson, ofJson?, fun _ => True, id, writable_toJson, fun _ => ofJson?_toJson _⟩

def ScanResult.form : Form ScanResult :=
  ⟨toJson, ofJson?, InRange, id, writable_toJson, ofJson?_toJson⟩

def ScanPhase.form : Form ScanPhase :=
  ⟨toJson, ofJson?, fun _ => True, id, writable_toJson, fun _ => ofJson?_toJson _⟩

def ScanProgress.form : Form ScanProgress :=
  ⟨toJson, ofJson?, InRange, id, writable_toJson, ofJson?_toJson⟩

def RecoveryMode.form : Form RecoveryMode :=
  ⟨toJson, ofJson?, fun _ => True, id, writable_toJson, fun _ => ofJson?_toJson _⟩

def FeeRate.form : Form FeeRate :=
  ⟨toJson, ofJson?, InRange, id, writable_toJson, ofJson?_toJson⟩

def MigrationSource.form : Form MigrationSource :=
  ⟨toJson, ofJson?, InRange, id, writable_toJson, ofJson?_toJson⟩

def MigrationPlan.form : Form MigrationPlan :=
  ⟨toJson, ofJson?, InRange, id, writable_toJson, ofJson?_toJson⟩

def MigrationResult.form : Form MigrationResult :=
  ⟨toJson, ofJson?, InRange, id, writable_toJson, ofJson?_toJson⟩

/-- The observer is not written. -/
def ScanOptions.form : Form ScanOptions :=
  ⟨toJson, ofJson?, InRange, fun o => { o with observed := false }, writable_toJson, ofJson?_toJson⟩

/-- **Every form reads back from its text.** Texts may hold any characters, amounts and counts are
any of 64 bits. Only the observer of options is not kept. -/
theorem forms_round_trip :
    RoundTrips PathScheme.toJson PathScheme.ofJson? (fun _ => True) id ∧
    RoundTrips Utxo.toJson Utxo.ofJson? Utxo.InRange id ∧
    RoundTrips DiscoveredAddress.toJson DiscoveredAddress.ofJson? DiscoveredAddress.InRange id ∧
    RoundTrips ScanFailure.toJson ScanFailure.ofJson? (fun _ => True) id ∧
    RoundTrips ScanResult.toJson ScanResult.ofJson? ScanResult.InRange id ∧
    RoundTrips ScanPhase.toJson ScanPhase.ofJson? (fun _ => True) id ∧
    RoundTrips ScanProgress.toJson ScanProgress.ofJson? ScanProgress.InRange id ∧
    RoundTrips RecoveryMode.toJson RecoveryMode.ofJson? (fun _ => True) id ∧
    RoundTrips FeeRate.toJson FeeRate.ofJson? FeeRate.InRange id ∧
    RoundTrips MigrationSource.toJson MigrationSource.ofJson? MigrationSource.InRange id ∧
    RoundTrips MigrationPlan.toJson MigrationPlan.ofJson? MigrationPlan.InRange id ∧
    RoundTrips MigrationResult.toJson MigrationResult.ofJson? MigrationResult.InRange id ∧
    RoundTrips ScanOptions.toJson ScanOptions.ofJson? ScanOptions.InRange
      fun o => { o with observed := false } :=
  ⟨PathScheme.form.roundTrips, Utxo.form.roundTrips, DiscoveredAddress.form.roundTrips,
    ScanFailure.form.roundTrips, ScanResult.form.roundTrips, ScanPhase.form.roundTrips,
    ScanProgress.form.roundTrips, RecoveryMode.form.roundTrips, FeeRate.form.roundTrips,
    MigrationSource.form.roundTrips, MigrationPlan.form.roundTrips, MigrationResult.form.roundTrips,
    ScanOptions.form.roundTrips⟩

/-- An output with the largest amount and a text that needs every kind of escape. -/
theorem forms_round_trip_escapes :
    ∃ u : Utxo, u.amount + 1 = UInt64.size ∧
      u.toJson.render = "\x7b\"txid\":\"\\\"\\\\\\n\\u001fé😀\",\"vout\":4294967295," ++
        "\"amount\":18446744073709551615,\"address\":\"\",\"confirmations\":0\x7d" ∧
      (parse? u.toJson.render).bind Utxo.ofJson? = some u := by
  let u : Utxo := ⟨"\"\\\n\x1fé😀", 4294967295, 18446744073709551615, "", 0⟩
  obtain ⟨-, hutxo, -⟩ := forms_round_trip
  have hrange : u.InRange := (by decide : u.amount < UInt64.size)
  exact ⟨u, by decide, by decide +kernel, hutxo.reads u hrange⟩

end FundRecovery
