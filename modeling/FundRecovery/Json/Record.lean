import FundRecovery.FirstOccurrence
import FundRecovery.Json.Value

/-!
# Records in JSON

A record reads from an object, by field name, and from a list, by field position. An object may
hold members that no field is named for; they are skipped, whatever their values. A field may occur
once.

* `Record.ofJson?`: a record that a list gives in full.
* `Record.ofPartial?`: a record that a list may leave off after any field.
* `variant?`: a name out of a fixed set, alone or as the key of `null`.
-/

namespace FundRecovery

/-- The fields of a record that were given, no name twice. -/
abbrev Record := List (String × Json)

namespace Record

/-- The members with a name out of `names`, unless a key is no text or one of them repeats. -/
def ofMembers? (names : List String) (members : List (Option String × Json)) : Option Record := do
  let keyed ← members.mapM fun m => m.1.map fun key => (key, m.2)
  let known := keyed.filter (·.1 ∈ names)
  if (firstRepeat? [] (known.map (·.1))).isNone then some known else none

def ofJson? (names : List String) : Json → Option Record
  | .object members => ofMembers? names members
  | .list items => if items.length = names.length then some (names.zip items) else none
  | _ => none

def ofPartial? (names : List String) : Json → Option Record
  | .object members => ofMembers? names members
  | .list items => if items.length ≤ names.length then some (names.zip items) else none
  | _ => none

/-- The object whose members are all named for a field. -/
def ofExact? (names : List String) : Json → Option Record
  | .object members =>
    if members.all fun m => m.1.any (· ∈ names) then ofMembers? names members else none
  | v => ofJson? names v

/-- A field that has to be there. -/
def required? {α : Type} (r : Record) (name : String) (read? : Json → Option α) : Option α := do
  read? (← r.lookup name)

/-- A field that counts as `null` when it is missing. -/
def optional? {α : Type} (r : Record) (name : String) (read? : Json → Option α) :
    Option (Option α) :=
  match r.lookup name with
  | none => some none
  | some v => v.optional? read?

/-- A field that has the value `missing` when it is not there. -/
def withDefault? {α : Type} (r : Record) (name : String) (missing : α) (read? : Json → Option α) :
    Option α :=
  match r.lookup name with
  | none => some missing
  | some v => read? v

end Record

namespace Json

/-- One name out of `names`. -/
def variant? (names : List String) (v : Json) : Option String :=
  match v with
  | text name => if name ∈ names then some name else none
  | object [(some name, null)] => if name ∈ names then some name else none
  | _ => none

end Json

end FundRecovery
