/-!
# JSON values

* `Json`: a value as its text gives it. Members of an object keep their order and may repeat a key.
* `Json.natural?`, `Json.bool?`, `Json.text?`, `Json.list?`: readings of one value.
-/

namespace FundRecovery

/-- A JSON value. A text or key with an unpaired surrogate stands for no text. -/
inductive Json where
  | null
  | bool (b : Bool)
  /-- A number written without sign, fraction and exponent. -/
  | natural (n : Nat)
  /-- Any other number, as it was written. -/
  | otherNumber (literal : String)
  | text (s : String)
  | brokenText
  | list (items : List Json)
  | object (members : List (Option String × Json))
  deriving Repr

namespace Json

def bool? : Json → Option Bool
  | bool b => some b
  | _ => none

/-- A number from zero up to, but without, `bound`. -/
def natural? (bound : Nat) : Json → Option Nat
  | natural n => if n < bound then some n else none
  | _ => none

/-- A 32-bit number. -/
def uint32? (v : Json) : Option UInt32 := (v.natural? UInt32.size).map UInt32.ofNat

/-- An amount or a count of 64 bits. -/
def amount? (v : Json) : Option Nat := v.natural? UInt64.size

def text? : Json → Option String
  | text s => some s
  | _ => none

/-- A list whose items all read. -/
def list? {α : Type} (item? : Json → Option α) : Json → Option (List α)
  | list items => items.mapM item?
  | _ => none

/-- `null` for an absent value. -/
def optional? {α : Type} (item? : Json → Option α) : Json → Option (Option α)
  | null => some none
  | v => (item? v).map some

def ofUInt32 (n : UInt32) : Json := natural n.toNat

def ofList {α : Type} (item : α → Json) (items : List α) : Json := list (items.map item)

def ofOption {α : Type} (item : α → Json) : Option α → Json
  | none => null
  | some a => item a

/-- An object with these members. -/
def ofMembers (members : List (String × Json)) : Json :=
  object (members.map fun m => (some m.1, m.2))

end Json

end FundRecovery
