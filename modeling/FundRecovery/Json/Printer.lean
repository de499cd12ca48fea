import FundRecovery.Hex
import FundRecovery.Json.Value

/-!
# Writing JSON

Stands for the printer of the JSON library, in its compact style.

* `Json.render`: a value as text without blanks.
-/

namespace FundRecovery

namespace Json

/-- One character inside a JSON string. -/
def escapedChar (c : Char) : List Char :=
  if c = '"' then ['\\', '"']
  else if c = '\\' then ['\\', '\\']
  else if c = '\x08' then ['\\', 'b']
  else if c = '\t' then ['\\', 't']
  else if c = '\n' then ['\\', 'n']
  else if c = '\x0c' then ['\\', 'f']
  else if c = '\r' then ['\\', 'r']
  else if c.toNat < 0x20 then '\\' :: 'u' :: (Hex.padded 4 c.toNat).toList
  else [c]

def renderText (s : String) : String :=
  String.ofList ('"' :: (s.toList.flatMap escapedChar ++ ['"']))

/-- A text with an unpaired surrogate is written with one. -/
def renderBroken : String := "\"\\ud800\""

mutual

def render : Json → String
  | null => "null"
  | bool b => if b then "true" else "false"
  | natural n => toString n
  | otherNumber literal => literal
  | text s => renderText s
  | brokenText => renderBroken
  | list items => "[" ++ renderItems items ++ "]"
  | object members => "\x7b" ++ renderMembers members ++ "\x7d"

def renderItems : List Json → String
  | [] => ""
  | [v] => v.render
  | v :: rest => v.render ++ "," ++ renderItems rest

def renderMembers : List (Option String × Json) → String
  | [] => ""
  | [m] => renderMember m
  | m :: rest => renderMember m ++ "," ++ renderMembers rest

def renderMember : Option String × Json → String
  | (key, v) => key.elim renderBroken renderText ++ ":" ++ v.render

end

end Json

end FundRecovery
