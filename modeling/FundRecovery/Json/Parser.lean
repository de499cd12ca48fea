import FundRecovery.Hex
import FundRecovery.Json.Value

/-!
# Reading JSON

This and `FundRecovery.Json.Printer` stand for the JSON library that records are written and read
with. A text is a value with blanks around it and nothing else. A numeral has no leading zero, a
string no raw control character, and a string may spell a surrogate by itself: it then stands for
no text, which matters only to who wants one.

* `Json.parse?`: the value of a text.
* `joinSurrogates`: what the code points of a string stand for.
-/

namespace FundRecovery

namespace Json

def isBlank (c : Char) : Bool := c = ' ' || c = '\t' || c = '\n' || c = '\r'

/-- The rest of a text after blanks. -/
def skipBlanks (cs : List Char) : List Char := cs.dropWhile isBlank

/-- The value of four hexadecimal digits. -/
def unit? (a b c d : Char) : Option Nat := do
  let a ← Hex.value? a.toNat
  let b ← Hex.value? b.toNat
  let c ← Hex.value? c.toNat
  let d ← Hex.value? d.toNat
  return ((a * 16 + b) * 16 + c) * 16 + d

/-- The code point that a single letter behind a backslash stands for. -/
def shortEscape? (c : Char) : Option Nat :=
  if c = '"' ∨ c = '\\' ∨ c = '/' then some c.toNat
  else if c = 'b' then some 0x08
  else if c = 'f' then some 0x0C
  else if c = 'n' then some 0x0A
  else if c = 'r' then some 0x0D
  else if c = 't' then some 0x09
  else none

/-- The code points up to the closing quote, surrogates among them, and the text after it. -/
def stringBody : List Char → Option (List Nat × List Char)
  | [] => none
  | '"' :: rest => some ([], rest)
  | '\\' :: 'u' :: a :: b :: c :: d :: rest => do
    let n ← unit? a b c d
    let (body, rest) ← stringBody rest
    return (n :: body, rest)
  | '\\' :: c :: rest => do
    let n ← shortEscape? c
    let (body, rest) ← stringBody rest
    return (n :: body, rest)
  | c :: rest =>
    if c.toNat < 0x20 then none
    else do
      let (body, rest) ← stringBody rest
      return (c.toNat :: body, rest)

def isLeading (n : Nat) : Bool := 0xD800 ≤ n && n ≤ 0xDBFF

def isTrailing (n : Nat) : Bool := 0xDC00 ≤ n && n ≤ 0xDFFF

/-- A leading and a trailing surrogate make one character; a surrogate by itself makes none. -/
def joinSurrogates : List Nat → Option (List Char)
  | [] => some []
  | [n] => if isLeading n || isTrailing n then none else some [Char.ofNat n]
  | n :: m :: rest =>
    if isTrailing n then none
    else if isLeading n then
      if isTrailing m then
        (joinSurrogates rest).map
          (Char.ofNat (0x10000 + (n - 0xD800) * 0x400 + (m - 0xDC00)) :: ·)
      else none
    else (joinSurrogates (m :: rest)).map (Char.ofNat n :: ·)

/-- The text that the code points stand for. -/
def bodyText? (body : List Nat) : Option String := (joinSurrogates body).map String.ofList

/-- The digits at the front of a text, and the text after them. -/
def digits (cs : List Char) : List Char × List Char := cs.span Char.isDigit

/-- The value of decimal digits. -/
def ofDigits (ds : List Char) : Nat := ds.foldl (fun n d => n * 10 + (d.toNat - 48)) 0

/-- The digits before the point: zero alone, or a numeral without leading zeros. -/
def whole? (cs : List Char) : Option (List Char × List Char) :=
  match digits cs with
  | ([], _) => none
  | (['0'], rest) => some (['0'], rest)
  | ('0' :: _, _) => none
  | (ds, rest) => some (ds, rest)

/-- A point and digits, if a point follows. -/
def fraction? : List Char → Option (List Char × List Char)
  | '.' :: rest =>
    match digits rest with
    | ([], _) => none
    | (ds, rest) => some ('.' :: ds, rest)
  | cs => some ([], cs)

/-- A letter, a sign if there is one, and digits, if the letter follows. -/
def exponent? : List Char → Option (List Char × List Char)
  | c :: rest =>
    if c = 'e' ∨ c = 'E' then
      let (sign, rest) := match rest with
        | '+' :: rest => (['+'], rest)
        | '-' :: rest => (['-'], rest)
        | rest => ([], rest)
      match digits rest with
      | ([], _) => none
      | (ds, rest) => some (c :: (sign ++ ds), rest)
    else some ([], c :: rest)
  | [] => some ([], [])

/-- A number, its sign in front already taken as `sign`. -/
def number? (sign : List Char) (cs : List Char) : Option (Json × List Char) := do
  let (ds, rest) ← whole? cs
  let (frac, rest) ← fraction? rest
  let (expo, rest) ← exponent? rest
  if sign.isEmpty && frac.isEmpty && expo.isEmpty then return (natural (ofDigits ds), rest)
  return (otherNumber (String.ofList (sign ++ ds ++ frac ++ expo)), rest)

mutual

/-- A value at the front of a text, blanks before it skipped. `fuel` bounds the depth of nesting
and the length of lists and objects. -/
def value? (fuel : Nat) (cs : List Char) : Option (Json × List Char) :=
  match fuel with
  | 0 => none
  | fuel + 1 =>
    match skipBlanks cs with
    | 'n' :: 'u' :: 'l' :: 'l' :: rest => some (null, rest)
    | 't' :: 'r' :: 'u' :: 'e' :: rest => some (bool true, rest)
    | 'f' :: 'a' :: 'l' :: 's' :: 'e' :: rest => some (bool false, rest)
    | '"' :: rest => do
      let (body, rest) ← stringBody rest
      return ((bodyText? body).elim brokenText text, rest)
    | '[' :: rest =>
      match skipBlanks rest with
      | ']' :: rest => some (list [], rest)
      | rest => do
        let (items, rest) ← items? fuel rest
        return (list items, rest)
    | '\x7b' :: rest =>
      match skipBlanks rest with
      | '\x7d' :: rest => some (object [], rest)
      | rest => do
        let (members, rest) ← members? fuel rest
        return (object members, rest)
    | '-' :: rest => number? ['-'] rest
    | rest => number? [] rest

/-- The items of a list up to its closing bracket; there is at least one. -/
def items? (fuel : Nat) (cs : List Char) : Option (List Json × List Char) :=
  match fuel with
  | 0 => none
  | fuel + 1 => do
    let (v, rest) ← value? fuel cs
    match skipBlanks rest with
    | ',' :: rest => do
      let (vs, rest) ← items? fuel rest
      return (v :: vs, rest)
    | ']' :: rest => some ([v], rest)
    | _ => none

/-- The members of an object up to its closing brace; there is at least one. -/
def members? (fuel : Nat) (cs : List Char) : Option (List (Option String × Json) × List Char) :=
  match fuel with
  | 0 => none
  | fuel + 1 =>
    match skipBlanks cs with
    | '"' :: rest => do
      let (body, rest) ← stringBody rest
      match skipBlanks rest with
      | ':' :: rest => do
        let (v, rest) ← value? fuel rest
        match skipBlanks rest with
        | ',' :: rest => do
          let (ms, rest) ← members? fuel rest
          return ((bodyText? body, v) :: ms, rest)
        | '\x7d' :: rest => some ([(bodyText? body, v)], rest)
        | _ => none
      | _ => none
    | _ => none

end

/-- The value of a text. Each level of nesting and each item takes a character at least, so the
length of the text is fuel enough. -/
def parse? (s : String) : Option Json := do
  let cs := s.toList
  let (v, rest) ← value? (2 * cs.length + 1) cs
  if (skipBlanks rest).isEmpty then some v else none

end Json

end FundRecovery
