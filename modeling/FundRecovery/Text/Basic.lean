import FundRecovery.Text.Graphic

/-!
# Blank and quoted text

The characters with Unicode's `White_Space` property, and text without them at either end. How
diagnostics show a text or one character: between quotes, with the quote, the backslash and the
usual controls behind a backslash, and every other character without a glyph by its number.

* `trim`, `allBlank`: text without the blanks at its ends, and text of nothing else.
* `showText`, `showChar`: the two quoted forms, which differ in the quote they escape.
-/

namespace FundRecovery.Text

/-! ## Blanks -/

/-- The character has the `White_Space` property. -/
def isBlank (c : Char) : Bool :=
  let n := c.toNat
  (0x09 ≤ n && n ≤ 0x0D) || n == 0x20 || n == 0x85 || n == 0xA0 || n == 0x1680 ||
    (0x2000 ≤ n && n ≤ 0x200A) || n == 0x2028 || n == 0x2029 || n == 0x202F || n == 0x205F ||
    n == 0x3000

/-- The characters of a text without the blanks at its start and end. -/
def trimChars (cs : List Char) : List Char :=
  ((cs.dropWhile isBlank).reverse.dropWhile isBlank).reverse

/-- `s` without the blanks at its start and end. -/
def trim (s : String) : String := String.ofList (trimChars s.toList)

/-- Nothing but blanks, or nothing at all. -/
def allBlank (s : String) : Bool := s.toList.all isBlank

/-! ## Quotes -/

/-- `\u` and the number of a character in braces, in lower-case digits. -/
def byNumber (c : Char) : List Char :=
  '\\' :: 'u' :: '\x7b' :: (Nat.toDigits 16 c.toNat ++ ['\x7d'])

/-- One character inside quotes of the kind `quote`. -/
def escaped (quote c : Char) : List Char :=
  if c = '\x00' then ['\\', '0']
  else if c = '\t' then ['\\', 't']
  else if c = '\r' then ['\\', 'r']
  else if c = '\n' then ['\\', 'n']
  else if c = '\\' ∨ c = quote then ['\\', c]
  else if isGraphic c then [c]
  else byNumber c

/-- `s` between double quotes. -/
def showText (s : String) : String :=
  String.ofList ('"' :: (s.toList.flatMap (escaped '"') ++ ['"']))

/-- `c` between single quotes. -/
def showChar (c : Char) : String :=
  String.ofList ('\'' :: (escaped '\'' c ++ ['\'']))

example : showChar '\'' = "'\\''" ∧ showChar '"' = "'\"'" ∧ showText "\"'" = "\"\\\"'\"" := by
  decide +kernel

example : showChar '\x01' = "'\\u\x7b1\x7d'" := by decide +kernel

end FundRecovery.Text
