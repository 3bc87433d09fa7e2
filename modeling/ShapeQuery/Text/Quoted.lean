import ShapeQuery.Text.Printable

/-!
Texts quoted for messages: single quotes, or double quotes when that avoids an escape, with every
character that does not print written as an escape.
-/
namespace ShapeQuery.Text

/-- The last `width` hexadecimal digits of a number, in lower case. -/
def hexDigits : Nat → Nat → List Char
  | 0, _ => []
  | width + 1, n => hexDigits width (n / 16) ++ [(n % 16).digitChar]

/-- The quote around a text: `"` if the text has `'` and no `"`, otherwise `'`.
The mark itself is escaped inside the text, the other quote is not. -/
def quoteMark (text : List Char) : Char :=
  if text.contains '\'' && !text.contains '"' then '"' else '\''

def escapeChar (mark c : Char) : List Char :=
  if c = mark ∨ c = '\\' then ['\\', c]
  else if c = '\n' then ['\\', 'n']
  else if c = '\r' then ['\\', 'r']
  else if c = '\t' then ['\\', 't']
  else if isPrintable c then [c]
  else if c.toNat < 0x100 then '\\' :: 'x' :: hexDigits 2 c.toNat
  else if c.toNat < 0x10000 then '\\' :: 'u' :: hexDigits 4 c.toNat
  else '\\' :: 'U' :: hexDigits 8 c.toNat

def quoted (text : String) : String :=
  let mark := quoteMark text.toList
  String.ofList (mark :: text.toList.flatMap (escapeChar mark) ++ [mark])

/-- The written form of one code point inside quotes. A surrogate does not print. -/
def escapeCode (mark : Char) (code : Nat) : List Char :=
  if code.isValidChar then escapeChar mark (Char.ofNat code) else '\\' :: 'u' :: hexDigits 4 code

def quotedCodes (codes : List Nat) : String :=
  let mark := quoteMark (codes.map Char.ofNat)
  String.ofList (mark :: codes.flatMap (escapeCode mark) ++ [mark])

end ShapeQuery.Text
