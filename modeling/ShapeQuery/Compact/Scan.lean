import ShapeQuery.Compact.Lexeme
import ShapeQuery.Text.Upper

/-!
Reading tokens. Every action first skips blanks and comments, lookahead included, and leaves the
cursor behind what it has read.
-/
namespace ShapeQuery.Compact

/-- An action that reads from a cursor and may fail. -/
abbrev Scan (α : Type) := StateT Cursor (Except Fault) α

namespace Scan

def fail {α : Type} (problem : Problem) : Scan α := do
  throw ((← get).fault problem)

def advance (n : Nat) : Scan Unit :=
  modify (·.advance n)

def skip : Scan Unit :=
  modify Cursor.skip

/-- The next character, if the text goes on. Looking ahead moves the cursor
over blanks and comments, but not over the character. -/
def peek : Scan (Option Char) := do
  skip
  return (← get).rest.head?

def rest : Scan (List Char) := do
  skip
  return (← get).rest

def atEnd : Scan Bool := do
  skip
  return (← get).rest.isEmpty

def tryText (text : String) : Scan Bool := do
  skip
  if (← get).startsWith text.toList then
    advance text.length
    return true
  else
    return false

/-- Reads a given text, which must come next. -/
def expect (text : String) : Scan Unit := do
  unless ← tryText text do
    fail (.expected text)

/-- Whether a character can follow a keyword. -/
def endsKeyword (c : Char) : Bool :=
  !(Text.isAlphanumeric c || c == '_' || c == ':' || c == '-')

/-- Whether a text starts with a keyword, in any case, that does not go on as a
longer word. The text is compared by its upper-case form. -/
def startsKeyword (keyword : String) (text : List Char) : Bool :=
  Text.upper (text.take keyword.length) == keyword.toList &&
    match text.drop keyword.length with
    | [] => true
    | c :: _ => endsKeyword c

def atKeyword (keyword : String) : Scan Bool := do
  return startsKeyword keyword (← rest)

def tryKeyword (keyword : String) : Scan Bool := do
  if ← atKeyword keyword then
    advance keyword.length
    return true
  else
    return false

/-- Reads what a recogniser finds at the next token. Numerals, names and tags
are recognised as texts and only then read. -/
def lexeme? {α : Type} (recognise : List Char → Option α) (width : α → Nat) : Scan (Option α) := do
  match recognise (← rest) with
  | some found =>
    advance (width found)
    return some found
  | none => return none

def tryNumeral : Scan (Option Numeral) :=
  lexeme? numeral? (·.text.length)

def tryLanguageTag : Scan (Option (List Char)) :=
  lexeme? languageTag? List.length

def tryPrefixedName : Scan (Option PrefixedName) :=
  lexeme? prefixedName? fun found => found.name.length + 1 + found.localPart.length

def tryNamespaceName : Scan (Option (List Char)) :=
  lexeme? namespaceName? (·.length + 1)

def iriRef : Scan String := do
  if (← peek) != some '<' then
    fail (.expected "<")
  let text := (← get).rest
  let written := text.takeWhile (· != '>')
  if (text.drop written.length).isEmpty then
    fail .unterminatedIri
  advance (written.length + 1)
  return String.ofList (written.drop 1)

def atPrefixedName : Scan Bool := do
  return (namespaceName? (← rest)).isSome

/-- Reads a prefixed name: the namespace name, and the local name without
escapes. Points at the end are not part of it. -/
def prefixedName : Scan (String × String) := do
  match prefixedName? (← rest) with
  | none => fail .expectedPrefixedName
  | some found =>
    let written := dropFinalPoints found.localPart
    advance (found.name.length + 1 + written.length)
    return (String.ofList found.name, String.ofList (unescapeLocal written))

/-- The quotes around strings; a tripled quote is tried before a single one. -/
def quotes : List (List Char) :=
  [['"', '"', '"'], ['\'', '\'', '\''], ['"'], ['\'']]

/-- The character that a one-letter escape stands for: most letters stand for
themselves. -/
def letterEscape : Char → Char
  | 'n' => '\n'
  | 't' => '\t'
  | 'r' => '\r'
  | 'b' => '\x08'
  | 'f' => '\x0c'
  | c => c

/-- Reads the characters of a string up to its closing quote. `taken` counts
the characters read, from the cursor `origin` on, and `acc` holds the string so
far in reverse. -/
def stringBody (origin : Cursor) (quote : List Char) :
    List Char → Nat → List Char → Except Fault (List Char × Nat)
  | [], taken, _ => .error ((origin.advance taken).fault .unterminatedString)
  | c :: rest, taken, acc =>
    if quote.isPrefixOf (c :: rest) then .ok (acc.reverse, taken + quote.length)
    else if c = '\\' then
      match rest with
      | [] => .error (.badEscape .dangling (origin.advance (taken + 1)).pos)
      | 'u' :: d₁ :: d₂ :: d₃ :: d₄ :: more =>
        match escapedChar [d₁, d₂, d₃, d₄] with
        | .ok meaning => stringBody origin quote more (taken + 6) (meaning :: acc)
        | .error problem => .error (.badEscape problem (origin.advance (taken + 1)).pos)
      | 'u' :: digits =>
        match escapedChar digits with
        | .ok _ => .error ((origin.advance (taken + 6)).fault .unterminatedString)
        | .error problem => .error (.badEscape problem (origin.advance (taken + 1)).pos)
      | letter :: more => stringBody origin quote more (taken + 2) (letterEscape letter :: acc)
    else stringBody origin quote rest (taken + 1) (c :: acc)

/-- Reads a string in quotes, with its escapes resolved. The quotes may be
tripled, and then single ones may stand inside. -/
def string : Scan String := do
  let text ← rest
  match quotes.find? (·.isPrefixOf text) with
  | none => fail .expectedString
  | some quote =>
    let (chars, taken) ← stringBody (← get) quote (text.drop quote.length) quote.length []
    advance taken
    return String.ofList chars

end Scan

end ShapeQuery.Compact
