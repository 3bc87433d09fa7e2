import ShapeQuery.Json.Basic

/-!
Reading JSON text. White space is space, tab, line feed and carriage return; `NaN`, `Infinity` and
`-Infinity` are accepted as numbers. A repeated field keeps its first place and its last value.
-/
namespace ShapeQuery.Json

inductive Problem where
  | byteOrderMark
  | expectedValue
  | extraData
  | expectedName
  | expectedColon
  | expectedComma
  | unterminatedString
  | controlCharacter
  | invalidEscape
  | invalidUnicodeEscape
deriving DecidableEq, Repr

def Problem.message : Problem → String
  | .byteOrderMark => "Unexpected UTF-8 BOM (decode using utf-8-sig)"
  | .expectedValue => "Expecting value"
  | .extraData => "Extra data"
  | .expectedName => "Expecting property name enclosed in double quotes"
  | .expectedColon => "Expecting ':' delimiter"
  | .expectedComma => "Expecting ',' delimiter"
  | .unterminatedString => "Unterminated string starting at"
  | .controlCharacter => "Invalid control character at"
  | .invalidEscape => "Invalid \\escape"
  | .invalidUnicodeEscape => "Invalid \\uXXXX escape"

inductive ReadFault where
  /-- The text is malformed at an offset, counted in characters. -/
  | malformed (problem : Problem) (offset : Nat)
  /-- An integer has too many digits. -/
  | longInteger (digits : Nat)
deriving DecidableEq, Repr

def longIntegerMessage (digits : Nat) : String :=
  s!"Exceeds the limit ({decimalText maxIntegerDigits} digits) for integer string conversion: " ++
    s!"value has {decimalText digits} digits; " ++
    "use sys.set_int_max_str_digits() to increase the limit"

/-- A place in a text: the characters from there on, and their offset. -/
structure Place where
  offset : Nat
  rest : List Char

def Place.advance (place : Place) (n : Nat) : Place :=
  ⟨place.offset + n, place.rest.drop n⟩

def isSpace (c : Char) : Bool :=
  c == ' ' || c == '\t' || c == '\n' || c == '\r'

def Place.skip (place : Place) : Place :=
  place.advance (place.rest.takeWhile isSpace).length

/-- A result together with the place after it. -/
abbrev Read (α : Type) := Except ReadFault (α × Place)

def Place.fail {α : Type} (place : Place) (problem : Problem) : Read α :=
  .error (.malformed problem place.offset)

def hexValue? (c : Char) : Option Nat :=
  if '0' ≤ c ∧ c ≤ '9' then some (c.toNat - 48)
  else if 'a' ≤ c ∧ c ≤ 'f' then some (c.toNat - 87)
  else if 'A' ≤ c ∧ c ≤ 'F' then some (c.toNat - 55)
  else none

/-- The value of four hexadecimal digits at the start of a text that goes on
after them. At the very end of a text an escape is incomplete in any case. -/
def hexQuad? : List Char → Option Nat
  | a :: b :: c :: d :: _ :: _ => do
    let a ← hexValue? a
    let b ← hexValue? b
    let c ← hexValue? c
    let d ← hexValue? d
    return ((a * 16 + b) * 16 + c) * 16 + d
  | _ => none

/-- Whether a code unit opens a surrogate pair. -/
def isHighSurrogate (n : Nat) : Bool := 0xD800 ≤ n && n ≤ 0xDBFF

/-- Whether a code unit closes a surrogate pair. -/
def isLowSurrogate (n : Nat) : Bool := 0xDC00 ≤ n && n ≤ 0xDFFF

/-- The character that a one-letter escape stands for. The letter `u` is not
among them, for it takes digits. -/
def simpleEscape? : Char → Option Char
  | '"' => some '"'
  | '\\' => some '\\'
  | '/' => some '/'
  | 'b' => some '\x08'
  | 'f' => some '\x0c'
  | 'n' => some '\n'
  | 'r' => some '\r'
  | 't' => some '\t'
  | _ => none

/-- Reads the rest of a string whose opening quote stands at `start`, with
`acc` the code points read so far in reverse. -/
def stringTail (start : Nat) (acc : List Nat) : Nat → List Char → Read (List Nat)
  | _, [] => .error (.malformed .unterminatedString start)
  | offset, '"' :: rest => .ok (acc.reverse, ⟨offset + 1, rest⟩)
  | _, ['\\'] => .error (.malformed .unterminatedString start)
  | offset, '\\' :: 'u' :: rest =>
    match rest, hexQuad? rest with
    | _ :: _ :: _ :: _ :: '\\' :: 'u' :: a :: b :: c :: d :: more, some high =>
      if isHighSurrogate high ∧ more ≠ [] then
        match hexQuad? (a :: b :: c :: d :: more) with
        | none => .error (.malformed .invalidUnicodeEscape (offset + 7))
        | some low =>
          if isLowSurrogate low then
            let code := 0x10000 + (high - 0xD800) * 0x400 + (low - 0xDC00)
            stringTail start (code :: acc) (offset + 12) more
          else
            stringTail start (high :: acc) (offset + 6) ('\\' :: 'u' :: a :: b :: c :: d :: more)
      else
        stringTail start (high :: acc) (offset + 6) ('\\' :: 'u' :: a :: b :: c :: d :: more)
    | _ :: _ :: _ :: _ :: more, some code =>
      stringTail start (code :: acc) (offset + 6) more
    | _, _ => .error (.malformed .invalidUnicodeEscape (offset + 1))
  | offset, '\\' :: c :: rest =>
    match simpleEscape? c with
    | some meaning => stringTail start (meaning.toNat :: acc) (offset + 2) rest
    | none => .error (.malformed .invalidEscape offset)
  | offset, c :: rest =>
    if c.toNat < 0x20 then .error (.malformed .controlCharacter offset)
    else stringTail start (c.toNat :: acc) (offset + 1) rest

def digitsValue (digits : List Char) : Nat :=
  digits.foldl (fun value c => value * 10 + (c.toNat - 48)) 0

/-- The digits after a decimal point, if any follow. -/
def fractionDigits : List Char → List Char
  | '.' :: rest => rest.takeWhile Char.isDigit
  | _ => []

/-- An exponent: its length in characters and its value. -/
structure Exponent where
  width : Nat
  value : Int

def exponent? : List Char → Option Exponent
  | mark :: rest =>
    if mark = 'e' ∨ mark = 'E' then
      let (signWidth, negative) := match rest with
        | '+' :: _ => (1, false)
        | '-' :: _ => (1, true)
        | _ => (0, false)
      let digits := (rest.drop signWidth).takeWhile Char.isDigit
      if digits.isEmpty then none
      else
        let value : Int := digitsValue digits
        some ⟨1 + signWidth + digits.length, if negative then -value else value⟩
    else none
  | [] => none

/-- The digits of a whole number: a zero alone, or digits that do not start with one. -/
def wholeDigits (text : List Char) : List Char :=
  match text with
  | '0' :: _ => ['0']
  | _ => text.takeWhile Char.isDigit

def number (place : Place) : Read Json :=
  let negative := place.rest.head? = some '-'
  let signWidth := if negative then 1 else 0
  let body := place.rest.drop signWidth
  let whole := wholeDigits body
  if whole.isEmpty then place.fail .expectedValue
  else
    let afterWhole := body.drop whole.length
    let fraction := fractionDigits afterWhole
    let fractionWidth := if fraction.isEmpty then 0 else fraction.length + 1
    let exponent := exponent? (afterWhole.drop fractionWidth)
    let exponentWidth := match exponent with
      | some e => e.width
      | none => 0
    let next := place.advance (signWidth + whole.length + fractionWidth + exponentWidth)
    if fraction.isEmpty && exponent.isNone then
      if maxIntegerDigits < whole.length then .error (.longInteger whole.length)
      else
        let value : Int := digitsValue whole
        .ok (.int (if negative then -value else value), next)
    else
      let scale : Int := match exponent with
        | some e => e.value
        | none => 0
      let digits := digitsValue (whole ++ fraction)
      .ok (.float (.ofDecimal negative digits (scale - fraction.length)), next)

def words : List (String × Json) :=
  [("null", .null), ("true", .bool true), ("false", .bool false), ("NaN", .float .nan),
    ("Infinity", .float (.infinite false)), ("-Infinity", .float (.infinite true))]

def scalar (place : Place) : Read Json :=
  match words.find? fun word => word.1.toList.isPrefixOf place.rest with
  | some (word, value) => .ok (value, place.advance word.length)
  | none => number place

/-- Adds a field to fields in reverse order; a repeated field keeps its place
and gets the new value. -/
def putField (fields : List (String × Json)) (name : String) (value : Json) :
    List (String × Json) :=
  if fields.any (·.1 == name) then
    fields.map fun field => if field.1 = name then (name, value) else field
  else
    (name, value) :: fields

mutual

/-- Reads a value. The first argument bounds the calls below this one; twice
the length of the text is never used up. -/
def value : Nat → Place → Read Json
  | 0, place => place.fail .expectedValue
  | bound + 1, place =>
    match place.rest with
    | '"' :: rest =>
      match stringTail place.offset [] (place.offset + 1) rest with
      | .ok (codes, next) => .ok (ofCodes codes, next)
      | .error fault => .error fault
    | '{' :: _ =>
      let inside := (place.advance 1).skip
      if inside.rest.head? = some '}' then .ok (.object [], inside.advance 1)
      else members bound [] inside
    | '[' :: _ =>
      let inside := (place.advance 1).skip
      if inside.rest.head? = some ']' then .ok (.array [], inside.advance 1)
      else elements bound [] inside
    | _ => scalar place

/-- Reads the items of an array up to its closing bracket, with the items so
far in reverse. -/
def elements : Nat → List Json → Place → Read Json
  | 0, _, place => place.fail .expectedValue
  | bound + 1, acc, place =>
    match value bound place with
    | .error fault => .error fault
    | .ok (item, next) =>
      let next := next.skip
      match next.rest with
      | ']' :: _ => .ok (.array (item :: acc).reverse, next.advance 1)
      | ',' :: _ => elements bound (item :: acc) (next.advance 1).skip
      | _ => next.fail .expectedComma

/-- Reads the fields of an object up to its closing brace, with the fields so
far in reverse. -/
def members : Nat → List (String × Json) → Place → Read Json
  | 0, _, place => place.fail .expectedValue
  | bound + 1, acc, place =>
    match place.rest with
    | '"' :: rest =>
      match stringTail place.offset [] (place.offset + 1) rest with
      | .error fault => .error fault
      | .ok (codes, next) =>
        let next := next.skip
        match next.rest with
        | ':' :: _ =>
          match value bound (next.advance 1).skip with
          | .error fault => .error fault
          | .ok (item, next) =>
            let acc := putField acc (mended codes) item
            let next := next.skip
            match next.rest with
            | '}' :: _ => .ok (.object acc.reverse, next.advance 1)
            | ',' :: _ => members bound acc (next.advance 1).skip
            | _ => next.fail .expectedComma
        | _ => next.fail .expectedColon
    | _ => place.fail .expectedName

end

/-- Reads a text that holds exactly one value. White space may stand around it,
and anything else behind it is refused. -/
def parse (text : List Char) : Except ReadFault Json :=
  if text.head? = some '\ufeff' then .error (.malformed .byteOrderMark 0)
  else
    match value (2 * text.length + 2) (Place.mk 0 text).skip with
    | .error fault => .error fault
    | .ok (result, next) =>
      let next := next.skip
      if next.rest.isEmpty then .ok result else .error (.malformed .extraData next.offset)

/-- The line and column of an offset, both counted from one. -/
def lineAndColumn (text : List Char) (offset : Nat) : Nat × Nat :=
  let before := text.take offset
  (before.count '\n' + 1, (before.reverse.takeWhile (· != '\n')).length + 1)

def ReadFault.message (text : List Char) : ReadFault → String
  | .malformed problem offset =>
    let (line, column) := lineAndColumn text offset
    s!"{problem.message}: line {decimalText line} column {decimalText column} " ++
      s!"(char {decimalText offset})"
  | .longInteger digits => longIntegerMessage digits

end ShapeQuery.Json
