import ShapeQuery.Compact.Fault
import ShapeQuery.Text.Alphanumeric
import ShapeQuery.Text.Blank
import ShapeQuery.Text.Digit

/-!
The lexemes of the compact syntax, recognised at the start of a text: numerals, prefixed names,
language tags, blank node labels and the code points of string escapes.
-/
namespace ShapeQuery.Compact

inductive NumeralForm where
  | integer
  | decimal
  | double
deriving DecidableEq, Repr

structure Numeral where
  form : NumeralForm
  sign : List Char
  mantissa : List Char
  exponent : List Char
deriving DecidableEq, Repr

def Numeral.text (n : Numeral) : List Char :=
  n.sign ++ n.mantissa ++ n.exponent

def digitRun (text : List Char) : List Char :=
  text.takeWhile Text.isDecimalDigit

def signRun : List Char → List Char
  | '+' :: _ => ['+']
  | '-' :: _ => ['-']
  | _ => []

/-- An exponent at the start of a text: a mark, perhaps a sign, and digits. -/
def exponentRun : List Char → List Char
  | mark :: rest =>
    if mark = 'e' ∨ mark = 'E' then
      let sign := signRun rest
      let digits := digitRun (rest.drop sign.length)
      if digits.isEmpty then [] else mark :: sign ++ digits
    else []
  | [] => []

def fractionRun : List Char → List Char
  | '.' :: rest => '.' :: digitRun rest
  | _ => []

/-- The numeral at the start of a text. A point belongs to it if digits follow,
or an exponent. -/
def numeral? (text : List Char) : Option Numeral :=
  let sign := signRun text
  let body := text.drop sign.length
  let whole := digitRun body
  let fraction := fractionRun (body.drop whole.length)
  let mantissa := whole ++ fraction
  let exponent := exponentRun (body.drop mantissa.length)
  let hasDigits := !whole.isEmpty || 2 ≤ fraction.length
  if hasDigits && !exponent.isEmpty then some ⟨.double, sign, mantissa, exponent⟩
  else if 2 ≤ fraction.length then some ⟨.decimal, sign, mantissa, []⟩
  else if !whole.isEmpty then some ⟨.integer, sign, whole, []⟩
  else none

/-- The value of a list of digits, whatever else stands between them. -/
def digitsValue (text : List Char) : Nat :=
  (text.filterMap Text.digitValue?).foldl (fun value digit => value * 10 + digit) 0

def fractionLength (mantissa : List Char) : Nat :=
  (mantissa.dropWhile (· != '.')).length - 1

def signed (sign : List Char) (value : Nat) : Int :=
  if sign = ['-'] then -(value : Int) else value

def exponentValue : List Char → Int
  | [] => 0
  | _ :: rest => signed (signRun rest) (digitsValue rest)

/-- The value of a numeral: whole numbers are exact, others are rounded to a
double. A whole number with too many digits is refused. -/
def Numeral.value (n : Numeral) : Except Fault Json :=
  match n.form with
  | .integer =>
    if Json.maxIntegerDigits < n.mantissa.length then .error (.longInteger n.mantissa.length)
    else .ok (.int (signed n.sign (digitsValue n.mantissa)))
  | _ =>
    let scale := exponentValue n.exponent - (fractionLength n.mantissa : Int)
    .ok (.float (.ofDecimal (n.sign = ['-']) (digitsValue n.mantissa) scale))

/-- The value of a numeral without its fractional part. A number that is too
large for a double has none. -/
def Numeral.count (n : Numeral) : Except Fault Int := do
  match ← n.value with
  | .int value => return value
  | .float value =>
    match value.truncate? with
    | some whole => return whole
    | none => throw .infiniteCount
  | _ => throw .infiniteCount

def isNameChar (c : Char) : Bool :=
  Text.isWord c || c == '.' || c == '-'

/-- The namespace name at the start of a text, before a colon. -/
def namespaceName? (text : List Char) : Option (List Char) :=
  let name := match text with
    | first :: rest => if first.isAlpha then first :: rest.takeWhile isNameChar else []
    | [] => []
  if (text.drop name.length).head? = some ':' then some name else none

def isLocalChar (c : Char) : Bool :=
  isNameChar c || c == ':' || c == '%'

def localRun : List Char → List Char
  | '\\' :: c :: rest => if c = '\n' then [] else '\\' :: c :: localRun rest
  | c :: rest => if isLocalChar c then c :: localRun rest else []
  | [] => []

/-- A prefixed name: the namespace name and the local name as written. -/
structure PrefixedName where
  name : List Char
  localPart : List Char
deriving DecidableEq, Repr

def prefixedName? (text : List Char) : Option PrefixedName :=
  (namespaceName? text).map fun name => ⟨name, localRun (text.drop (name.length + 1))⟩

/-- A local name as it is written, without the points at its end. A point that
is escaped is dropped as well, and its backslash stays. -/
def dropFinalPoints (written : List Char) : List Char :=
  (written.reverse.dropWhile (· == '.')).reverse

/-- The local name without its escapes. -/
def unescapeLocal : List Char → List Char
  | '\\' :: c :: rest => c :: unescapeLocal rest
  | c :: rest => c :: unescapeLocal rest
  | [] => []

def subtagRun (text : List Char) : List Char :=
  match text with
  | '-' :: rest =>
    let subtag := rest.takeWhile Char.isAlphanum
    if subtag.isEmpty then [] else '-' :: subtag ++ subtagRun (rest.drop subtag.length)
  | _ => []
termination_by text.length
decreasing_by simp only [List.length_drop, List.length_cons]; omega

def languageTag? (text : List Char) : Option (List Char) :=
  let primary := text.takeWhile Char.isAlpha
  if primary.isEmpty then none else some (primary ++ subtagRun (text.drop primary.length))

/-- The blank node label at the start of a text: name characters up to the last
word character. -/
def blankLabel? (text : List Char) : Option (List Char) :=
  let label := ((text.takeWhile isNameChar).reverse.dropWhile (!Text.isWord ·)).reverse
  if label.isEmpty then none else some label

/-- A decimal digit of any script as an ASCII digit; other characters stay. -/
def asciiDigit (c : Char) : Char :=
  match Text.digitValue? c with
  | some value => value.digitChar
  | none => c

def hexDigitsValue? (value : Nat) : List Char → Option Nat
  | [] => some value
  | '_' :: c :: rest => (Json.hexValue? c).bind fun digit =>
    hexDigitsValue? (value * 16 + digit) rest
  | c :: rest => (Json.hexValue? c).bind fun digit => hexDigitsValue? (value * 16 + digit) rest

/-- The value of unsigned hexadecimal text: digits that may follow `0x`,
perhaps with an underscore after it. -/
def unsignedHex? (text : List Char) : Option Nat :=
  let afterMark := match text with
    | '0' :: mark :: rest => if mark = 'x' ∨ mark = 'X' then some rest else none
    | _ => none
  match afterMark with
  | some ('_' :: rest) => if rest.isEmpty then none else hexDigitsValue? 0 rest
  | some rest => if rest.isEmpty then none else hexDigitsValue? 0 rest
  | none =>
    match text with
    | [] | '_' :: _ => none
    | digits => hexDigitsValue? 0 digits

/-- A blank around a number: white space other than the information
separators. -/
def isNumberBlank (c : Char) : Bool :=
  Text.isBlank c && !(0x1C ≤ c.toNat && c.toNat ≤ 0x1F)

/-- The value of hexadecimal text with blanks around it and perhaps a sign.
Underscores between the digits are allowed as in any number. -/
def hex? (text : List Char) : Option Int :=
  let body := ((text.dropWhile isNumberBlank).reverse.dropWhile isNumberBlank).reverse.map
    asciiDigit
  let sign := signRun body
  (unsignedHex? (body.drop sign.length)).map (signed sign)

/-- The character that the text after `\u` stands for. A surrogate has none and
is replaced, and a text that is no number is refused. -/
def escapedChar (digits : List Char) : Except EscapeProblem Char :=
  match hex? digits with
  | none => .error (.badCodePoint (String.ofList digits))
  | some code => if code < 0 then .error .negativeCodePoint else .ok (Json.unitChar code.toNat)

end ShapeQuery.Compact
