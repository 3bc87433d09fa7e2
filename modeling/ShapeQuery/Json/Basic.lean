import ShapeQuery.Number.Decimal
import ShapeQuery.Text.Quoted

/-!
JSON values. Objects keep their fields in document order, and integers are kept apart from numbers
written with a fraction or an exponent. A string that holds a surrogate without its partner is no
text and is kept apart from those that are. A schema document is used without checking the kinds of
its values first, so this module also says what happens when a value of the wrong kind is used.
-/
namespace ShapeQuery

inductive Json where
  | null
  | bool (value : Bool)
  | int (value : Int)
  | float (value : Double)
  | string (value : String)
  /-- A string with surrogates that are no text, as its code points. -/
  | illFormed (codes : List Nat)
  | array (items : List Json)
  | object (fields : List (String × Json))
deriving Inhabited, Repr

namespace Json

/-- The character of a code unit. A surrogate without its partner has none, and
a replacement character stands for it. -/
def unitChar (n : Nat) : Char :=
  if n.isValidChar then Char.ofNat n else '\ufffd'

/-- The text of code points, with the surrogates replaced. -/
def mended (codes : List Nat) : String :=
  String.ofList (codes.map unitChar)

def ofCodes (codes : List Nat) : Json :=
  if codes.all fun code => code.isValidChar then .string (mended codes) else .illFormed codes

/-- The most digits that an integer may be written with. A longer integer can
be held, but neither read nor written in decimal. -/
def maxIntegerDigits : Nat := 4300

inductive Kind where
  | null
  | bool
  | int
  | float
  | string
  | array
  | object
deriving DecidableEq, Repr

def Kind.name : Kind → String
  | .null => "NoneType"
  | .bool => "bool"
  | .int => "int"
  | .float => "float"
  | .string => "str"
  | .array => "list"
  | .object => "dict"

def kind : Json → Kind
  | .null => .null
  | .bool _ => .bool
  | .int _ => .int
  | .float _ => .float
  | .string _ | .illFormed _ => .string
  | .array _ => .array
  | .object _ => .object

/-- A use that a value's kind does not allow. -/
inductive Misuse where
  /-- The value has no items to go through. -/
  | notIterable (kind : Kind)
  /-- The value has no members to look among. -/
  | notContainer (kind : Kind)
  /-- The value lacks an operation. -/
  | noOperation (kind : Kind) (operation : String)
  /-- The value is not indexed by names. -/
  | notKeyed (kind : Kind)
  /-- The value cannot be a key. -/
  | notHashable (kind : Kind)
  /-- The value cannot be compared with a number. -/
  | notOrdered (kind : Kind)
deriving DecidableEq, Repr

def Misuse.message : Misuse → String
  | .notIterable kind => s!"'{kind.name}' object is not iterable"
  | .notContainer kind => s!"argument of type '{kind.name}' is not iterable"
  | .noOperation kind operation => s!"'{kind.name}' object has no attribute '{operation}'"
  | .notKeyed .string => "string indices must be integers, not 'str'"
  | .notKeyed .array => "list indices must be integers or slices, not str"
  | .notKeyed kind => s!"'{kind.name}' object is not subscriptable"
  | .notHashable kind => s!"unhashable type: '{kind.name}'"
  | .notOrdered kind => s!"'<' not supported between instances of '{kind.name}' and 'int'"

mutual

/-- The text of a value inside a message: strings are quoted, and arrays and
objects are written out in document order. -/
def literal : Json → String
  | .null => "None"
  | .bool true => "True"
  | .bool false => "False"
  | .int n => decimalText n
  | .float x => x.text
  | .string s => Text.quoted s
  | .illFormed codes => Text.quotedCodes codes
  | .array items => "[" ++ ", ".intercalate (literals items) ++ "]"
  | .object fields => "\x7b" ++ ", ".intercalate (fieldLiterals fields) ++ "\x7d"

def literals : List Json → List String
  | [] => []
  | item :: items => item.literal :: literals items

def fieldLiterals : List (String × Json) → List String
  | [] => []
  | (name, value) :: fields => (Text.quoted name ++ ": " ++ value.literal) :: fieldLiterals fields

end

/-- The text of a value on its own: a string stands for itself. -/
def display : Json → String
  | .string s => s
  | .illFormed codes => mended codes
  | value => value.literal

/-- Whether a value counts as present: null, false, zero and everything empty
do not. A field that is absent is null, so it does not either. -/
def truthy : Json → Bool
  | .null => false
  | .bool b => b
  | .int n => n != 0
  | .float x => !x.isZero
  | .string s => s != ""
  | .illFormed codes => !codes.isEmpty
  | .array items => !items.isEmpty
  | .object fields => !fields.isEmpty

def isNull : Json → Bool
  | .null => true
  | _ => false

/-- Whether a value equals the number zero; `false` counts as zero. -/
def isZero : Json → Bool
  | .bool b => !b
  | .int n => n = 0
  | .float x => x.isZero
  | _ => false

/-- Whether a number is below one; `false` and `true` count as zero and one. -/
def isBelowOne : Json → Except Misuse Bool
  | .bool b => .ok !b
  | .int n => .ok (n < 1)
  | .float x => .ok x.isBelowOne
  | value => .error (.notOrdered value.kind)

def isString (value : Json) (text : String) : Bool :=
  match value with
  | .string s => s = text
  | _ => false

/-- Whether a value is the given string that is no text. Such strings are
compared by their code points. -/
def isIllFormed (value : Json) (codes : List Nat) : Bool :=
  match value with
  | .illFormed found => found = codes
  | _ => false

/-- The string in a value, as a text. -/
def string? : Json → Option String
  | .string s => some s
  | .illFormed codes => some (mended codes)
  | _ => none

/-- The items of a value: the items of an array, the characters of a string,
the names of an object. -/
def items : Json → Except Misuse (List Json)
  | .array items => .ok items
  | .string s => .ok (s.toList.map fun c => .string (String.singleton c))
  | .illFormed codes => .ok (codes.map fun code => ofCodes [code])
  | .object fields => .ok (fields.map fun field => .string field.1)
  | value => .error (.notIterable value.kind)

/-- Refuses arrays and objects, which cannot be keys. -/
def hashable (value : Json) : Except Misuse Unit :=
  match value with
  | .array _ | .object _ => .error (.notHashable value.kind)
  | _ => .ok ()

def field? (fields : List (String × Json)) (name : String) : Option Json :=
  fields.lookup name

/-- The value of a field, null if there is none. -/
def fieldD (fields : List (String × Json)) (name : String) : Json :=
  (field? fields name).getD .null

end Json

end ShapeQuery
