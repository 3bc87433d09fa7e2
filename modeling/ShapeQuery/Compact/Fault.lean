import ShapeQuery.Compact.Cursor
import ShapeQuery.Iri.Reference
import ShapeQuery.Json.Reader

/-!
Why a text in the compact syntax is refused.
-/
namespace ShapeQuery.Compact

inductive Problem where
  | expected (text : String)
  | unterminatedIri
  | expectedPrefixedName
  | expectedString
  | unterminatedString
  | unknownNamespace (name : String)
  | expectedBlankLabel
  | expectedNamespaceName
  | unexpectedToken
  | expectedShapeExpr
  | expectedNumber
  | unterminatedValueSet
  | expectedLiteral
deriving DecidableEq, Repr

def Problem.message : Problem → String
  | .expected text => "Expected " ++ Text.quoted text
  | .unterminatedIri => "Unterminated IRI"
  | .expectedPrefixedName => "Expected prefixed name"
  | .expectedString => "Expected string"
  | .unterminatedString => "Unterminated string"
  | .unknownNamespace name => "Unknown prefix " ++ Text.quoted name
  | .expectedBlankLabel => "Expected blank node label"
  | .expectedNamespaceName => "Expected prefix name"
  | .unexpectedToken => "Unexpected token"
  | .expectedShapeExpr => "Expected shape expression"
  | .expectedNumber => "Expected number"
  | .unterminatedValueSet => "Unterminated value set"
  | .expectedLiteral => "Expected literal"

inductive EscapeProblem where
  /-- The four characters after `\u` are no hexadecimal number. -/
  | badCodePoint (digits : String)
  /-- The number after `\u` is negative. -/
  | negativeCodePoint
  /-- The text ends behind the backslash. -/
  | dangling
deriving DecidableEq, Repr

def EscapeProblem.message : EscapeProblem → String
  | .badCodePoint digits => "invalid literal for int() with base 16: " ++ Text.quoted digits
  | .negativeCodePoint => "chr() arg not in range(0x110000)"
  | .dangling => "string index out of range"

/-- Why a text is refused. A fault in a token carries the position that reading
has come to, for it cannot be told from the start of the token. -/
inductive Fault where
  /-- The text is malformed at a position; `context` is the text around it. -/
  | malformed (problem : Problem) (pos : Nat) (context : String)
  /-- An escape stands for no character; the position is that behind its
  backslash. -/
  | badEscape (problem : EscapeProblem) (pos : Nat)
  | longInteger (digits : Nat)
  /-- A whole number is asked for and an infinite one is written. -/
  | infiniteCount
  | badBase (fault : Iri.Fault)
  /-- The bound on the length of the text was too small. -/
  | outOfBound
deriving DecidableEq, Repr

def Fault.message : Fault → String
  | .malformed problem pos context =>
    s!"{problem.message} at pos {decimalText pos}, near: ...{context}..."
  | .badEscape problem _ => problem.message
  | .longInteger digits => Json.longIntegerMessage digits
  | .infiniteCount => "cannot convert float infinity to integer"
  | .badBase fault => fault.message
  | .outOfBound => "text longer than its bound"

/-- The position of a fault that is found while a token is read. The other
faults are about a value that has been read. -/
def Fault.pos? : Fault → Option Nat
  | .malformed _ pos _ | .badEscape _ pos => some pos
  | _ => none

/-- A problem at a cursor. -/
def Cursor.fault (c : Cursor) (problem : Problem) : Fault :=
  .malformed problem c.pos (String.ofList c.context)

end ShapeQuery.Compact
