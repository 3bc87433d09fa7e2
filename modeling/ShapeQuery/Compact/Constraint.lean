import ShapeQuery.Compact.Names
import ShapeQuery.Schema.Basic

/-!
Node constraints in the compact syntax: node kinds, datatypes, value sets and facets.
-/
namespace ShapeQuery.Compact.Scan

def numeral : Scan Numeral := do
  match ← tryNumeral with
  | some found => return found
  | none => fail .expectedNumber

def number : Scan Json := do
  (← numeral).value

/-- Reads a number and drops its fractional part. -/
def count : Scan Int := do
  (← numeral).count

/-- The text of a regular expression up to its closing slash: the pattern, in
which `\/` stands for a slash and other escapes stay, and the number of
characters it takes up. -/
def regexpBody : List Char → List Char × Nat
  | [] => ([], 0)
  | '/' :: _ => ([], 0)
  | '\\' :: '/' :: rest =>
    let (pattern, taken) := regexpBody rest
    ('/' :: pattern, taken + 2)
  | '\\' :: c :: rest =>
    let (pattern, taken) := regexpBody rest
    ('\\' :: c :: pattern, taken + 2)
  | ['\\'] => (['\\'], 2)
  | c :: rest =>
    let (pattern, taken) := regexpBody rest
    (c :: pattern, taken + 1)

def isFlag (c : Char) : Bool :=
  c == 's' || c == 'm' || c == 'i' || c == 'x'

/-- Reads a regular expression between slashes and its flags, if any. -/
def regexp : Scan (String × Option String) := do
  expect "/"
  let (pattern, taken) := regexpBody (← get).rest
  advance taken
  expect "/"
  let flags := (← get).rest.takeWhile isFlag
  advance flags.length
  return (String.ofList pattern, if flags.isEmpty then none else some (String.ofList flags))

def xsdBoolean : String := "http://www.w3.org/2001/XMLSchema#boolean"

def NumeralForm.datatype : NumeralForm → String
  | .integer => "http://www.w3.org/2001/XMLSchema#integer"
  | .decimal => "http://www.w3.org/2001/XMLSchema#decimal"
  | .double => "http://www.w3.org/2001/XMLSchema#double"

/-- A literal: its text, its datatype and its language. -/
structure Literal where
  value : String
  datatype : Option String := none
  language : Option String := none

def optional : Option String → Json
  | some text => .string text
  | none => .null

def Literal.entry (literal : Literal) : ValueSetEntry :=
  .literal (.string literal.value) (optional literal.datatype) (optional literal.language)

/-- Whether a character opens a string. -/
def isQuote (c : Option Char) : Bool :=
  c == some '"' || c == some '\''

/-- Reads a string literal, with its datatype or language right behind the
closing quote. -/
def stringLiteral (names : Names) : Scan Literal := do
  let value ← string
  let c ← get
  if c.startsWith ['^', '^'] then
    advance 2
    return { value, datatype := some (← iri names) }
  else if c.startsWith ['@'] then
    advance 1
    return { value, language := (← tryLanguageTag).map String.ofList }
  else
    return { value }

/-- Reads a literal: a string, a boolean or a number. A numeral keeps the text
that it is written with, and its form gives the datatype. -/
def literal (names : Names) : Scan Literal := do
  if isQuote (← peek) then
    stringLiteral names
  else if ← tryKeyword "TRUE" then
    return { value := "true", datatype := some xsdBoolean }
  else if ← tryKeyword "FALSE" then
    return { value := "false", datatype := some xsdBoolean }
  else
    match ← tryNumeral with
    | some found =>
      return { value := String.ofList found.text
               datatype := some (NumeralForm.datatype found.form) }
    | none => fail .expectedLiteral

def atLiteral : Scan Bool := do
  if isQuote (← peek) then return true
  if ← atKeyword "TRUE" then return true
  if ← atKeyword "FALSE" then return true
  return (numeral? (← get).rest).isSome

/-- Reads a language tag after its mark; a missing tag is empty. -/
def languageTag : Scan String := do
  expect "@"
  match ← tryLanguageTag with
  | some tag => return String.ofList tag
  | none => return ""

def stemValue (names : Names) : StemKind → Scan String
  | .iri => iri names
  | .literal => do return (← literal names).value
  | .language => languageTag

/-- Reads one exclusion after its hyphen: a value, or a stem if a tilde follows. -/
def exclusion (names : Names) (kind : StemKind) : Scan Exclusion := do
  let value ← stemValue names kind
  if ← tryText "~" then
    return .stem (.string value)
  else
    return .value (.string value)

/-- Reads exclusions as long as a hyphen comes next. The bound is on their
number, and there are not more of them than characters. -/
def exclusions (names : Names) (kind : StemKind) : Nat → Scan (List Exclusion)
  | 0 => throw .outOfBound
  | bound + 1 => do
    if ← tryText "-" then
      let first ← exclusion names kind
      let others ← exclusions names kind bound
      return first :: others
    else
      return []

/-- What follows a value: nothing, or a tilde that makes it a stem, with
exclusions that make the stem a range. -/
def stemOr (names : Names) (bound : Nat) (kind : StemKind) (value : String)
    (plain : ValueSetEntry) : Scan ValueSetEntry := do
  if ← tryText "~" then
    let left ← exclusions names kind bound
    if left.isEmpty then
      return .stem kind (.string value)
    else
      return .range kind (.text (.string value)) left
  else
    return plain

/-- The kind of a range without a stem, told by the text after its point: the
first exclusion decides it. -/
def wildcardKind (text : List Char) : StemKind :=
  let after := Text.trimStart (text.drop 1)
  if after.head? = some '@' then .language
  else if isQuote after.head? || (numeral? after).isSome then .literal
  else .iri

/-- Reads one entry of a value set. A point opens a range without a stem, a
mark a language, and anything else is a literal or an IRI. -/
def entry (names : Names) (bound : Nat) : Scan ValueSetEntry := do
  let next ← peek
  if next = some '.' then
    advance 1
    let kind := wildcardKind (← rest)
    return .range kind .wildcard (← exclusions names kind bound)
  else if next = some '@' then
    let tag ← languageTag
    stemOr names bound .language tag (.language (.string tag))
  else if ← atLiteral then
    let found ← literal names
    stemOr names bound .literal found.value found.entry
  else
    let found ← iri names
    stemOr names bound .iri found (.iri found)

/-- Reads the entries of a value set up to its closing bracket. A text that
ends before the bracket is refused. -/
def entries (names : Names) : Nat → Scan (List ValueSetEntry)
  | 0 => throw .outOfBound
  | bound + 1 => do
    if ← tryText "]" then
      return []
    else if ← atEnd then
      fail .unterminatedValueSet
    else
      let first ← entry names bound
      let others ← entries names bound
      return first :: others

def valueSet (names : Names) (bound : Nat) : Scan (List ValueSetEntry) := do
  expect "["
  entries names bound

inductive Facet where
  | length
  | minLength
  | maxLength
  | minInclusive
  | minExclusive
  | maxInclusive
  | maxExclusive
  /-- A facet whose number is read and dropped. -/
  | ignored
  | pattern

/-- The facets and their keywords. -/
def facetKeywords : List (String × Facet) :=
  [("LENGTH", .length), ("MINLENGTH", .minLength), ("MAXLENGTH", .maxLength),
    ("MININCLUSIVE", .minInclusive), ("MINEXCLUSIVE", .minExclusive),
    ("MAXINCLUSIVE", .maxInclusive), ("MAXEXCLUSIVE", .maxExclusive),
    ("TOTALDIGITS", .ignored), ("FRACTIONDIGITS", .ignored), ("PATTERN", .pattern)]

def tryKeywords {α : Type} : List (String × α) → Scan (Option α)
  | [] => return none
  | (keyword, meaning) :: rest => do
    if ← tryKeyword keyword then
      return some meaning
    else
      tryKeywords rest

def facetValue (nc : NodeConstraint) : Facet → Scan NodeConstraint
  | .length => do return { nc with length := .int (← count) }
  | .minLength => do return { nc with minLength := .int (← count) }
  | .maxLength => do return { nc with maxLength := .int (← count) }
  | .minInclusive => do return { nc with minInclusive := ← number }
  | .minExclusive => do return { nc with minExclusive := ← number }
  | .maxInclusive => do return { nc with maxInclusive := ← number }
  | .maxExclusive => do return { nc with maxExclusive := ← number }
  | .ignored => do
    let _ ← number
    return nc
  | .pattern => do return { nc with pattern := .string (← string) }

/-- Reads one facet into a constraint, if one comes next. -/
def facet? (nc : NodeConstraint) : Scan (Option NodeConstraint) := do
  match ← tryKeywords facetKeywords with
  | some facet => return some (← facetValue nc facet)
  | none =>
    if (← peek) = some '/' then
      let (pattern, flags) ← regexp
      return some { nc with pattern := .string pattern, flags := optional flags }
    else
      return none

/-- Reads facets into a constraint as long as they come, and tells whether
there was one. A facet that comes twice has its last value. -/
def facets (nc : NodeConstraint) (found : Bool) : Nat → Scan (NodeConstraint × Bool)
  | 0 => throw .outOfBound
  | bound + 1 => do
    match ← facet? nc with
    | some nc => facets nc true bound
    | none => return (nc, found)

def nodeKindKeywords : List (String × NodeKind) :=
  [("IRI", .iri), ("BNODE", .bnode), ("NONLITERAL", .nonliteral), ("LITERAL", .literal)]

/-- Reads what a node constraint starts with, facets apart: a node kind, a
value set or a datatype. The result tells whether there was any of these. -/
def constraintHead (names : Names) (bound : Nat) : Scan (NodeConstraint × Bool) := do
  match ← tryKeywords nodeKindKeywords with
  | some kind => return ({ nodeKind := some kind }, true)
  | none =>
    if (← peek) = some '[' then
      return ({ values := some (← valueSet names bound) }, true)
    else if ← atIri then
      return ({ datatype := .string (← iri names) }, true)
    else
      return ({}, false)

/-- Reads a node constraint, if one comes next. -/
def nodeConstraint? (names : Names) (bound : Nat) : Scan (Option NodeConstraint) := do
  let (head, started) ← constraintHead names bound
  let (nc, found) ← facets head started bound
  return if found then some nc else none

end ShapeQuery.Compact.Scan
