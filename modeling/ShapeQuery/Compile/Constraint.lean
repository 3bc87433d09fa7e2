import ShapeQuery.Query.Group
import ShapeQuery.Schema.Basic
import ShapeQuery.Text.Blank
import ShapeQuery.Text.Split

/-!
Node constraints as pattern lines on a variable: filters, and a list of values for
the plain terms of a value set.
-/
namespace ShapeQuery.Compile

abbrev Checked (α : Type) := Except Json.Misuse α

/-- What a string literal cannot hold as it is, and how it is written, in the
order of replacement. The backslash comes first, for the others are written
with one. -/
def literalEscapes : List (Char × List Char) :=
  [('\\', ['\\', '\\']), ('"', ['\\', '"']), ('\n', ['\\', 'n']), ('\r', ['\\', 'r'])]

/-- The string literal for a text. The replacements are made one after the
other over the whole text, so their order matters. -/
def quote (text : String) : String :=
  let escaped := literalEscapes.foldl
    (fun chars (mark, written) => Text.replaceChar mark written chars)
    text.toList
  String.ofList ('"' :: escaped ++ ['"'])

def quoteValue : Json → Checked String
  | .string text => .ok (quote text)
  | .illFormed codes => .ok (quote (Json.mended codes))
  | value => .error (.noOperation value.kind "replace")

/-- A literal as a term: with its language if it has one, else with its
datatype if it has one. -/
def literalTerm (value datatype language : Json) : Checked String := do
  let text ← quoteValue value
  return if language.truthy then text ++ "@" ++ language.display
    else if datatype.truthy then text ++ "^^<" ++ datatype.display ++ ">"
    else text

/-- The number in a numeric facet: a double without a fractional part is
written as an integer. -/
def numberText (value : Json) : String :=
  match value with
  | .float x =>
    if x.isIntegral then
      match x.truncate? with
      | some n => decimalText n
      | none => value.display
    else value.display
  | value => value.display

def call (name : String) (arguments : List String) : String :=
  name ++ "(" ++ ", ".intercalate arguments ++ ")"

def startsTest (var : String) (stem : Json) : Checked String := do
  return call "STRSTARTS" [call "STR" [var], ← quoteValue stem]

/-- The test that a term has a language in a range; an absent range means every
language. -/
def languageTest (var : String) (stem : Json) : Checked String := do
  let range := if stem.truthy then stem else .string "*"
  return call "LANGMATCHES" [call "LANG" [var], ← quoteValue range]

def stemTest (var : String) (kind : StemKind) (stem : Json) : Checked String :=
  match kind with
  | .language => languageTest var stem
  | .iri | .literal => startsTest var stem

/-- The test of the stem of a range; a wildcard takes every term of the kind. -/
def rangeStemTest (var : String) (kind : StemKind) : Stem → Checked String
  | .text stem => stemTest var kind stem
  | .wildcard =>
    match kind with
    | .language => .ok (call "LANG" [var] ++ " != \"\"")
    | .iri | .literal => .ok (call "REGEX" [call "STR" [var], quote ".*"])

/-- The test that a term is not left out by an exclusion. An IRI is compared as
a term, a literal by its text and a language as it is written. -/
def exclusionTest (var : String) (kind : StemKind) : Exclusion → Checked String
  | .stem stem => do return "(!" ++ (← stemTest var kind stem) ++ ")"
  | .value value =>
    match kind with
    | .iri => .ok ("(" ++ var ++ " != <" ++ value.display ++ ">)")
    | .language => do return "(" ++ call "LANG" [var] ++ " != " ++ (← quoteValue value) ++ ")"
    | .literal => do return "(" ++ call "STR" [var] ++ " != " ++ (← quoteValue value) ++ ")"

/-- What an entry of a value set contributes: a term, or a condition on the variable. -/
inductive EntryPart where
  | term (text : String)
  | condition (text : String)

def entryPart (var : String) : ValueSetEntry → Checked EntryPart
  | .iri iri => .ok (.term ("<" ++ iri ++ ">"))
  | .literal value datatype language => do return .term (← literalTerm value datatype language)
  | .language tag => do return .condition (call "LANG" [var] ++ " = " ++ (← quoteValue tag))
  | .stem kind stem => do return .condition (← stemTest var kind stem)
  | .range kind stem exclusions => do
    let first ← rangeStemTest var kind stem
    let others ← exclusions.mapM (exclusionTest var kind)
    return .condition (" && ".intercalate (first :: others))

def EntryPart.term? : EntryPart → Option String
  | .term text => some text
  | .condition _ => none

def EntryPart.condition? : EntryPart → Option String
  | .term _ => none
  | .condition text => some text

def filterLine (condition : String) : String :=
  "FILTER(" ++ condition ++ ")"

/-- The filter for alternative conditions, if there are any. -/
def alternativesLine : List String → List String
  | [] => []
  | [condition] => [filterLine condition]
  | conditions => [filterLine (" || ".intercalate (conditions.map fun c => "(" ++ c ++ ")"))]

/-- The list of values for terms, if there are any. -/
def valuesLine (var : String) (terms : List String) : List String :=
  if terms.isEmpty then []
  else ["VALUES " ++ var ++ " \x7b " ++ " ".intercalate terms ++ " \x7d"]

/-- The lines for a value set: a filter for its conditions and a list of its
terms. A term must pass both of them. -/
def valueSetLines (entries : List ValueSetEntry) (var : String) : Checked (List String) := do
  let parts ← entries.mapM (entryPart var)
  return alternativesLine (parts.filterMap EntryPart.condition?) ++
    valuesLine var (parts.filterMap EntryPart.term?)

def nodeKindTest (var : String) : NodeKind → String
  | .iri => call "isIRI" [var]
  | .bnode => call "isBlank" [var]
  | .literal => call "isLiteral" [var]
  | .nonliteral => "!" ++ call "isLiteral" [var]

def lengthLine (var operator : String) (facet : Json) : List String :=
  if facet.isNull then []
  else [filterLine (call "STRLEN" [call "STR" [var]] ++ " " ++ operator ++ " " ++ facet.display)]

def patternLine (var : String) (pattern flags : Json) : Checked (List String) := do
  if pattern.isNull then
    return []
  let pattern ← quoteValue pattern
  if flags.truthy then
    return [filterLine (call "REGEX" [call "STR" [var], pattern, ← quoteValue flags])]
  else
    return [filterLine (call "REGEX" [call "STR" [var], pattern])]

def boundLine (var operator : String) (facet : Json) : List String :=
  if facet.isNull then []
  else [filterLine (var ++ " " ++ operator ++ " " ++ numberText facet)]

def facetLines (nc : NodeConstraint) (var : String) : Checked (List String) := do
  let pattern ← patternLine var nc.pattern nc.flags
  return lengthLine var "=" nc.length ++ lengthLine var ">=" nc.minLength ++
    lengthLine var "<=" nc.maxLength ++ pattern ++
    boundLine var ">=" nc.minInclusive ++ boundLine var ">" nc.minExclusive ++
    boundLine var "<=" nc.maxInclusive ++ boundLine var "<" nc.maxExclusive

def datatypeLine (var : String) (datatype : Json) : List String :=
  if datatype.truthy then
    [filterLine (call "datatype" [var] ++ " = <" ++ datatype.display ++ ">")]
  else []

def nodeKindLine (var : String) : Option NodeKind → List String
  | some kind => [filterLine (nodeKindTest var kind)]
  | none => []

def valuesLines (var : String) : Option (List ValueSetEntry) → Checked (List String)
  | some entries => valueSetLines entries var
  | none => .ok []

def constraintLines (nc : NodeConstraint) (var : String) : Checked (List String) := do
  let values ← valuesLines var nc.values
  let facets ← facetLines nc var
  return datatypeLine var nc.datatype ++ values ++ nodeKindLine var nc.nodeKind ++ facets

def conditionOf (filter : String) : String :=
  String.ofList (Text.trim (filter.toList.drop "FILTER".length))

/-- Combines filters into one. A single filter stays as it is, and of several
the conditions are put in brackets with the operator between them. -/
def mergeFilters (filters : List String) (operator : String) : String :=
  match filters with
  | [filter] => filter
  | filters => filterLine ((" " ++ operator ++ " ").intercalate (filters.map conditionOf))

end ShapeQuery.Compile
