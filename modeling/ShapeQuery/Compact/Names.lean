import ShapeQuery.Compact.Scan

/-!
IRIs and labels in the compact syntax, under the namespaces and the base declared so far.
-/
namespace ShapeQuery.Compact

/-- The names in force: namespaces, the latest first, and the base of relative
IRIs. A namespace that is declared again hides the earlier one. -/
structure Names where
  namespaces : List (String × String) := []
  base : Option String := none

/-- Resolves an IRI against the base; without a base it stays as it is. -/
def Names.resolve (names : Names) (iri : String) : Except Fault String :=
  match names.base with
  | none => .ok iri
  | some base =>
    match Iri.resolve base.toList iri.toList with
    | .ok resolved => .ok (String.ofList resolved)
    | .error fault => .error (.badBase fault)

def Names.declare (names : Names) (name iri : String) : Names :=
  { names with namespaces := (name, iri) :: names.namespaces }

namespace Scan

/-- Reads an IRI between angle brackets and resolves it. -/
def resolvedIriRef (names : Names) : Scan String := do
  let iri ← iriRef
  names.resolve iri

def iri (names : Names) : Scan String := do
  if (← peek) = some '<' then
    resolvedIriRef names
  else
    let (name, localPart) ← prefixedName
    match names.namespaces.lookup name with
    | some space => return space ++ localPart
    | none => fail (.unknownNamespace name)

def atIri : Scan Bool := do
  if (← peek) = some '<' then return true
  atPrefixedName

/-- Reads a label: an IRI or a blank node. -/
def label (names : Names) : Scan String := do
  if ← tryText "_:" then
    match ← lexeme? blankLabel? List.length with
    | some name => return "_:" ++ String.ofList name
    | none => fail .expectedBlankLabel
  else
    iri names

def rdfType : String := "http://www.w3.org/1999/02/22-rdf-syntax-ns#type"

/-- Whether a text starts with the word `a` as a predicate. A blank or the
start of a value has to follow, or the word would be the start of a name. -/
def startsRdfType : List Char → Bool
  | 'a' :: c :: _ => Text.isBlank c || ['<', '@', '[', '(', '.', '{'].contains c
  | _ => false

def predicate (names : Names) : Scan String := do
  if startsRdfType (← rest) then
    advance 1
    return rdfType
  else
    iri names

end Scan

end ShapeQuery.Compact
