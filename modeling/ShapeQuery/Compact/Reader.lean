import ShapeQuery.Compact.Grammar

/-!
Reading schemas in ShExC, the compact syntax of shape schemas: namespaces, base, imports and start
in any order among the declarations. Each of them is in force for what follows it.
-/
namespace ShapeQuery.Compact

namespace Scan

def shapeDecl (names : Names) (bound : Nat) (abstract : Bool) : Scan ShapeDecl := do
  let id ← label names
  if ← tryKeyword "EXTERNAL" then
    return { id := .string id, expr := .external, abstract }
  else
    let expr ← shapeExpr names bound
    match expr with
    | .any => return { id := .string id, expr := .shape none false [], abstract }
    | expr => return { id := .string id, expr, abstract }

def atShapeDecl : Scan Bool := do
  if ← atIri then return true
  return ['_', ':'].isPrefixOf (← rest)

end Scan

open Scan

/-- What has been read of a schema, and the names in force. A declaration of a
name only concerns the statements behind it. -/
structure Progress where
  schema : Schema := {}
  names : Names := {}

def Progress.addShape (progress : Progress) (decl : ShapeDecl) : Progress :=
  { progress with schema := { progress.schema with shapes := progress.schema.shapes ++ [decl] } }

def namespaceDecl (progress : Progress) : Scan Progress := do
  match ← tryNamespaceName with
  | none => fail .expectedNamespaceName
  | some name =>
    let name := String.ofList name
    let iri ← resolvedIriRef progress.names
    let schema := progress.schema
    return {
      schema := { schema with namespaces := schema.namespaces ++ [⟨name, iri⟩] }
      names := progress.names.declare name iri }

/-- Reads one statement of a schema. What starts with none of the keywords has
to be a declaration. -/
def statement (bound : Nat) (progress : Progress) : Scan Progress := do
  let { schema, names } := progress
  if ← tryKeyword "PREFIX" then
    namespaceDecl progress
  else if ← tryKeyword "BASE" then
    let base ← resolvedIriRef names
    return { progress with names := { names with base := some base } }
  else if ← tryKeyword "IMPORT" then
    let found ← iri names
    return { progress with schema := { schema with imports := schema.imports ++ [.string found] } }
  else if ← tryKeyword "START" then
    expect "="
    let expr ← shapeExpr names bound
    return { progress with schema := { schema with start := .ofExpr expr } }
  else if ← tryKeyword "ABSTRACT" then
    return progress.addShape (← shapeDecl names bound true)
  else if ← atShapeDecl then
    return progress.addShape (← shapeDecl names bound false)
  else
    fail .unexpectedToken

/-- Reads statements up to the end of the text. -/
def statements (bound : Nat) : Nat → Progress → Scan Schema
  | 0, _ => throw .outOfBound
  | left + 1, progress => do
    if ← atEnd then
      return progress.schema
    else
      statements bound left (← statement bound progress)

def schema : Scan Schema := do
  let bound := (← get).bound
  statements bound bound {}

/-- The schema that a ShExC text holds. The bound comes from the length of the
text and is never used up. -/
def parse (text : List Char) : Except Fault Schema :=
  schema.run' (Cursor.start text)

end ShapeQuery.Compact
