import ShapeQuery.Query.Group
import ShapeQuery.Text.Alphanumeric

/-!
Passes over a finished group: filters that have a plain group to themselves move up into the group
around it, the first of some alternatives loses its `UNION`, and a variable is replaced by a term.
-/
namespace ShapeQuery.Group

def isFilterLeaf (group : Group) : Bool :=
  group.clause.isNone && group.suffix == "" && group.children.isEmpty && !group.lines.isEmpty &&
    group.lines.all isFilter

mutual

/-- Moves the lines of plain groups that hold filters only into the group
around them, from the inside out. -/
def bubbleFilters : Group → Group
  | ⟨clause, suffix, lines, children⟩ =>
    let (lifted, kept) := bubbleChildren children
    ⟨clause, suffix, lines ++ lifted, kept⟩

/-- The lines that move out of some groups, and the groups that stay. -/
def bubbleChildren : List Group → List String × List Group
  | [] => ([], [])
  | child :: rest =>
    let child := child.bubbleFilters
    let (lifted, kept) := bubbleChildren rest
    if child.isFilterLeaf then (child.lines ++ lifted, kept) else (lifted, child :: kept)

end

def untagUnion (group : Group) : Group :=
  if group.clause = some .union then { group with clause := none } else group

mutual

/-- Takes the mark of an alternative from the first group at every level. A
union is written between groups, so the first of them has no mark. -/
def stripLeadingUnion : Group → Group
  | ⟨clause, suffix, lines, children⟩ => ⟨clause, suffix, lines, stripChildren true children⟩

def stripChildren (first : Bool) : List Group → List Group
  | [] => []
  | child :: rest =>
    let child := child.stripLeadingUnion
    (if first then child.untagUnion else child) :: stripChildren false rest

end

/-- Brings a finished group into the form that is written out. Filters move up
first, for this can make another group the first of its level. -/
def postProcess (group : Group) : Group :=
  group.bubbleFilters.stripLeadingUnion

/-- Whether a text starts with a variable that does not go on as a longer name.
Replacing it leaves longer names alone. -/
def startsVariable (variableName text : List Char) : Bool :=
  variableName.isPrefixOf text &&
    match text.drop variableName.length with
    | [] => true
    | c :: _ => !Text.isWord c

/-- Replaces the whole occurrences of a variable in a text of which `skip`
characters have been replaced already. -/
def replaceFrom (variableName term : List Char) : Nat → List Char → List Char
  | _, [] => if variableName.isEmpty then term else []
  | skip + 1, _ :: rest => replaceFrom variableName term skip rest
  | 0, c :: rest =>
    if startsVariable variableName (c :: rest) then
      match variableName with
      | [] => term ++ c :: replaceFrom variableName term 0 rest
      | _ :: more => term ++ replaceFrom variableName term more.length rest
    else
      c :: replaceFrom variableName term 0 rest

/-- Replaces the whole occurrences of a variable in a line. -/
def substituteLine (variableName term line : String) : String :=
  String.ofList (replaceFrom variableName.toList term.toList 0 line.toList)

mutual

/-- Replaces the whole occurrences of a variable in all lines of a group. -/
def substitute (variableName term : String) : Group → Group
  | ⟨clause, suffix, lines, children⟩ =>
    ⟨clause, suffix, lines.map (substituteLine variableName term),
      substituteAll variableName term children⟩

def substituteAll (variableName term : String) : List Group → List Group
  | [] => []
  | group :: rest => group.substitute variableName term :: substituteAll variableName term rest

end

end ShapeQuery.Group
