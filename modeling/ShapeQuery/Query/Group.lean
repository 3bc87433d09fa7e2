/-!
Group graph patterns of a query. A group has pattern lines of its own, which come first, and nested
groups; a clause word in front of it says how it is combined with its surroundings.
-/
namespace ShapeQuery

/-- How a group is combined with what stands before it. A group without a
clause is joined. -/
inductive Clause where
  | optional
  | minus
  | union
  | notExists
deriving DecidableEq, Repr

def Clause.word : Clause → String
  | .optional => "OPTIONAL"
  | .minus => "MINUS"
  | .union => "UNION"
  | .notExists => "FILTER NOT EXISTS"

def Clause.all : List Clause := [.optional, .minus, .union, .notExists]

def Clause.ofWord? (word : String) : Option Clause :=
  Clause.all.find? (·.word = word)

/-- A group: its clause, its own lines, the groups inside it, and text behind
its closing brace. -/
structure Group where
  clause : Option Clause := none
  suffix : String := ""
  lines : List String := []
  children : List Group := []
deriving Inhabited, Repr

def isFilter (line : String) : Bool :=
  "FILTER".toList.isPrefixOf line.toList

def isValues (line : String) : Bool :=
  "VALUES".toList.isPrefixOf line.toList

/-- A triple pattern; an inverse one points from the object to the subject. -/
def triplePattern (subject predicate object : String) (inverse : Bool) : String :=
  if inverse then object ++ " <" ++ predicate ++ "> " ++ subject ++ " ."
  else subject ++ " <" ++ predicate ++ "> " ++ object ++ " ."

namespace Group

def isEmpty (group : Group) : Bool :=
  group.clause.isNone && group.suffix == "" && group.children.isEmpty && group.lines.isEmpty

/-- Adds a nested group unless it carries nothing. So an expression without any
condition leaves no trace in the query. -/
def addChild (group child : Group) : Group :=
  if child.isEmpty then group else { group with children := group.children ++ [child] }

/-- Adds a nested group if there is one and it carries something. -/
def addChild? (group : Group) : Option Group → Group
  | some child => group.addChild child
  | none => group

def addLines (group : Group) (lines : List String) : Group :=
  { group with lines := group.lines ++ lines }

/-- One alternative of a disjunction as a single group, or nothing if there is
nothing in it. A clause of the alternative itself stays, inside a group of its
own. -/
def asBranch (group : Group) (lines : List String) (clause : Option Clause) : Option Group :=
  if group.isEmpty then
    if lines.isEmpty then none else some { clause, lines }
  else if group.clause.isNone then
    some { group with clause, lines := lines ++ group.lines }
  else
    some { clause, lines, children := [group] }

mutual

/-- A group and all groups inside it, outer ones first. -/
def nodes : Group → List Group
  | ⟨clause, suffix, lines, children⟩ => ⟨clause, suffix, lines, children⟩ :: nodesOfAll children

def nodesOfAll : List Group → List Group
  | [] => []
  | group :: rest => group.nodes ++ nodesOfAll rest

end

end Group

end ShapeQuery
