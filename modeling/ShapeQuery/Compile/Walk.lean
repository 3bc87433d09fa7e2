import ShapeQuery.Compile.Constraint
import ShapeQuery.Compile.Diagnostic
import ShapeQuery.Compile.Variables
import ShapeQuery.Text.Utf8

/-!
The state of a walk over a schema: the number of the next fresh variable, the problems found so far,
and what is being expanded on the way from the start to here. The state outlives a fault.
-/
namespace ShapeQuery.Compile

inductive Target where
  | shape (label : String)
  | tripleExpr (label : String)
deriving DecidableEq, Repr

/-- The state of a walk: the problems so far, the number of the next fresh
variable, and the targets that are being expanded. -/
structure Progress where
  fresh : Nat := 0
  diagnostics : List Diagnostic := []
  expanding : List Target := []
deriving Inhabited, Repr

/-- Why a walk stops. -/
inductive Fault where
  /-- A value of the wrong kind is used. -/
  | misuse (misuse : Json.Misuse)
  /-- More references are nested than there are targets. -/
  | nestedTooDeep
  /-- The start shape has a label that is no text, so no variable can be named
  after it. -/
  | unencodable (codes : List Nat)
deriving DecidableEq, Repr

def Fault.message : Fault → String
  | .misuse use => use.message
  | .nestedTooDeep => "references nested too deep"
  | .unencodable codes => Text.unencodableMessage codes

abbrev Walk (α : Type) := EStateM Fault Progress α

namespace Walk

/-- Takes the next fresh variable. Numbers are never used again, also after a
part of the query is dropped. -/
def fresh : Walk String := do
  let progress ← get
  set { progress with fresh := progress.fresh + 1 }
  return freshVariable progress.fresh

def report (diagnostic : Diagnostic) : Walk Unit :=
  modify fun progress => { progress with diagnostics := progress.diagnostics ++ [diagnostic] }

/-- Uses a checked result. -/
def use {α : Type} : Checked α → Walk α
  | .ok result => pure result
  | .error misuse => throw (.misuse misuse)

def isExpanding (target : Target) : Walk Bool := do
  return (← get).expanding.contains target

/-- Walks with a target marked as being expanded. The mark is taken away
afterwards, also after a fault. -/
def whileExpanding {α : Type} (target : Target) (walk : Walk α) : Walk α := fun progress =>
  match walk { progress with expanding := target :: progress.expanding } with
  | .ok result after => .ok result { after with expanding := after.expanding.erase target }
  | .error fault after => .error fault { after with expanding := after.expanding.erase target }

end Walk

end ShapeQuery.Compile
