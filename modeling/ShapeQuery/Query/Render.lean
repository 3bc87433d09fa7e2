import ShapeQuery.Query.Passes

/-!
Writing queries. A group takes a line for its opening brace and one for its closing brace; what is
inside stands between them, two blanks further in.
-/
namespace ShapeQuery

def indent (depth : Nat) : String :=
  String.ofList (List.replicate (2 * depth) ' ')

def Group.head (clause : Option Clause) : String :=
  match clause with
  | some clause => clause.word ++ " \x7b"
  | none => "\x7b"

namespace Group

mutual

/-- The lines of a group at a depth. -/
def renderLines (depth : Nat) : Group → List String
  | ⟨clause, suffix, lines, children⟩ =>
    (indent depth ++ head clause) ::
      (lines.map (indent (depth + 1) ++ ·) ++ renderAll (depth + 1) children ++
        [indent depth ++ "\x7d" ++ suffix])

def renderAll (depth : Nat) : List Group → List String
  | [] => []
  | group :: rest => group.renderLines depth ++ renderAll depth rest

end

def render (depth : Nat) (group : Group) : String :=
  "\n".intercalate (group.renderLines depth)

/-- The members of a list without later repetitions; `seen` are known already. -/
def distinct (seen : List String) : List String → List String
  | [] => []
  | line :: rest =>
    if seen.contains line then distinct seen rest else line :: distinct (line :: seen) rest

/-- The triple patterns of a group and the groups inside it, each once. Filters
and lists of values are left out. -/
def triples (group : Group) : List String :=
  distinct [] (group.nodes.flatMap fun node =>
    node.lines.filter fun line => !isFilter line && !isValues line)

end Group

inductive Form where
  | construct
  | select
  | ask
deriving DecidableEq, Repr

def Form.word : Form → String
  | .construct => "CONSTRUCT"
  | .select => "SELECT"
  | .ask => "ASK"

def Form.all : List Form := [.construct, .select, .ask]

/-- The text of a query over a group. -/
def Form.render (form : Form) (group : Group) : String :=
  let body := group.render 1
  match form with
  | .construct =>
    let template := "\n".intercalate (group.triples.map (indent 1 ++ ·))
    "CONSTRUCT \x7b\n" ++ template ++ "\n\x7d WHERE \x7b\n" ++ body ++ "\n\x7d"
  | .select => "SELECT * WHERE \x7b\n" ++ body ++ "\n\x7d"
  | .ask => "ASK \x7b\n" ++ body ++ "\n\x7d"

end ShapeQuery
