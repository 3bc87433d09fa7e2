/-!
A place in a source text. The cursor keeps the whole text for error messages and the part from its
position on for reading. It can stand beyond the end of the text: an escape or a keyword may count
more characters than the text has left.
-/
namespace ShapeQuery.Compact

structure Cursor where
  text : List Char
  pos : Nat
  rest : List Char
  rest_eq : rest = text.drop pos

namespace Cursor

def start (text : List Char) : Cursor :=
  ⟨text, 0, text, List.drop_zero.symm⟩

def advance (c : Cursor) (n : Nat) : Cursor :=
  ⟨c.text, c.pos + n, c.rest.drop n, by rw [c.rest_eq, List.drop_drop]⟩

@[simp] theorem advance_text (c : Cursor) (n : Nat) : (c.advance n).text = c.text := rfl

@[simp] theorem advance_pos (c : Cursor) (n : Nat) : (c.advance n).pos = c.pos + n := rfl

@[simp] theorem advance_rest (c : Cursor) (n : Nat) : (c.advance n).rest = c.rest.drop n := rfl

/-- A bound for reading the text: more than one step for each of its
characters. -/
def bound (c : Cursor) : Nat := c.text.length + 2

/-- Whether the text goes on with a given one. Beyond the end it does not go on
at all. -/
def startsWith (c : Cursor) (text : List Char) : Bool :=
  if text.isEmpty then c.pos ≤ c.text.length else text.isPrefixOf c.rest

/-- The surroundings of the cursor: up to twenty characters before it and
thirty after it. -/
def context (c : Cursor) : List Char :=
  (c.text.drop (c.pos - 20)).take (c.pos + 30 - (c.pos - 20))

end Cursor

def isBlank (c : Char) : Bool :=
  c == ' ' || c == '\t' || c == '\n' || c == '\r'

inductive Skipping where
  | blanks
  /-- A comment that ends with its line. -/
  | lineComment
  /-- A comment that ends with `*/`. -/
  | blockComment

/-- The number of characters of blanks and comments at the start of a text. A
comment that is not closed takes in the rest of the text. -/
def blankLength : Skipping → List Char → Nat
  | _, [] => 0
  | .blanks, '#' :: rest => blankLength .lineComment rest + 1
  | .blanks, '/' :: '*' :: rest => blankLength .blockComment rest + 2
  | .blanks, c :: rest => if isBlank c then blankLength .blanks rest + 1 else 0
  | .lineComment, c :: rest =>
    blankLength (if c = '\n' then .blanks else .lineComment) rest + 1
  | .blockComment, '*' :: '/' :: rest => blankLength .blanks rest + 2
  | .blockComment, _ :: rest => blankLength .blockComment rest + 1

def Cursor.skip (c : Cursor) : Cursor :=
  c.advance (blankLength .blanks c.rest)

end ShapeQuery.Compact
