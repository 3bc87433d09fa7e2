/-!
Cutting texts at characters, and replacing characters.
-/
namespace ShapeQuery.Text

/-- The pieces of a text between the occurrences of a character. There is one
piece more than there are occurrences, so the list is never empty. -/
def splitAt (mark : Char) : List Char → List (List Char)
  | [] => [[]]
  | c :: rest =>
    match splitAt mark rest with
    | piece :: pieces => if c = mark then [] :: piece :: pieces else (c :: piece) :: pieces
    | [] => [[c]]

def joinWith (mark : Char) : List (List Char) → List Char
  | [] => []
  | [piece] => piece
  | piece :: pieces => piece ++ mark :: joinWith mark pieces

/-- The text before the first occurrence of a character and, if it occurs, the
text after it. -/
def cutFirst (mark : Char) (text : List Char) : List Char × Option (List Char) :=
  match text.dropWhile (· != mark) with
  | [] => (text, none)
  | _ :: after => (text.takeWhile (· != mark), some after)

/-- A text with another text in place of a character, wherever it occurs. -/
def replaceChar (mark : Char) (written : List Char) (text : List Char) : List Char :=
  text.flatMap fun c => if c = mark then written else [c]

def hasPart (part : List Char) : List Char → Bool
  | [] => part.isEmpty
  | c :: rest => part.isPrefixOf (c :: rest) || hasPart part rest

end ShapeQuery.Text
