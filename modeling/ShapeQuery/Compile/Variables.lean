import ShapeQuery.Digest.Md5

/-!
Query variables. A stable variable belongs to a shape label and is the same wherever the shape
occurs; a fresh variable is used once, and is numbered.
-/
namespace ShapeQuery.Compile

/-- The name of the variable of a shape label, without its question mark. It is
taken from a digest, so that every label gives a name. -/
def stableName (label : String) : String :=
  "shape_" ++ String.ofList (Md5.digest label.toUTF8.data.toList)

def stableVariable (label : String) : String :=
  "?" ++ stableName label

/-- The name of the fresh variable with a number, without its question mark.
The number is written in hexadecimal, with zeros before it. -/
def freshName (number : Nat) : String :=
  "litOrObj_" ++ String.ofList ((Nat.toDigits 16 number).leftpad 32 '0')

def freshVariable (number : Nat) : String :=
  "?" ++ freshName number

end ShapeQuery.Compile
