import ShapeQuery.Command.Options

/-!
File names: the syntax that an extension stands for, and the names of output files.
-/
namespace ShapeQuery.Command

/-- Whether a name ends with an extension, in any case. The extensions are
ASCII, so only ASCII letters matter. -/
def hasExtension (name : List Char) (extension : String) : Bool :=
  extension.toList.reverse.isPrefixOf (name.reverse.map Char.toLower)

def jsonExtensions : List String := [".json", ".shexj"]

def schemaExtensions : List String := [".shex", ".shexc"] ++ jsonExtensions

def isSchemaName (name : String) : Bool :=
  schemaExtensions.any (hasExtension name.toList)

def formatOf (path : String) : Format :=
  if jsonExtensions.any (hasExtension path.toList) then .shexj else .shexc

/-- A file name without its last extension. Points at the start of the name do
not count. -/
def dropExtension (name : List Char) : List Char :=
  let reversed := name.reverse
  let extension := reversed.takeWhile (· != '.')
  match reversed.drop extension.length with
  | [] => name
  | _ :: stem => if stem.all (· == '.') then name else stem.reverse

/-- The name of the output file for a schema file. It depends on the name
without its extension, so two schema files can have the same one. -/
def outputName (name : String) : String :=
  String.ofList (dropExtension name.toList) ++ ".rq"

def joinPath (directory name : String) : String :=
  if directory = "" ∨ directory.toList.getLast? = some '/' then directory ++ name
  else directory ++ "/" ++ name

/-- The directory part of a path, without the slashes at its end. -/
def directoryOf (path : String) : String :=
  let head := (path.toList.reverse.dropWhile (· != '/'))
  let trimmed := head.dropWhile (· == '/')
  String.ofList (if trimmed.isEmpty then head.reverse else trimmed.reverse)

end ShapeQuery.Command
