import MigrationPlan.Text.Fold

/- Path texts: their steps, their joining, and the extension of the file they name. -/
namespace MigrationPlan.Path
open Text

def parts (path : String) : List String :=
  ((path.toList.splitOn '/').map String.ofList).filter (· != "")

def stepsOf (parts : List String) : List String := parts.filter (· != ".")

def steps (path : String) : List String := stepsOf (parts path)

def isAbsolute (path : String) : Bool := path.toList.head? == some '/'

/-- Whether the path can only name a directory: it ends in a slash, a dot or two dots. -/
def endsInDirectory (path : String) : Bool :=
  ["", ".", ".."].contains (((path.toList.splitOn '/').getLast?.map String.ofList).getD "")

def join (directory path : String) : String :=
  if isAbsolute path || directory.isEmpty then path
  else if directory.toList.getLast? == some '/' then directory ++ path
  else directory ++ "/" ++ path

/-- What follows the last dot of the file's name, unless the name begins with it. -/
def extension? (path : String) : Option String :=
  match (steps path).getLast? with
  | none => none
  | some name =>
    if name == ".." then none
    else
      let after := (name.toList.reverse.takeWhile (· != '.')).reverse
      let before := name.toList.take (name.length - after.length)
      if before.length ≤ 1 then none else some (String.ofList after)

def hasExtension (path extension : String) : Bool :=
  (extension? path).any fun x => sameName x extension

end MigrationPlan.Path
