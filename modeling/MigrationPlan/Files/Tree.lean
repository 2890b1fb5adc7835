import MigrationPlan.Fault
import MigrationPlan.Files.Path

/- File trees: a working directory with files in it, and the faults of reading and writing there. -/
namespace MigrationPlan

structure FileTree where
  files : List (List String × ByteArray) := []
  directories : List (List String) := []

namespace FileTree

inductive Place where
  | file (steps : List String) (content : ByteArray)
  | directory (steps : List String)
  | outside

def at? (t : FileTree) (steps : List String) : Option Place :=
  match t.files.lookup steps with
  | some content => some (.file steps content)
  | none =>
    let paths := t.files.map Prod.fst ++ t.directories
    if steps.isEmpty || paths.any steps.isPrefixOf then some (.directory steps) else none

def step (t : FileTree) (place : Place) (name : String) : Except FileFault Place :=
  match place with
  | .file _ _ => .error .notDirectory
  | .outside => if name == ".." then .ok .outside else .error .notFound
  | .directory steps =>
    if name == ".." then .ok (if steps.isEmpty then .outside else .directory steps.dropLast)
    else if name.utf8ByteSize > 255 then .error .nameTooLong
    else ((t.at? (steps ++ [name])).map .ok).getD (.error .notFound)

def walk (t : FileTree) (place : Place) : List String → Except FileFault Place
  | [] => .ok place
  | name :: rest => (t.step place name).bind fun next => t.walk next rest

def start (path : String) : Place := if Path.isAbsolute path then .outside else .directory []

def checkPath (path : String) : Except FileFault Unit :=
  if path.contains '\x00' then .error .nulInName
  else if path.isEmpty then .error .notFound
  else if path.utf8ByteSize ≥ 4096 then .error .nameTooLong
  else .ok ()

def readBytes (t : FileTree) (path : String) : Except FileFault ByteArray := do
  checkPath path
  match ← t.walk (start path) (Path.steps path) with
  | .file _ content => if Path.endsInDirectory path then .error .notDirectory else .ok content
  | _ => .error .isDirectory

def read (t : FileTree) (path : String) : Except FileFault String := do
  match String.fromUTF8? (← t.readBytes path) with
  | some text => .ok text
  | none => .error .notText

def putFile (t : FileTree) (steps : List String) (content : ByteArray) : FileTree :=
  { t with files := (steps, content) :: t.files.filter fun f => f.1 != steps }

def write (t : FileTree) (path : String) (text : String) : Except FileFault FileTree := do
  checkPath path
  let parts := Path.parts path
  let parent ← t.walk (start path) (Path.stepsOf parts.dropLast)
  match parent, parts.getLast? with
  | .file _ _, _ => .error .notDirectory
  | _, none => .error .isDirectory
  | .outside, _ => .error (if Path.endsInDirectory path then .isDirectory else .notFound)
  | .directory above, some name =>
    if Path.endsInDirectory path then .error .isDirectory
    else if name.utf8ByteSize > 255 then .error .nameTooLong
    else
      match t.at? (above ++ [name]) with
      | some (.directory _) => .error .isDirectory
      | _ => .ok (t.putFile (above ++ [name]) text.toUTF8)

end FileTree

end MigrationPlan
