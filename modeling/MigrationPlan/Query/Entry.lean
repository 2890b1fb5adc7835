import MigrationPlan.Text.Blank
import MigrationPlan.Text.Fold

/- Entries of a select list and the lists they form. An entry is known by its key, and keys are
   names: two keys that differ in ASCII case alone are one name. -/
namespace MigrationPlan
open Text

/-- `Name` is plain, `Account.Name` is a path and `$$Name$Email` a composite; any other text is an
    expression. -/
inductive Entry where
  | plain (name : String)
  | path (text : String)
  | composite (parts : List String)
  | expression (text : String)
  deriving DecidableEq, Repr

namespace Entry

def key : Entry → String
  | plain text | path text | expression text => text
  | composite parts => "$$" ++ "$".intercalate parts

def readParts (s : List Char) : List String :=
  (((s.splitOn '$').map trim).filter (! ·.isEmpty)).map String.ofList

def read (s : List Char) : Entry :=
  match trim s with
  | '$' :: '$' :: rest => composite (readParts rest)
  | text =>
    if text.contains '(' || text.contains ' ' then expression (String.ofList text)
    else if text.contains '.' then path (String.ofList text)
    else plain (String.ofList text)

def plainName? : Entry → Option String
  | plain name => some name
  | _ => none

def isNamed (e : Entry) (name : String) : Bool := sameName e.key name

end Entry

def recordId : String := "Id"

namespace SelectList

def selects (l : List Entry) (name : String) : Bool := l.any (·.isNamed name)

def insert (l : List Entry) (e : Entry) : List Entry :=
  if selects l e.key then l else l ++ [e]

def insertAll (l : List Entry) (more : List Entry) : List Entry := more.foldl insert l

def distinct (l : List Entry) : List Entry :=
  l.eraseDupsBy fun a b => sameName a.key b.key

end SelectList

end MigrationPlan
