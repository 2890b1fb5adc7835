import MigrationPlan.Fault
import MigrationPlan.Query.Parser
import MigrationPlan.Selection.Pattern

/- Resolution of shorthand queries: the record id comes first, keywords make up a pattern, and
   repeated entries become one. -/
namespace MigrationPlan
open Text

structure Resolution where
  query : Query
  pattern : Option Pattern
  deriving DecidableEq, Repr

namespace Resolution

def isRecordId (e : Entry) : Bool := e.plainName?.any fun name => sameName name recordId

def keyword? (e : Entry) : Option String :=
  if isRecordId e then none else e.plainName?.filter Pattern.isKeyword

def keywords (l : List Entry) : List String := l.filterMap keyword?

def resolved (l : List Entry) : List Entry :=
  SelectList.distinct (.plain recordId :: l.filter fun e => !isRecordId e && (keyword? e).isNone)

def patternOf (l : List Entry) : Option Pattern :=
  let p := Pattern.ofTokens (keywords l)
  if p.isEmpty then none else some p

/-- The word behind the first `FROM` that has one, as a guess at the object of a text that is no
    query. -/
def objectHint? : List (List Char) → Option (List Char)
  | first :: second :: rest =>
    if first.map Char.toLower == "from".toList then some second else objectHint? (second :: rest)
  | _ => none

def hintedObject (s : String) : String :=
  (objectHint? (words s.toList)).elim "<unknown>" String.ofList

def ofQuery (q : Query) : Resolution :=
  { query := { q with entries := resolved q.entries }, pattern := patternOf q.entries }

def ofText (s : String) : Except Fault Resolution :=
  match Query.parse s with
  | .error e => .error (.object (hintedObject s) (.malformedQuery (trimmed s) e))
  | .ok q => .ok (ofQuery q)

end Resolution

end MigrationPlan
