import MigrationPlan.Query.Entry
import MigrationPlan.Text.Numeral

/- Queries as data and their canonical text. -/
namespace MigrationPlan

structure Query where
  object : String := ""
  entries : List Entry := []
  filter : Option String := none
  ordering : Option String := none
  limit : Option UInt64 := none
  offset : Option UInt64 := none
  deriving DecidableEq, Repr

namespace Query

def clauseText (keyword : String) : Option String → String
  | none => ""
  | some value => " " ++ keyword ++ " " ++ value

def wordText (n : UInt64) : String := String.ofList (Text.decimal n.toNat)

def keys (q : Query) : List String := q.entries.map Entry.key

def compose (q : Query) : String :=
  "SELECT " ++ ", ".intercalate q.keys ++ " FROM " ++ q.object
    ++ clauseText "WHERE" q.filter ++ clauseText "ORDER BY" q.ordering
    ++ clauseText "LIMIT" (q.limit.map wordText) ++ clauseText "OFFSET" (q.offset.map wordText)

def selects (q : Query) (name : String) : Bool := SelectList.selects q.entries name

end Query

end MigrationPlan
