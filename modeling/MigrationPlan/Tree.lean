/- Data trees: what configurations, schema documents and plans are written as and read from. -/
namespace MigrationPlan

inductive Tree where
  | null
  | flag (value : Bool)
  | integer (value : Int)
  | text (value : String)
  | list (items : List Tree)
  | record (members : List (String × Tree))
  /-- A value that no field here has: a number that is no integer, or text that holds half a
      surrogate pair. -/
  | other
  deriving Repr, Inhabited

namespace Tree

def texts (l : List String) : Tree := list (l.map text)

def memberOf? (name : String) : Option Tree → List (String × Tree)
  | none => []
  | some value => [(name, value)]

end Tree

end MigrationPlan
