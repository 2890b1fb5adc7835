import MigrationPlan.Text.Blank
import MigrationPlan.Text.Fold

/- Sets of names, which ignore ASCII case. -/
namespace MigrationPlan
open Text

structure NameSet where
  names : List String := []
  deriving DecidableEq, Repr

namespace NameSet

def ofList (l : List String) : NameSet :=
  { names := ((l.map fun s => fold (trimmed s)).filter fun s => !s.isEmpty) }

/-- Adds a name as it is, blanks included. -/
def insert (s : NameSet) (name : String) : NameSet := { names := fold name :: s.names }

def insertAll (s : NameSet) (l : List String) : NameSet := l.foldl insert s

def contains (s : NameSet) (name : String) : Bool := s.names.contains (fold name)

def isEmpty (s : NameSet) : Bool := s.names.isEmpty

def same (s t : NameSet) : Bool := s.names.all t.names.contains && t.names.all s.names.contains

end NameSet

end MigrationPlan
