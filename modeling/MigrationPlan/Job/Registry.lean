import MigrationPlan.Fault
import MigrationPlan.Text.Fold

/- The registry of a job: which task has which object. -/
namespace MigrationPlan
open Text

structure Registry where
  entries : List (String × Nat) := []
  deriving DecidableEq, Repr

namespace Registry

def indexOf? (r : Registry) (object : String) : Option Nat := r.entries.lookup (fold object)

def contains (r : Registry) (object : String) : Bool := (r.indexOf? object).isSome

def size (r : Registry) : Nat := r.entries.length

def isEmpty (r : Registry) : Bool := r.entries.isEmpty

def register (r : Registry) (object : String) (index : Nat) : Except Fault Registry :=
  if r.contains object then .error (.object object .listedTwice)
  else .ok { entries := r.entries ++ [(fold object, index)] }

end Registry

end MigrationPlan
