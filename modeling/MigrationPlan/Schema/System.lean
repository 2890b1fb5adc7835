import MigrationPlan.Fault
import MigrationPlan.Schema.Snapshot

/- Systems that describe objects. -/
namespace MigrationPlan
open Text

structure System where
  name : String
  describe : String → Except Fault Snapshot

structure Systems where
  source : System
  target : System

def Systems.on (s : Systems) : Side → System
  | .source => s.source
  | .target => s.target

structure Catalog where
  name : String
  objects : List Snapshot := []

namespace Catalog

def register (c : Catalog) (s : Snapshot) : Catalog :=
  { c with objects := (c.objects.filter fun t => !sameName t.name s.name) ++ [s] }

def ofList (name : String) (objects : List Snapshot) : Catalog := objects.foldl register { name }

def object? (c : Catalog) (name : String) : Option Snapshot :=
  c.objects.find? fun s => sameName s.name name

def hasObject (c : Catalog) (name : String) : Bool := (c.object? name).isSome

def describe (c : Catalog) (object : String) : Except Fault Snapshot :=
  match c.object? object with
  | some s => .ok s
  | none => .error (.describe (.unknownObject object c.name))

def system (c : Catalog) : System := { name := c.name, describe := c.describe }

end Catalog

end MigrationPlan
