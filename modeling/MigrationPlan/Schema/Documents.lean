import MigrationPlan.Files.Path
import MigrationPlan.Json.Reader
import MigrationPlan.Schema.System

/- Directories of schema documents as systems: the document of an object is the JSON file with its
   name. -/
namespace MigrationPlan

namespace Documents

def pathOf (directory object : String) : String := Path.join directory (object ++ ".json")

def describe (w : Wording) (read : Reader) (directory object : String) :
    Except DescribeFault Snapshot :=
  let path := pathOf directory object
  match read path with
  | .error f => .error (.unreadable path f)
  | .ok text =>
    match (Json.read? text).bind Snapshot.read with
    | none => .error (.malformed path (w.document text))
    | some s =>
      if Text.sameName s.name object then .ok s else .error (.otherObject path s.name object)

def system (w : Wording) (read : Reader) (directory : String) : System where
  name := directory
  describe object := (describe w read directory object).mapError .describe

end Documents

end MigrationPlan
