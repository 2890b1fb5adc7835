import MigrationPlan.Fault
import MigrationPlan.Query.Entry
import MigrationPlan.Schema.Snapshot
import MigrationPlan.Selection.NameSet

/- Validation of a select list against a snapshot: plain names that the snapshot lacks are dropped
   with a warning, unless records could not be matched without one of them. -/
namespace MigrationPlan
open Text

/-- Objects that the platform keeps itself; their fields are not checked. -/
def specialObjects : List String :=
  ["Group", "Organization", "Profile", "RecordType", "User", "UserRole"]

def isSpecialObject (object : String) : Bool := specialObjects.any fun s => sameName s object

structure Warning where
  object : String
  field : String
  side : Side
  deriving DecidableEq, Repr

namespace Warning

def message (w : Warning) : String :=
  "field " ++ w.object ++ "." ++ w.field ++ " does not exist on the " ++ w.side.name
    ++ " side and was removed from the query"

def tree (w : Warning) : Tree :=
  .record [("object", .text w.object), ("field", .text w.field), ("side", w.side.tree)]

open Document in
def read {δ : Type} [Document δ] (d : δ) : Option Warning := do
  let m ← fields? (FieldName.ofNames ["object", "field", "side"]) d
  return {
    object := ← required m "object" text?
    field := ← required m "field" text?
    side := ← required m "side" Side.read }

end Warning

structure ValidationScope where
  object : String
  side : Side
  critical : NameSet
  unchecked : Bool := false

namespace ValidationScope

def isChecked (c : ValidationScope) : Bool := !c.unchecked && !isSpecialObject c.object

def missing (c : ValidationScope) (name : String) : Fault :=
  .object c.object
    (if sameName name recordId then .missingRecordId name c.side
      else .missingExternalId name c.side)

end ValidationScope

def missingNames (l : List Entry) (snapshot : Snapshot) : List String :=
  (l.filterMap Entry.plainName?).filter fun name => !snapshot.hasField name

def dropNamed (names : List String) (l : List Entry) : List Entry :=
  l.filter fun e => !names.any e.isNamed

def validateSelection (l : List Entry) (snapshot : Snapshot) (scope : ValidationScope) :
    Except Fault (List Entry × List Warning) :=
  if l.isEmpty then .error (.object scope.object .nothingSelected)
  else if !scope.isChecked then .ok (l, [])
  else
    let names := missingNames l snapshot
    match names.find? scope.critical.contains with
    | some name => .error (scope.missing name)
    | none =>
      .ok (dropNamed names l,
        names.map fun field => { object := scope.object, field, side := scope.side })

end MigrationPlan
