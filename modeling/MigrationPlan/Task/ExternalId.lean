import MigrationPlan.Query.Entry
import MigrationPlan.Task.Operation

/- External ids: the field, or the fields taken together, by which source records are matched to
   target records. -/
namespace MigrationPlan
open Text

structure ExternalId where
  text : String
  deriving DecidableEq, Repr

namespace ExternalId

/-- `$$A$B` and `A;B` both name the components A and B; empty components are dropped. -/
def readComponents (s : List Char) : List (List Char) :=
  let pieces := match s with
    | '$' :: '$' :: rest => rest.splitOn '$'
    | _ => s.splitOn ';'
  (pieces.map trim).filter (! ·.isEmpty)

def ofText (s : String) : ExternalId :=
  { text := String.ofList ([';'].intercalate (readComponents (trim s.toList))) }

def ofRecordId : ExternalId := { text := recordId }

def recordName : String := "Name"

def defaultFor (o : Operation) : ExternalId :=
  if o.matchesById then ofRecordId else { text := recordName }

def components (x : ExternalId) : List (List Char) := x.text.toList.splitOn ';'

def isComposite (x : ExternalId) : Bool := x.text.toList.contains ';'

def isRecordId (x : ExternalId) : Bool := sameName x.text recordId

def entry (x : ExternalId) : Entry :=
  if x.isComposite then .composite (x.components.map String.ofList) else Entry.read x.text.toList

def required (x : ExternalId) : List Entry :=
  x.entry :: if x.isComposite then x.components.map Entry.read else []

end ExternalId

end MigrationPlan
