import MigrationPlan.Task.Operation

/- Job configurations: the two ends, and a request for each object. -/
namespace MigrationPlan
open Text

inductive Medium where
  | org
  /-- Flat files; their schema is that of the other side. -/
  | csvFile
  deriving DecidableEq, Repr

namespace Medium

def name : Medium → String
  | org => "org"
  | csvFile => "csvFile"

def isDescribable (m : Medium) : Bool := m == org

end Medium

structure Endpoint where
  medium : Medium := .org
  name : Option String := none
  deriving DecidableEq, Repr

structure Request where
  query : String
  operation : OperationSetting := .ofOperation .readonly
  externalId : Option String := none
  deleteWhere : Option String := none
  excludedFields : List String := []
  deleteOldData : Bool := false
  updateWithMockData : Bool := false
  mockCsvData : Bool := false
  useCsvValuesMapping : Bool := false
  allRecords : Bool := true
  excluded : Bool := false
  /-- The object is there only for a relationship; its fields are not checked. -/
  isExtraObject : Bool := false
  processAllSource : Bool := false
  processAllTarget : Bool := false
  deriving DecidableEq, Repr

def defaultDeniedParents : List String := ["Group", "Organization", "Profile", "UserRole"]

structure Config where
  source : Endpoint
  target : Endpoint
  personAccounts : Bool := false
  deniedParents : List String := defaultDeniedParents
  requests : List Request := []
  deriving DecidableEq, Repr

namespace Config

def firstBlankQuery? (requests : List Request) : Option Nat :=
  requests.findIdx? fun r => (trim r.query.toList).isEmpty

/-- What must hold of a job as a whole; what is wrong with a single query shows when its task is set
    up. -/
def validate (c : Config) : Except Fault Unit :=
  if c.requests.isEmpty then .error (.job .noObjects)
  else
    match firstBlankQuery? c.requests with
    | some position => .error (.job (.emptyQuery position))
    | none =>
      if !c.source.medium.isDescribable && !c.target.medium.isDescribable then
        .error (.job .nothingDescribable)
      else .ok ()

end Config

end MigrationPlan
