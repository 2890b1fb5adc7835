import MigrationPlan.Config.Load
import MigrationPlan.Job.Relations
import MigrationPlan.Plan.Timestamp

/- Plans: what is left to know of a job once its tasks are prepared. -/
namespace MigrationPlan

structure TaskPlan where
  object : String
  progress : Progress
  operation : Operation
  operationCode : Int64
  externalId : String
  configuredId : Option String := none
  query : String
  deleteQuery : Option String := none
  fields : List String
  pattern : Option Pattern := none
  relationships : RelationshipSummary
  warnings : List Warning := []
  deriving DecidableEq, Repr

structure FailurePlan where
  object : String
  error : String
  exitCode : UInt8
  deriving DecidableEq, Repr

structure PlanContent where
  fingerprint : String
  tasks : List TaskPlan
  edges : List Edge
  failures : List FailurePlan
  deriving DecidableEq, Repr

def TaskPlan.ofTask (j : Job) (t : Task) : TaskPlan :=
  let b := t.brief
  { object := t.object
    progress := t.progress
    operation := b.operation
    operationCode := b.operation.code
    externalId := b.externalId.text
    configuredId := if b.configuredId = b.externalId then none else some b.configuredId.text
    query := t.queryText
    deleteQuery := t.deleteQueryText
    fields := t.query.keys
    pattern := b.pattern
    relationships := (j.summary? t.object).getD {}
    warnings := t.warnings }

def FailurePlan.ofFailure (f : Failure) : FailurePlan :=
  { object := f.object, error := f.fault.message, exitCode := f.fault.exitCode }

namespace PlanContent

def ofJob (j : Job) : PlanContent :=
  { fingerprint := j.config.fingerprint
    tasks := j.healthyTasks.map (.ofTask j)
    edges := j.edges
    failures := j.failures.map .ofFailure }

def warningCount (p : PlanContent) : Nat := (p.tasks.flatMap (·.warnings)).length

def exitCode (p : PlanContent) : UInt8 := (p.failures.head?.map (·.exitCode)).getD 0

end PlanContent

structure Plan where
  id : String
  generatedAt : Timestamp
  content : PlanContent
  deriving DecidableEq, Repr

end MigrationPlan
