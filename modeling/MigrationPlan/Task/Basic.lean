import Std.Data.HashMap
import MigrationPlan.Config.Basic
import MigrationPlan.Notice
import MigrationPlan.Query.Basic
import MigrationPlan.Selection.Pattern
import MigrationPlan.Task.Relationships

/- Tasks: what is known of one object of a job. A task is first set up, which fixes its brief and
   its query, and then described, which settles the fields of the query by the schemas of both
   sides. -/
namespace MigrationPlan

structure Context where
  source : Medium
  target : Medium
  personAccounts : Bool
  deniedParents : NameSet

def Config.context (c : Config) : Context :=
  { source := c.source.medium, target := c.target.medium, personAccounts := c.personAccounts
    deniedParents := .ofList c.deniedParents }

/-- The state after a step, how the step ended, and what it reported. -/
structure Outcome (σ α : Type) where
  state : σ
  result : Except Fault α
  notices : List Notice := []

namespace Outcome
variable {σ τ α β : Type}

def andThen (o : Outcome σ α) (next : σ → α → Outcome σ β) : Outcome σ β :=
  match o.result with
  | .error f => { state := o.state, result := .error f, notices := o.notices }
  | .ok a =>
    let p := next o.state a
    { p with notices := o.notices ++ p.notices }

def isOk (o : Outcome σ α) : Bool := o.result.isOk

end Outcome

/-- What the set-up of a task fixes for good. -/
structure Brief where
  object : String := ""
  operation : Operation := .readonly
  externalId : ExternalId := .ofRecordId
  /-- The id as configured; inserts match by the record id all the same. -/
  configuredId : ExternalId := .ofRecordId
  excluded : NameSet := {}
  pattern : Option Pattern := none
  deleteQuery : Option Query := none
  deriving DecidableEq, Repr

namespace Brief

def keysOf (l : List Entry) : List String := l.map Entry.key

def critical (b : Brief) : NameSet :=
  (NameSet.ofList [recordId]).insertAll (keysOf b.externalId.required)

def mandatory (b : Brief) : NameSet := b.critical.insertAll (keysOf b.configuredId.required)

end Brief

inductive Schemas where
  | none
  | sourceOnly (source : Snapshot)
  | pair (source target : Snapshot)
  | shared (snapshot : Snapshot)
  deriving DecidableEq, Repr

namespace Schemas

def source? : Schemas → Option Snapshot
  | none => .none
  | sourceOnly s | pair s _ | shared s => some s

def target? : Schemas → Option Snapshot
  | none | sourceOnly _ => .none
  | pair _ s | shared s => some s

def isShared : Schemas → Bool
  | shared _ => true
  | _ => false

end Schemas

structure Work where
  brief : Brief := {}
  query : Query := {}
  /-- The canonical text of the query as the last successful step left it. -/
  queryText : String := ""
  schemas : Schemas := .none
  warnings : List Warning := []
  deriving DecidableEq, Repr

inductive Progress where
  | unconfigured
  | configured
  | described
  deriving DecidableEq, Repr

namespace Progress

def name : Progress → String
  | unconfigured => "unconfigured"
  | configured => "configured"
  | described => "described"

def tree (p : Progress) : Tree := .text p.name

def read {δ : Type} [Document δ] : δ → Option Progress :=
  Document.choiceOf ([unconfigured, configured, described].map fun p => (p.name, p))

end Progress

inductive Stage where
  | unconfigured
  | configured (work : Work)
  | described (work : Work)
  deriving DecidableEq, Repr

namespace Stage

def progress : Stage → Progress
  | unconfigured => .unconfigured
  | configured _ => .configured
  | described _ => .described

def work : Stage → Work
  | unconfigured => {}
  | configured w | described w => w

end Stage

structure Task where
  request : Request
  stage : Stage := .unconfigured
  deriving DecidableEq, Repr

namespace Task

def progress (t : Task) : Progress := t.stage.progress

def work (t : Task) : Work := t.stage.work

def brief (t : Task) : Brief := t.work.brief

def object (t : Task) : String := t.brief.object

def query (t : Task) : Query := t.work.query

def queryText (t : Task) : String := t.work.queryText

def deleteQueryText (t : Task) : Option String := t.brief.deleteQuery.map Query.compose

def warnings (t : Task) : List Warning := t.work.warnings

def schemas (t : Task) : Schemas := t.work.schemas

def displayName (t : Task) : String := if t.object.isEmpty then t.request.query else t.object

def describedFields (t : Task) : List Field :=
  match t.schemas.source? with
  | none => []
  | some s => (t.query.entries.filterMap Entry.plainName?).filterMap s.field?

def fieldMap (t : Task) : Std.HashMap String Field :=
  .ofList (t.describedFields.map fun f => (f.name, f))

def parents (t : Task) (kind : RelationshipKind) : List String :=
  parentObjects t.describedFields kind

def hasParents (t : Task) : Bool := t.describedFields.any fun f => f.relationship?.isSome

def references (t : Task) (object : String) : Bool :=
  t.describedFields.any fun f => f.referenceTarget?.any fun parent => Text.sameName parent object

end Task

end MigrationPlan
