import MigrationPlan.Selection.Expansion
import MigrationPlan.Selection.Resolution
import MigrationPlan.Task.Basic

/- Setting up a task: its query is resolved, and the entries that records are matched by are
   added. -/
namespace MigrationPlan
open Text

def personMark : String := "IsPersonAccount"

def hasPersons (object : String) : Bool := sameName object "Account" || sameName object "Contact"

namespace Request

def configuredId (r : Request) (object : String) (operation : Operation) :
    Except Fault ExternalId :=
  let x := (r.externalId.bind trimmed?).elim (.defaultFor operation) .ofText
  if x.text.isEmpty then .error (.object object (.emptyExternalId (r.externalId.getD "")))
  else .ok x

/-- The query by which records are deleted; a filter of its own takes the place of the query's. -/
def deleteQuery (r : Request) (operation : Operation) (q : Query) : Query :=
  { object := q.object
    entries := [.plain recordId]
    filter := (r.deleteWhere.bind trimmed?).or (if operation == .delete then q.filter else none)
    limit := if operation == .delete then q.limit else none }

def brief (r : Request) (x : Resolution) (operation : Operation)
    (configuredId : ExternalId) : Brief :=
  { object := x.query.object
    operation
    externalId := if operation == .insert then .ofRecordId else configuredId
    configuredId
    excluded := .ofList r.excludedFields
    pattern := x.pattern
    deleteQuery :=
      if operation == .delete || r.deleteOldData then some (r.deleteQuery operation x.query)
      else none }

end Request

namespace Brief

def required (c : Context) (b : Brief) : List Entry :=
  b.externalId.required
    ++ (if b.configuredId = b.externalId then [] else b.configuredId.required)
    ++ (if c.personAccounts && hasPersons b.object then [.plain personMark] else [])

def selection (c : Context) (b : Brief) (l : List Entry) : List Entry :=
  if b.operation == .delete then [.plain recordId]
  else
    SelectList.distinct
      (SelectList.exclude b.excluded b.mandatory (SelectList.insertAll l (b.required c)))

end Brief

namespace Request

def staying (r : Request) (b : Brief) : List Notice :=
  (r.excludedFields.filter b.mandatory.contains).map (.staysSelected b.object)

def setUp (r : Request) (c : Context) : Except Fault Work := do
  let x ← Resolution.ofText r.query
  let operation ← r.operation.operationFor x.query.object
  let configuredId ← r.configuredId x.query.object operation
  let b := r.brief x operation configuredId
  let query := { x.query with entries := b.selection c x.query.entries }
  return { brief := b, query, queryText := query.compose }

end Request

def Task.setUp (c : Context) (t : Task) : Outcome Task Unit :=
  match t.stage with
  | .configured w | .described w =>
    { state := t, result := .ok (), notices := [.alreadySetUp w.brief.object] }
  | .unconfigured =>
    match t.request.setUp c with
    | .error f => { state := t, result := .error f }
    | .ok w =>
      { state := { t with stage := .configured w }
        result := .ok ()
        notices := t.request.staying w.brief
          ++ [.setUp w.brief.object w.brief.operation w.brief.externalId w.queryText] }

end MigrationPlan
