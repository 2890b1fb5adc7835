import MigrationPlan.Json.Printer
import MigrationPlan.Plan.Basic

/- The written form of plans, and the plain text that sums one up. -/
namespace MigrationPlan

open Document

namespace TaskPlan

def tree (p : TaskPlan) : Tree :=
  .record ([("object", .text p.object), ("state", p.progress.tree), ("operation", p.operation.tree),
      ("operation_code", .integer p.operationCode.toInt), ("external_id", .text p.externalId)]
    ++ Tree.memberOf? "original_external_id" (p.configuredId.map .text)
    ++ [("query", .text p.query)]
    ++ Tree.memberOf? "delete_query" (p.deleteQuery.map .text)
    ++ [("fields", .texts p.fields)]
    ++ Tree.memberOf? "pattern" (p.pattern.map Pattern.tree)
    ++ [("relationships", p.relationships.tree)]
    ++ if p.warnings.isEmpty then [] else [("warnings", .list (p.warnings.map Warning.tree))])

def memberNames : List FieldName :=
  FieldName.ofNames ["object", "state", "operation", "operation_code", "external_id",
    "original_external_id", "query", "delete_query", "fields", "pattern",
    "relationships", "warnings"]

def read {δ : Type} [Document δ] (d : δ) : Option TaskPlan := do
  let m ← fields? memberNames d
  return {
    object := ← required m "object" text?
    progress := ← required m "state" Progress.read
    operation := ← required m "operation" Operation.read
    operationCode := ← required m "operation_code" int64?
    externalId := ← required m "external_id" text?
    configuredId := ← orDefault m "original_external_id" none maybeText
    query := ← required m "query" text?
    deleteQuery := ← orDefault m "delete_query" none maybeText
    fields := ← required m "fields" texts?
    pattern := ← orDefault m "pattern" none (maybe Pattern.read)
    relationships := ← required m "relationships" RelationshipSummary.read
    warnings := ← orDefault m "warnings" [] (itemsOf Warning.read) }

end TaskPlan

namespace FailurePlan

def tree (f : FailurePlan) : Tree :=
  .record [("object", .text f.object), ("error", .text f.error),
    ("exit_code", .integer f.exitCode.toNat)]

def read {δ : Type} [Document δ] (d : δ) : Option FailurePlan := do
  let m ← fields? (FieldName.ofNames ["object", "error", "exit_code"]) d
  let code ← required m "exit_code" (integerIn 0 256)
  return {
    object := ← required m "object" text?
    error := ← required m "error" text?
    exitCode := UInt8.ofNat code.toNat }

end FailurePlan

namespace PlanContent

def listMembers (c : PlanContent) : List (String × Tree) :=
  [("tasks", .list (c.tasks.map TaskPlan.tree)), ("edges", .list (c.edges.map Edge.tree)),
   ("failures", .list (c.failures.map FailurePlan.tree))]

def taskLines (t : TaskPlan) : List String :=
  let joined (label : String) (l : List String) : List String :=
    if l.isEmpty then [] else ["    " ++ label ++ ": " ++ ", ".intercalate l]
  ["", "  " ++ t.object ++ " (" ++ t.operation.name ++ ", external id " ++ t.externalId ++ ")",
   "    query:  " ++ t.query]
    ++ (t.deleteQuery.elim [] fun q => ["    delete: " ++ q])
    ++ joined "lookups" t.relationships.lookupParents
    ++ joined "master-detail" t.relationships.masterDetailParents
    ++ t.warnings.map fun w => "    warning: " ++ w.message

def summaryLines (c : PlanContent) : List String :=
  c.tasks.flatMap taskLines
    ++ ["", "  Tasks: " ++ toString c.tasks.length ++ " planned, " ++
      toString c.failures.length ++ " failed, "
      ++ toString c.warningCount ++ " warning(s)"]
    ++ c.failures.map fun f => "  Failed " ++ f.object ++ ": " ++ f.error

end PlanContent

namespace Plan

def tree (p : Plan) : Tree :=
  .record ([("plan_id", .text p.id), ("generated_at", .text p.generatedAt.text),
    ("config_hash", .text p.content.fingerprint)] ++ p.content.listMembers)

def memberNames : List FieldName :=
  FieldName.ofNames ["plan_id", "generated_at", "config_hash", "tasks", "edges", "failures"]

def read {δ : Type} [Document δ] (d : δ) : Option Plan := do
  let m ← fields? memberNames d
  return {
    id := ← required m "plan_id" text?
    generatedAt := ← (required m "generated_at" text?).bind Timestamp.read?
    content := {
      fingerprint := ← required m "config_hash" text?
      tasks := ← required m "tasks" (itemsOf TaskPlan.read)
      edges := ← required m "edges" (itemsOf Edge.read)
      failures := ← required m "failures" (itemsOf FailurePlan.read) } }

def toJson (p : Plan) : String := Json.pretty p.tree

def ofJson (wording : String → String) (s : String) : Except Fault Plan :=
  match (Json.read? s).bind read with
  | none => .error (.json (wording s))
  | some p => .ok p

def summary (p : Plan) : String :=
  String.join ((("Plan " ++ p.id) :: p.content.summaryLines).map (· ++ "\n"))

end Plan

end MigrationPlan
