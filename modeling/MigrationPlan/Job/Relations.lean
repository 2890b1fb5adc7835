import MigrationPlan.Job.Basic

/- How the tasks of a job depend on one another. -/
namespace MigrationPlan
open Text

structure Edge where
  child : String
  parent : String
  kind : RelationshipKind
  deriving DecidableEq, Repr

namespace Edge

def tree (e : Edge) : Tree :=
  .record [("child", .text e.child), ("parent", .text e.parent), ("kind", e.kind.tree)]

open Document in
def read {δ : Type} [Document δ] (d : δ) : Option Edge := do
  let m ← fields? (FieldName.ofNames ["child", "parent", "kind"]) d
  return {
    child := ← required m "child" text?
    parent := ← required m "parent" text?
    kind := ← required m "kind" RelationshipKind.read }

end Edge

namespace Job

def task? (j : Job) (object : String) : Option Task :=
  (j.registry.indexOf? object).bind fun i => j.tasks[i]?

def parentTask? (j : Job) (f : Field) : Option Task := f.referenceTarget?.bind j.task?

def ownerTask? (j : Job) (f : Field) : Option Task := f.owner.bind j.task?

def hasChildren (j : Job) (object : String) : Bool :=
  (j.healthyTasks.filter fun t => !sameName t.object object).any fun t => t.references object

def summaryOf (j : Job) (t : Task) : RelationshipSummary :=
  { lookupParents := t.parents .lookup
    masterDetailParents := t.parents .masterDetail
    hasParents := t.hasParents
    hasChildren := j.hasChildren t.object }

def summary? (j : Job) (object : String) : Option RelationshipSummary :=
  (j.task? object).map j.summaryOf

def edge? (j : Job) (t : Task) (f : Field) : Option Edge := do
  let kind ← f.relationship?
  let parent ← j.parentTask? f
  if sameName parent.object t.object then none
  else some { child := t.object, parent := parent.object, kind }

def edges (j : Job) : List Edge :=
  (j.healthyTasks.flatMap fun t => t.describedFields.filterMap (j.edge? t)).eraseDups

end Job

end MigrationPlan
