import MigrationPlan.Schema.Field
import MigrationPlan.Text.Fold

/- Parents of an object, as the references among its fields name them. -/
namespace MigrationPlan
open Text

def parentObjects (fields : List Field) (kind : RelationshipKind) : List String :=
  ((fields.filter fun f => f.relationship? = some kind).filterMap
    Field.referenceTarget?).eraseDupsBy sameName

structure RelationshipSummary where
  lookupParents : List String := []
  masterDetailParents : List String := []
  hasParents : Bool := false
  hasChildren : Bool := false
  deriving DecidableEq, Repr

namespace RelationshipSummary

def isIndependent (s : RelationshipSummary) : Bool := !s.hasParents && !s.hasChildren

def tree (s : RelationshipSummary) : Tree :=
  .record [("parent_lookup_objects", .texts s.lookupParents),
    ("parent_master_detail_objects", .texts s.masterDetailParents),
    ("has_parent_relationships", .flag s.hasParents),
    ("has_child_relationships", .flag s.hasChildren)]

open Document in
def read {δ : Type} [Document δ] (d : δ) : Option RelationshipSummary := do
  let m ← fields? (FieldName.ofNames ["parent_lookup_objects", "parent_master_detail_objects",
    "has_parent_relationships", "has_child_relationships"]) d
  return {
    lookupParents := ← required m "parent_lookup_objects" texts?
    masterDetailParents := ← required m "parent_master_detail_objects" texts?
    hasParents := ← required m "has_parent_relationships" flag?
    hasChildren := ← required m "has_child_relationships" flag? }

end RelationshipSummary

end MigrationPlan
