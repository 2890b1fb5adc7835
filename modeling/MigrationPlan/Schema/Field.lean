import MigrationPlan.Schema.FieldType

/- Fields as a system describes them, and what follows from their description. -/
namespace MigrationPlan

inductive RelationshipKind where
  | lookup
  | masterDetail
  deriving DecidableEq, Repr

namespace RelationshipKind

def name : RelationshipKind → String
  | lookup => "lookup"
  | masterDetail => "master_detail"

def tree (k : RelationshipKind) : Tree := .text k.name

def read {δ : Type} [Document δ] : δ → Option RelationshipKind :=
  Document.choiceOf [("lookup", lookup), ("master_detail", masterDetail)]

end RelationshipKind

structure Field where
  name : String
  label : String := ""
  type : FieldType := .string
  creatable : Bool := false
  updatable : Bool := false
  calculated : Bool := false
  autoNumber : Bool := false
  custom : Bool := false
  referenceTo : List String := []
  relationshipName : Option String := none
  cascadeDelete : Bool := false
  /-- The object whose snapshot holds the field; documents do not say it. -/
  owner : Option String := none
  deriving DecidableEq, Repr

namespace Field

def ofType (name : String) (type : FieldType) : Field := { name, label := name, type }

def writable (f : Field) : Field := { f with creatable := true, updatable := true }

def lookupTo (f : Field) (parent : String) : Field :=
  { f with type := .reference, referenceTo := [parent] }

def detailOf (f : Field) (parent : String) : Field :=
  { f.lookupTo parent with cascadeDelete := true }

def isReadonly (f : Field) : Bool := !f.creatable && !f.updatable

def referenceTarget? (f : Field) : Option String := f.referenceTo.head?

def relationship? (f : Field) : Option RelationshipKind :=
  f.referenceTarget?.map fun _ => if f.cascadeDelete then .masterDetail else .lookup

def isLookup (f : Field) : Bool := f.relationship? = some .lookup

def isMasterDetail (f : Field) : Bool := f.relationship? = some .masterDetail

def tree (f : Field) : Tree :=
  .record ([("name", .text f.name), ("label", .text f.label), ("type", f.type.tree),
      ("createable", .flag f.creatable), ("updateable", .flag f.updatable),
      ("calculated", .flag f.calculated), ("autoNumber", .flag f.autoNumber),
      ("custom", .flag f.custom), ("referenceTo", .texts f.referenceTo)]
    ++ Tree.memberOf? "relationshipName" (f.relationshipName.map .text)
    ++ [("cascadeDelete", .flag f.cascadeDelete)])

def memberNames : List FieldName :=
  [{ name := "name" }, { name := "label" }, { name := "type" },
   { name := "createable", aliases := ["creatable"] },
   { name := "updateable" }, { name := "calculated" }, { name := "autoNumber" },
   { name := "custom" }, { name := "referenceTo" }, { name := "relationshipName" },
   { name := "cascadeDelete" }]

open Document in
def read {δ : Type} [Document δ] (d : δ) : Option Field := do
  let m ← fields? memberNames d
  let flagOf name := orDefault m name false flag?
  return {
    name := ← required m "name" text?
    label := ← orDefault m "label" "" text?
    type := ← orDefault m "type" .string FieldType.read
    creatable := ← flagOf "createable"
    updatable := ← flagOf "updateable"
    calculated := ← flagOf "calculated"
    autoNumber := ← flagOf "autoNumber"
    custom := ← flagOf "custom"
    referenceTo := ← orDefault m "referenceTo" [] texts?
    relationshipName := ← orDefault m "relationshipName" none maybeText
    cascadeDelete := ← flagOf "cascadeDelete" }

end Field

end MigrationPlan
