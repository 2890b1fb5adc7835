import MigrationPlan.Schema.Field
import MigrationPlan.Text.Blank

/- Patterns: conditions on fields, written as keywords in a select list. -/
namespace MigrationPlan
open Text

inductive Condition where
  | creatable (value : Bool)
  | updatable (value : Bool)
  | readonly (value : Bool)
  | custom (value : Bool)
  | autoNumber (value : Bool)
  | lookup (value : Bool)
  | masterDetail (value : Bool)
  | ofType (type : FieldType)
  deriving DecidableEq, Repr

namespace Condition

def holds (f : Field) : Condition → Bool
  | creatable value => f.creatable == value
  | updatable value => f.updatable == value
  | readonly value => f.isReadonly == value
  | custom value => f.custom == value
  | autoNumber value => f.autoNumber == value
  | lookup value => f.isLookup == value
  | masterDetail value => f.isMasterDetail == value
  | ofType type => f.type == type

def keywordProperties : List (String × (Bool → Condition)) :=
  [("creatable", creatable), ("createable", creatable), ("updateable", updatable),
    ("updatable", updatable),
   ("readonly", readonly), ("custom", custom), ("autonumber", autoNumber), ("lookup", lookup),
   ("masterdetail", masterDetail)]

def flagValues : List (String × Bool) := [("true", true), ("false", false)]

def ofFolded? (s : List Char) : Option Condition :=
  let property := String.ofList (s.takeWhile (· != '_'))
  match s.dropWhile (· != '_') with
  | [] => none
  | _ :: value =>
    if property == "type" then (FieldType.ofName? (String.ofList value)).map ofType
    else do
      let value ← flagValues.lookup (String.ofList value)
      let make ← keywordProperties.lookup property
      return make value

def ofKeyword? (token : String) : Option Condition := ofFolded? (fold (trimmed token)).toList

def writtenProperties : List (String × (Bool → Condition)) :=
  [("creatable", creatable), ("updateable", updatable), ("readonly", readonly), ("custom", custom),
   ("auto_number", autoNumber), ("lookup", lookup), ("master_detail", masterDetail)]

def written (property : String) (value : Tree) : Tree :=
  .record [("property", .text property), ("value", value)]

def tree : Condition → Tree
  | creatable value => written "creatable" (.flag value)
  | updatable value => written "updateable" (.flag value)
  | readonly value => written "readonly" (.flag value)
  | custom value => written "custom" (.flag value)
  | autoNumber value => written "auto_number" (.flag value)
  | lookup value => written "lookup" (.flag value)
  | masterDetail value => written "master_detail" (.flag value)
  | ofType type => written "type" type.tree

open Document in
def read {δ : Type} [Document δ] (d : δ) : Option Condition := do
  let m ← fields? (FieldName.ofNames ["property", "value"]) d
  let property ← required m "property" choice?
  if property == "type" then (required m "value" FieldType.read).map ofType
  else
    let make ← writtenProperties.lookup property
    return make (← required m "value" flag?)

end Condition

structure Pattern where
  all : Bool := false
  conditions : List Condition := []
  deriving DecidableEq, Repr

namespace Pattern

def isAll (token : String) : Bool := sameName (trimmed token) "all"

def isKeyword (token : String) : Bool := isAll token || (Condition.ofKeyword? token).isSome

def require (p : Pattern) (c : Condition) : Pattern :=
  if p.conditions.contains c then p else { p with conditions := p.conditions ++ [c] }

def accept (p : Pattern) (token : String) : Pattern :=
  if isAll token then { p with all := true }
  else (Condition.ofKeyword? token).elim p p.require

def ofTokens (l : List String) : Pattern := l.foldl accept {}

def isEmpty (p : Pattern) : Bool := !p.all && p.conditions.isEmpty

/-- Without any condition nothing matches, unless all fields do. -/
def isMatch (p : Pattern) (f : Field) : Bool :=
  p.all || (!p.conditions.isEmpty && p.conditions.all (Condition.holds f))

def tree (p : Pattern) : Tree :=
  .record [("all", .flag p.all), ("predicates", .list (p.conditions.map Condition.tree))]

open Document in
def read {δ : Type} [Document δ] (d : δ) : Option Pattern := do
  let m ← fields? (FieldName.ofNames ["all", "predicates"]) d
  return {
    all := ← required m "all" flag?
    conditions := ← required m "predicates" (itemsOf Condition.read) }

end Pattern

end MigrationPlan
