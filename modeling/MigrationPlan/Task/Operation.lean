import MigrationPlan.Fault
import MigrationPlan.Text.Blank
import MigrationPlan.Text.Fold

/- What a migration does with the records of an object, and how configurations say so. -/
namespace MigrationPlan
open Text

inductive Operation where
  | insert
  | update
  | upsert
  | readonly
  | delete
  deriving DecidableEq, Repr

namespace Operation

def all : List Operation := [insert, update, upsert, readonly, delete]

def name : Operation → String
  | insert => "Insert"
  | update => "Update"
  | upsert => "Upsert"
  | readonly => "Readonly"
  | delete => "Delete"

def code : Operation → Int64
  | insert => 0
  | update => 1
  | upsert => 2
  | readonly => 3
  | delete => 4

def ofCode? (n : Int64) : Option Operation := all.find? fun o => o.code == n

def ofName? (s : String) : Option Operation := all.find? fun o => sameName o.name (trimmed s)

def matchesById (o : Operation) : Bool := o == insert || o == readonly || o == delete

def tree (o : Operation) : Tree := .text o.name

def read {δ : Type} [Document δ] : δ → Option Operation :=
  Document.choiceOf (all.map fun o => (o.name, o))

end Operation

inductive OperationSetting where
  | code (n : Int64)
  | name (s : String)
  deriving DecidableEq, Repr

namespace OperationSetting

def ofOperation (o : Operation) : OperationSetting := name o.name

def text : OperationSetting → String
  | code n => toString n.toInt
  | name s => s

def operation? : OperationSetting → Option Operation
  | code n => Operation.ofCode? n
  | name s => Operation.ofName? s

def operationFor (s : OperationSetting) (object : String) : Except Fault Operation :=
  match s.operation? with
  | some o => .ok o
  | none => .error (.object object (.unknownOperation s.text))

def tree : OperationSetting → Tree
  | code n => .integer n.toInt
  | name s => .text s

def read {δ : Type} [Document δ] (d : δ) : Option OperationSetting :=
  match Document.int64? d with
  | some n => some (code n)
  | none => (Document.word? d).map name

end OperationSetting

end MigrationPlan
