import MigrationPlan.Tree

/- Documents: what the written forms have in common for a reader that knows which type it wants.
   Each form decides what it takes for a record, a list, a text, and so on; the readers of records
   stand on these. -/
namespace MigrationPlan

structure FieldName where
  name : String
  aliases : List String := []
  deriving DecidableEq, Repr

def FieldName.ofNames (names : List String) : List FieldName := names.map fun name => { name }

def FieldName.isGivenAs (f : FieldName) (key : String) : Bool :=
  f.name == key || f.aliases.contains key

class Document (δ : Type) where
  /-- The fields of a record by their names, unknown ones left out. None for another value, and when
      a field is given twice. -/
  fields? : List FieldName → δ → Option (List (String × δ))
  items? : δ → Option (List δ)
  text? : δ → Option String
  flag? : δ → Option Bool
  choice? : δ → Option String
  /-- Whether nothing stands here; none when that cannot be told. -/
  absent? : δ → Option Bool
  /-- An integer, where the form itself tells integers from text. -/
  integer? : δ → Option Int
  word? : δ → Option String

namespace Document
variable {δ α : Type}

def knownMembers (names : List FieldName) (members : List (String × δ)) :
    Option (List (String × δ)) :=
  let known := members.filterMap fun m => (names.find? (·.isGivenAs m.1)).map fun f => (f.name, m.2)
  if (known.map Prod.fst).Nodup then some known else none

variable [Document δ]

def required (fields : List (String × δ)) (name : String) (read : δ → Option α) : Option α :=
  (fields.lookup name).bind read

def orDefault (fields : List (String × δ)) (name : String) (absent : α)
    (read : δ → Option α) : Option α :=
  match fields.lookup name with
  | none => some absent
  | some d => read d

def maybe (read : δ → Option α) (d : δ) : Option (Option α) :=
  (absent? d).bind fun absent => if absent then some none else (read d).map some

def itemsOf (read : δ → Option α) (d : δ) : Option (List α) :=
  (items? d).bind (·.mapM read)

def texts? (d : δ) : Option (List String) := itemsOf text? d

def maybeText (d : δ) : Option (Option String) := maybe text? d

def choiceOf (values : List (String × α)) (d : δ) : Option α :=
  (choice? d).bind fun name => values.lookup name

/-- An integer from `low` up to but not including `high`. -/
def integerIn (low high : Int) (d : δ) : Option Int :=
  (integer? d).filter fun n => low ≤ n && n < high

def int64? (d : δ) : Option Int64 :=
  (integerIn Int64.minValue.toInt (Int64.maxValue.toInt + 1) d).map Int64.ofInt

end Document

/-- A record may also be written as the list of its fields in their order, the last ones left out;
    an alternative of an enumeration also as a record of its name and null. -/
instance : Document Tree where
  fields? names
    | .record members => Document.knownMembers names members
    | .list items =>
      if items.length ≤ names.length then some ((names.map (·.name)).zip items) else none
    | _ => none
  items?
    | .list items => some items
    | _ => none
  text?
    | .text s => some s
    | _ => none
  flag?
    | .flag b => some b
    | _ => none
  choice?
    | .text s => some s
    | .record [(name, .null)] => some name
    | _ => none
  absent?
    | .null => some true
    | _ => some false
  integer?
    | .integer n => some n
    | _ => none
  word?
    | .text s => some s
    | _ => none

end MigrationPlan
