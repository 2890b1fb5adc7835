import MigrationPlan.Document
import MigrationPlan.Yaml.Composition
import MigrationPlan.Yaml.Scalar

/- YAML as a document form. A text is whatever scalar stands there, in any style; truth values and
   integers are told by style, tag and spelling; an alias stands for the node it names. -/
namespace MigrationPlan.Yaml

structure View where
  anchored : List (Nat × Node)
  node : Node

namespace View

def child (v : View) (node : Node) : View := { v with node }

def target (v : View) : Node :=
  match v.node with
  | .alias anchor => (v.anchored.lookup anchor).getD .empty
  | node => node

end View

def coreTag (name : String) : Tag := tagOf ("tag:yaml.org,2002:" ++ name)

def isLocal (tag : Tag) : Bool := tag.head? == some 0x21

/-- A local tag names a variant by what follows its mark, if that is UTF-8. -/
def variant? (tag : Option Tag) : Option String :=
  (tag.filter isLocal).bind fun t => String.fromUTF8? (ByteArray.mk t.tail.toArray)

def isMissing (s : String) : Bool := s.isEmpty || isNull s

def isEmptyScalar : Node → Bool
  | .scalar _ .plain text => text.isEmpty
  | _ => false

def scalarText? (v : View) : Option String :=
  match v.target with
  | .scalar _ _ text => some text
  | _ => none

def members? (v : View) : Option (List (String × View)) :=
  match v.target with
  | .mapping _ entries =>
    entries.mapM fun e => (scalarText? (v.child e.1)).map fun key => (key, v.child e.2)
  | node => if isEmptyScalar node then some [] else none

def items? (v : View) : Option (List View) :=
  match v.target with
  | .sequence _ items => some (items.map v.child)
  | node => if isEmptyScalar node then some [] else none

def flag? (v : View) : Option Bool :=
  match v.target with
  | .scalar _ .plain text => readFlag? text
  | .scalar (some tag) .literal text => if tag == coreTag "bool" then readFlag? text else none
  | _ => none

def choice? (v : View) : Option String :=
  match v.target with
  | .scalar tag style text =>
    match variant? tag with
    | none => some text
    | some name => if style == .plain && isMissing text then some name else none
  | _ => none

def absent? (v : View) : Option Bool :=
  match v.target with
  | .scalar none .plain text => some (isMissing text)
  | .scalar (some tag) .plain text =>
    if tag == coreTag "null" then (if isNull text then some true else none) else some false
  | _ => some false

/-- What a scalar is by its tag. Without one a plain scalar is what it looks like, and so it is
    behind a local tag that names no variant; any other is a text. -/
def scalarValue (tag : Option Tag) (style : Style) (text : String) : Scalar :=
  match tag with
  | none => if style == .plain then resolve text else .text
  | some t =>
    if (variant? tag).isSome || t == coreTag "null" then .null
    else if t == coreTag "bool" || t == coreTag "float" then .number
    else if t == coreTag "int" then
      ((readInteger? text.toList).filter fitsWord64).elim .number .integer
    else if isLocal t && style == .plain then resolve text
    else .text

def integer? (v : View) : Option Int :=
  match v.target with
  | .scalar tag style text =>
    match scalarValue tag style text with
    | .integer n => some n
    | _ => none
  | _ => none

def word? (v : View) : Option String :=
  match v.target with
  | .scalar tag style text => if scalarValue tag style text = .text then some text else none
  | _ => none

instance : Document View where
  fields? names v := (members? v).bind (Document.knownMembers names)
  items? := items?
  text? := scalarText?
  flag? := flag?
  choice? := choice?
  absent? := absent?
  integer? := integer?
  word? := word?

def view? (s : String) : Option View :=
  (read? s).map fun g => { anchored := g.anchored, node := g.root }

end MigrationPlan.Yaml
