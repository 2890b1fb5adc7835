import MigrationPlan.Yaml.Token

/- Nodes of a YAML document. An alias keeps the number of its anchor, so a node may well contain
   itself. -/
namespace MigrationPlan.Yaml

inductive Node where
  | scalar (tag : Option Tag) (style : Style) (text : String)
  | sequence (tag : Option Tag) (items : List Node)
  | mapping (tag : Option Tag) (entries : List (Node × Node))
  | alias (anchor : Nat)
  deriving Repr, Inhabited

namespace Node

def empty : Node := .scalar none .plain ""

mutual

def events : Node → Nat
  | .scalar _ _ _ | .alias _ => 1
  | .sequence _ items => itemEvents items + 2
  | .mapping _ entries => entryEvents entries + 2

def itemEvents : List Node → Nat
  | [] => 0
  | item :: items => item.events + itemEvents items

def entryEvents : List (Node × Node) → Nat
  | [] => 0
  | (key, value) :: entries => key.events + value.events + entryEvents entries

end

end Node

/-- A document: its root, and what the numbers of its anchors stand for. Of the nodes with one
    number the one that begins last comes first. -/
structure Graph where
  root : Node
  anchored : List (Nat × Node)

end MigrationPlan.Yaml
