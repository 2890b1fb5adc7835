import MigrationPlan.Yaml.Document

/- How far a reader may follow aliases. Each alias that it meets takes one from an allowance, as
   often as it meets it; what it passes over unread takes nothing. A walk is what a reader visits,
   without what it reads. -/
namespace MigrationPlan.Yaml

/-- From what is left of the allowance before a node to what is left behind it; none when it has
    been used up. -/
abbrev Walk := View → Nat → Option Nat

namespace Walk

def leaf : Walk := fun v left =>
  match v.node, left with
  | .alias _, 0 => none
  | .alias _, left + 1 => some left
  | _, left => some left

def each (item : Walk) : Walk := fun v left => do
  let left ← leaf v left
  match v.target with
  | .sequence _ items => items.foldlM (fun left node => item (v.child node) left) left
  | _ => some left

def record (fields : List (String × Walk)) : Walk := fun v left => do
  let left ← leaf v left
  match v.target with
  | .mapping _ entries =>
    entries.foldlM (fun left e => do
      let left ← leaf (v.child e.1) left
      match (scalarText? (v.child e.1)).bind fun key => fields.lookup key with
      | some walk => walk (v.child e.2) left
      | none => some left) left
  | _ => some left

end Walk

/-- Whether the walk from the root follows at most a hundred aliases for each event of the
    document. -/
def View.allows (v : View) (walk : Walk) : Bool := (walk v (100 * v.node.events)).isSome

end MigrationPlan.Yaml
