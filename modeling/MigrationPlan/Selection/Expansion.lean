import MigrationPlan.Query.Basic
import MigrationPlan.Schema.Snapshot
import MigrationPlan.Selection.NameSet
import MigrationPlan.Selection.Pattern

/- Expansion: the fields of a snapshot that match a pattern join a select list. -/
namespace MigrationPlan

structure ExpansionRules where
  excluded : NameSet
  mandatory : NameSet
  deniedParents : NameSet

namespace SelectList

def exclude (excluded mandatory : NameSet) (l : List Entry) : List Entry :=
  l.filter fun e => !excluded.contains e.key || mandatory.contains e.key

end SelectList

namespace ExpansionRules

def admits (r : ExpansionRules) (counterpart : Option Snapshot) (f : Field) : Bool :=
  !r.excluded.contains f.name && !f.referenceTarget?.any r.deniedParents.contains
    && counterpart.all fun s => s.hasField f.name

end ExpansionRules

def joiningFields (l : List Entry) (pattern : Option Pattern) (snapshot : Snapshot)
    (counterpart : Option Snapshot) (rules : ExpansionRules) : List Field :=
  snapshot.fields.filter fun f =>
    pattern.any (·.isMatch f) && !SelectList.selects l f.name && rules.admits counterpart f

def expand (l : List Entry) (pattern : Option Pattern) (snapshot : Snapshot)
    (counterpart : Option Snapshot) (rules : ExpansionRules) : List Entry :=
  let joined := l ++ (joiningFields l pattern snapshot counterpart rules).map fun f => .plain f.name
  SelectList.distinct (SelectList.exclude rules.excluded rules.mandatory joined)

end MigrationPlan
