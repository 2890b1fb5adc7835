import MigrationPlan.Schema.System
import MigrationPlan.Selection.Expansion
import MigrationPlan.Task.Basic

/- Describing a task: each side that can be described is, the source first, and the query is
   expanded and validated by each snapshot. A side of flat files takes the snapshot of the other
   side. -/
namespace MigrationPlan

def Context.medium (c : Context) : Side → Medium
  | .source => c.source
  | .target => c.target

namespace Brief

def rules (c : Context) (b : Brief) : ExpansionRules :=
  { excluded := b.excluded, mandatory := b.mandatory, deniedParents := c.deniedParents }

def joining (c : Context) (b : Brief) (l : List Entry) (snapshot : Snapshot)
    (counterpart : Option Snapshot) :
    List Field :=
  if b.operation == .delete then [] else joiningFields l b.pattern snapshot counterpart (b.rules c)

def expanded (c : Context) (b : Brief) (l : List Entry) (snapshot : Snapshot)
    (counterpart : Option Snapshot) :
    List Entry :=
  if b.operation == .delete then l else expand l b.pattern snapshot counterpart (b.rules c)

def expansionNotices (c : Context) (b : Brief) (l : List Entry) (snapshot : Snapshot)
    (counterpart : Option Snapshot) : List Notice :=
  if b.operation == .delete || b.pattern.isNone then []
  else [.expanded (b.joining c l snapshot counterpart).length b.object snapshot.fields.length]

end Brief

namespace Work

def fetch (w : Work) (systems : Systems) (side : Side) : Except Fault Snapshot :=
  match (systems.on side).describe w.brief.object with
  | .ok s => .ok (s.ownedBy w.brief.object)
  | .error f => .error (if f.isConfiguration then f else .metadata w.brief.object side f.message)

/-- Expands and validates the query by a snapshot. When that fails the expansion remains. -/
def settle (c : Context) (unchecked : Bool) (side : Side) (snapshot : Snapshot)
    (counterpart : Option Snapshot) (w : Work) : Outcome Work Unit :=
  let b := w.brief
  let entries := b.expanded c w.query.entries snapshot counterpart
  let notices := b.expansionNotices c w.query.entries snapshot counterpart
  match validateSelection entries snapshot
    { object := b.object, side, critical := b.critical, unchecked } with
  | .error f =>
    { state := { w with query := { w.query with entries } }, result := .error f, notices }
  | .ok (kept, warnings) =>
    let query := { w.query with entries := kept }
    { state := { w with query, queryText := query.compose, warnings := w.warnings ++ warnings }
      result := .ok ()
      notices := notices ++ warnings.map .dropped }

def take (c : Context) (systems : Systems) (unchecked : Bool) (side : Side)
    (counterpart : Option Snapshot) (w : Work) : Outcome Work Snapshot :=
  let first : List Notice := [.describing w.brief.object side (systems.on side).name]
  match w.fetch systems side with
  | .error f => { state := w, result := .error f, notices := first }
  | .ok snapshot =>
    let o := w.settle c unchecked side snapshot counterpart
    { state := o.state, result := o.result.map fun _ => snapshot, notices := first ++ o.notices }

def keep (schemas : Schemas) (w : Work) : Outcome Work Unit :=
  { state := { w with schemas }, result := .ok () }

def describe (c : Context) (systems : Systems) (unchecked : Bool) (w : Work) : Outcome Work Unit :=
  match c.source.isDescribable, c.target.isDescribable with
  | false, false => { state := w, result := .error (.object w.brief.object .neitherSideDescribed) }
  | true, false => (w.take c systems unchecked .source none).andThen fun w s => w.keep (.shared s)
  | false, true =>
    (w.take c systems unchecked .target w.schemas.source?).andThen fun w s => w.keep (.shared s)
  | true, true =>
    (w.take c systems unchecked .source none).andThen fun w s =>
      (({ w with schemas := .sourceOnly s } : Work).take c systems unchecked .target
        (some s)).andThen
        fun w t => w.keep (.pair s t)

end Work

def Task.describe (c : Context) (systems : Systems) (t : Task) : Outcome Task Unit :=
  match t.stage with
  | .unconfigured => { state := t, result := .error (.object t.displayName .notSetUp) }
  | .described _ => { state := t, result := .ok () }
  | .configured w =>
    let o := w.describe c systems t.request.isExtraObject
    match o.result with
    | .error f =>
      { state := { t with stage := .configured o.state }, result := .error f, notices := o.notices }
    | .ok _ =>
      let w := o.state
      { state := { t with stage := .described w }
        result := .ok ()
        notices :=
          o.notices ++ [.described w.brief.object w.query.entries.length w.warnings.length] }

end MigrationPlan
