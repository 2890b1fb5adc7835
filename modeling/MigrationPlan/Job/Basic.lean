import MigrationPlan.Job.Registry
import MigrationPlan.Task.Description
import MigrationPlan.Task.Setup

/- Jobs: a task for each request, and the steps that all tasks take. A task that fails is recorded
   and left out of later steps; the others go on. -/
namespace MigrationPlan

structure Failure where
  index : Nat
  object : String
  fault : Fault
  deriving DecidableEq, Repr

structure Job where
  config : Config
  tasks : List Task
  registry : Registry := {}
  failures : List Failure := []

namespace Job

def context (j : Job) : Context := j.config.context

def creationNotices (c : Config) : List Notice :=
  ((c.requests.filter (·.excluded)).map fun r => .skipped r.query)
    ++ if c.requests.all (·.excluded) then [.allExcluded] else []

def ofConfig (c : Config) : Except Fault Job :=
  c.validate.map fun _ =>
    { config := c, tasks := (c.requests.filter (!·.excluded)).map fun request => { request } }

def hasFailed (j : Job) (index : Nat) : Bool := j.failures.any (·.index == index)

def fail (j : Job) (index : Nat) (object : String) (fault : Fault) : Job × List Notice :=
  ({ j with failures := j.failures ++ [{ index, object, fault }] }, [.failed object fault])

def setUpTask (j : Job) (index : Nat) (t : Task) : Job × List Notice :=
  let o := t.setUp j.context
  let j' := { j with tasks := j.tasks.set index o.state }
  match o.result.bind fun _ => j.registry.register o.state.object index with
  | .ok registry => ({ j' with registry }, o.notices)
  | .error f =>
    let (failed, notices) := j'.fail index o.state.displayName f
    (failed, o.notices ++ notices)

def setUpAt (s : Job × List Notice) (index : Nat) : Job × List Notice :=
  match s.1.tasks[index]? with
  | none => s
  | some t =>
    if s.1.hasFailed index then s
    else
      let (j, notices) := s.1.setUpTask index t
      (j, s.2 ++ notices)

def setUpAll (j : Job) : Job × List Notice :=
  let (j, notices) := (List.range j.tasks.length).foldl setUpAt (j, [])
  (j, notices ++ [.allSetUp j.registry.size j.tasks.length])

def descriptions (j : Job) (systems : Systems) : List (Outcome Task Unit) :=
  j.tasks.mapIdx fun index t =>
    if !j.hasFailed index && t.progress == .configured then t.describe j.context systems
    else { state := t, result := .ok () }

def failuresOf (outcomes : List (Outcome Task Unit)) : List Failure :=
  (outcomes.mapIdx fun index o =>
    match o.result with
    | .ok _ => []
    | .error fault => [{ index, object := o.state.object, fault : Failure }]).flatten

def describeAll (j : Job) (systems : Systems) : Job × List Notice :=
  let outcomes := j.descriptions systems
  let failures := failuresOf outcomes
  let tasks := outcomes.map (·.state)
  ({ j with tasks, failures := j.failures ++ failures },
    outcomes.flatMap (·.notices) ++ failures.map (fun f => .failed f.object f.fault)
      ++ [.allDescribed (tasks.filter (·.progress == .described)).length tasks.length])

def prepare (j : Job) (systems : Systems) : Job × List Notice :=
  let (j, first) := j.setUpAll
  let (j, second) := j.describeAll systems
  (j, first ++ second)

def healthyTasks (j : Job) : List Task :=
  ((j.tasks.mapIdx fun index t => (index, t)).filter fun p => !j.hasFailed p.1).map Prod.snd

end Job

end MigrationPlan
