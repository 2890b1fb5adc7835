import MigrationPlan.Fault
import MigrationPlan.Selection.Validation
import MigrationPlan.Task.ExternalId

/- What a job reports while it runs. -/
namespace MigrationPlan

inductive Level where
  | debug
  | info
  | warn
  | error
  deriving DecidableEq, Repr

namespace Level

def name : Level → String
  | debug => "DEBUG"
  | info => "INFO"
  | warn => "WARN"
  | error => "ERROR"

def rank : Level → Nat
  | debug => 0
  | info => 1
  | warn => 2
  | error => 3

/-- A level by its name in any case; other names ask for `info`. -/
def ofName (s : String) : Level :=
  ([debug, warn, error].find? fun l => Text.sameName l.name s).getD info

end Level

inductive Notice where
  | skipped (query : String)
  | allExcluded
  | alreadySetUp (object : String)
  | staysSelected (object field : String)
  | setUp (object : String) (operation : Operation) (externalId : ExternalId) (queryText : String)
  | allSetUp (count total : Nat)
  | describing (object : String) (side : Side) (system : String)
  | expanded (added : Nat) (object : String) (total : Nat)
  | dropped (warning : Warning)
  | described (object : String) (entries warnings : Nat)
  | allDescribed (count total : Nat)
  | failed (object : String) (fault : Fault)
  deriving DecidableEq, Repr

namespace Notice

def level : Notice → Level
  | skipped _ | alreadySetUp _ | describing _ _ _ | expanded _ _ _ => .debug
  | setUp _ _ _ _ | allSetUp _ _ | described _ _ _ | allDescribed _ _ => .info
  | allExcluded | staysSelected _ _ | dropped _ => .warn
  | failed _ _ => .error

def message : Notice → String
  | skipped query => "Skipping excluded object: " ++ query
  | allExcluded => "Every object in the job is excluded"
  | alreadySetUp object => "Task " ++ object ++ " already configured"
  | staysSelected object field =>
    "Field " ++ object ++ "." ++ field
      ++ " is required for matching records and stays selected despite being excluded"
  | setUp object operation externalId queryText =>
    "Configured " ++ object ++ " (" ++ operation.name ++ ", external id " ++ externalId.text ++
      "): " ++ queryText
  | allSetUp count total =>
    "Configured " ++ toString count ++ " of " ++ toString total ++ " task(s)"
  | describing object side system =>
    "Describing " ++ object ++ " on the " ++ side.name ++ " side (" ++ system ++ ")"
  | expanded added object total =>
    "Expanded " ++ toString added ++ " field(s) for " ++ object ++ " from " ++ toString total ++
      " snapshot fields"
  | dropped warning => warning.message
  | described object entries warnings =>
    "Described " ++ object ++ ": " ++ toString entries ++ " field(s), " ++
      toString warnings ++ " warning(s)"
  | allDescribed count total =>
    "Described " ++ toString count ++ " of " ++ toString total ++ " task(s)"
  | failed object fault => "Task " ++ object ++ " failed: " ++ fault.message

end Notice

end MigrationPlan
