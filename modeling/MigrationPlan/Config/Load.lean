import MigrationPlan.Config.Form
import MigrationPlan.Digest.Sha256
import MigrationPlan.Files.Path
import MigrationPlan.Json.Reader
import MigrationPlan.Yaml.Walk
import MigrationPlan.Yaml.Writer

/- Valid configurations from texts, and the fingerprint of a configuration. -/
namespace MigrationPlan

open Yaml (Walk)

def leavesOf (names : List FieldName) : List (String × Walk) := names.map fun f => (f.name, .leaf)

def Endpoint.walk : Walk := .record (leavesOf memberNames)

def Request.walk : Walk := .record (("excludedFields", .each .leaf) :: leavesOf memberNames)

namespace Config

def walk : Walk :=
  .record [("source", Endpoint.walk), ("target", Endpoint.walk), ("personAccounts", .leaf),
    ("excludedReferenceTargets", .each .leaf), ("objects", .each Request.walk)]

def validated (c : Config) : Except Fault Config := c.validate.map fun _ => c

def ofYaml (w : Wording) (s : String) : Except Fault Config :=
  match ((Yaml.view? s).filter (·.allows walk)).bind read with
  | none => .error (.yaml (w.yamlConfig s))
  | some c => c.validated

def ofJson (w : Wording) (s : String) : Except Fault Config :=
  match (Json.read? s).bind read with
  | none => .error (.json (w.jsonConfig s))
  | some c => c.validated

def load (w : Wording) (read : Reader) (path : String) : Except Fault Config :=
  match read path with
  | .error f => .error (.file f)
  | .ok text => if Path.hasExtension path "json" then ofJson w text else ofYaml w text

def toYaml (c : Config) : String := Yaml.write c.tree

def fingerprint (c : Config) : String := Sha256.ofString c.toYaml

end Config

end MigrationPlan
