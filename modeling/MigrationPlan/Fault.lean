import MigrationPlan.Query.Clause
import MigrationPlan.Side

/- What can go wrong, by cause, with the text and the exit code of each. -/
namespace MigrationPlan

inductive FileFault where
  | notFound
  | isDirectory
  | notDirectory
  | nameTooLong
  | nulInName
  | notText
  | reported (text : String)
  deriving DecidableEq, Repr

def FileFault.message : FileFault → String
  | notFound => "No such file or directory (os error 2)"
  | isDirectory => "Is a directory (os error 21)"
  | notDirectory => "Not a directory (os error 20)"
  | nameTooLong => "File name too long (os error 36)"
  | nulInName => "file name contained an unexpected NUL byte"
  | notText => "stream did not contain valid UTF-8"
  | reported text => text

abbrev Reader := String → Except FileFault String

/-- What the readers of YAML and JSON say of a text they refuse. It depends on what the text should
    hold. -/
structure Wording where
  yamlConfig : String → String
  jsonConfig : String → String
  document : String → String

inductive ObjectFault where
  | malformedQuery (text : String) (error : Query.ParseError)
  | unknownOperation (text : String)
  | emptyExternalId (text : String)
  | notSetUp
  | neitherSideDescribed
  | nothingSelected
  | missingRecordId (field : String) (side : Side)
  | missingExternalId (field : String) (side : Side)
  | listedTwice
  | reported (text : String)
  deriving DecidableEq, Repr

def missingText (role field : String) (side : Side) : String :=
  role ++ " field " ++ field ++ " is missing on the " ++ side.name ++
    " side; records cannot be matched"

def ObjectFault.message : ObjectFault → String
  | malformedQuery text error => "malformed query \"" ++ text ++ "\": " ++ error.message
  | unknownOperation text => "unknown operation '" ++ text ++ "'"
  | emptyExternalId text => "external id '" ++ text ++ "' names no field"
  | notSetUp => "task must be set up before it is described"
  | neitherSideDescribed => "neither side can be described"
  | nothingSelected => "query selects no fields to process"
  | missingRecordId field side => missingText "record id" field side
  | missingExternalId field side => missingText "external id" field side
  | listedTwice => "object is listed more than once in the job"
  | reported text => text

inductive DescribeFault where
  | unknownObject (object system : String)
  | unreadable (path : String) (fault : FileFault)
  | malformed (path text : String)
  | otherObject (path found object : String)
  | reported (text : String)
  deriving DecidableEq, Repr

def DescribeFault.message : DescribeFault → String
  | unknownObject object system => "object " ++ object ++ " is not known to " ++ system
  | unreadable path fault => "cannot read " ++ path ++ ": " ++ fault.message
  | malformed path text => "invalid describe document " ++ path ++ ": " ++ text
  | otherObject path found object => path ++ " describes " ++ found ++ " instead of " ++ object
  | reported text => text

inductive JobFault where
  | noObjects
  | emptyQuery (position : Nat)
  | nothingDescribable
  | unknownLogFormat (name : String)
  | reported (text : String)
  deriving DecidableEq, Repr

def JobFault.message : JobFault → String
  | noObjects => "at least one object is required"
  | emptyQuery position => "objects[" ++ toString position ++ "].query is required"
  | nothingDescribable => "source and target cannot both be csv files"
  | unknownLogFormat name => "unknown log format '" ++ name ++ "'"
  | reported text => text

inductive Fault where
  | object (name : String) (fault : ObjectFault)
  | query (error : Query.ParseError)
  | job (fault : JobFault)
  | metadata (object : String) (side : Side) (text : String)
  | describe (fault : DescribeFault)
  | file (fault : FileFault)
  | yaml (text : String)
  | json (text : String)
  deriving DecidableEq, Repr

namespace Fault

def message : Fault → String
  | object name fault => "Configuration error for object " ++ name ++ ": " ++ fault.message
  | query error => error.message
  | job fault => "Invalid job configuration: " ++ fault.message
  | metadata name side text =>
    "Metadata not found for object " ++ name ++ " on the " ++ side.name ++ " side: " ++ text
  | describe fault => "Describe failed: " ++ fault.message
  | file fault => "IO error: " ++ fault.message
  | yaml text => "YAML error: " ++ text
  | json text => "JSON error: " ++ text

def isConfiguration : Fault → Bool
  | object _ _ | query _ | job _ => true
  | _ => false

def exitCode : Fault → UInt8
  | object _ _ | query _ | job _ | yaml _ | json _ => 1
  | metadata _ _ _ | describe _ => 3
  | file _ => 7

def cause? : Fault → Option String
  | file fault => some fault.message
  | yaml text | json text => some text
  | _ => none

def report (f : Fault) : String :=
  "Error: " ++ f.message ++ "\n" ++ f.cause?.elim "" ("\nCaused by:\n  1: " ++ ·)

end Fault

end MigrationPlan
