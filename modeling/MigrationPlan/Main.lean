import MigrationPlan.CommandLine.Execution
import Std.Time.DateTime.Timestamp

/- The program: it reads the files that a command asks for, writes a plan where it is told to, and
   prints. -/
namespace MigrationPlan

/-- The code of a system error, which some calls give negated. -/
def systemCode (code : UInt32) : UInt32 := if code < 0x80000000 then code else 0 - code

def FileFault.ofError : IO.Error → FileFault
  | .noFileOrDirectory _ _ _ => .notFound
  | .inappropriateType _ code _ => if systemCode code == 20 then .notDirectory else .isDirectory
  | .invalidArgument _ code details =>
    if systemCode code == 36 then .nameTooLong
    else if code == 22 then .nulInName else .reported details
  | .permissionDenied _ _ _ => .reported "Permission denied (os error 13)"
  | e => .reported (toString e)

def readText (path : String) : IO (Except FileFault String) := do
  try
    match String.fromUTF8? (← IO.FS.readBinFile path) with
    | some text => return .ok text
    | none => return .error .notText
  catch e => return .error (.ofError e)

def writeText (path text : String) : IO (Except FileFault Unit) := do
  try
    IO.FS.writeFile path text
    return .ok ()
  catch e => return .error (.ofError e)

/-- A random identifier in five groups of hexadecimal digits; version 4 and its variant are marked
    in it. -/
def identifier (bytes : List UInt8) : String :=
  let marked := bytes.mapIdx fun i b =>
    if i == 6 then (b &&& 0x0f) ||| 0x40 else if i == 8 then (b &&& 0x3f) ||| 0x80 else b
  let digits := marked.flatMap fun b => [Json.hexDigit (b.toNat / 16), Json.hexDigit (b.toNat % 16)]
  let group (start count : Nat) := String.ofList ((digits.drop start).take count)
  "-".intercalate [group 0 8, group 8 4, group 12 4, group 16 4, group 20 12]

def currentTime : IO Timestamp := do
  let d := (← Std.Time.Timestamp.now).toDurationSinceUnixEpoch
  return .ofEpoch d.second.val d.nano.val.toNat

def wording : Wording where
  yamlConfig _ := "the text is no job in YAML"
  jsonConfig _ := "the text is no job in JSON"
  document _ := "the text is no described object"

def gather (o : CommandLine.Options) (command : CommandLine.Command) : IO Reader := do
  let config := [(o.config, ← readText o.config)]
  let reader (known : List (String × Except FileFault String)) : Reader :=
    fun path => (known.lookup path).getD (.error .notFound)
  let documents ← (CommandLine.documentPaths wording (reader config) o command).mapM fun path => do
    return (path, ← readText path)
  return reader (config ++ documents)

def noticeLine (logFormat : String) (n : Notice) : String :=
  if logFormat == "json" then
    "\x7b\"level\":" ++ Json.quoted n.level.name ++ ",\"message\":" ++
      Json.quoted n.message ++ "\x7d"
  else n.level.name ++ " " ++ n.message

def runProgram (o : CommandLine.Options) (command : CommandLine.Command) :
    IO CommandLine.Response := do
  let read ← gather o command
  let id := identifier (← IO.getRandomBytes 16).toList
  match CommandLine.pendingOf wording read id (← currentTime) o command with
  | .answered r => return r
  | .writing path text answer => return answer (← writeText path text)

end MigrationPlan

open MigrationPlan CommandLine in
def main (arguments : List String) : IO UInt32 := do
  let invocation := Invocation.read arguments
  let response ← invocation.respond pure runProgram
  if let .run o _ := invocation then
    for n in response.notices.filter fun n => o.verbosity.rank ≤ n.level.rank do
      IO.eprintln (noticeLine o.logFormat n)
  IO.print response.output
  IO.eprint response.errors
  return response.exitCode.toUInt32
