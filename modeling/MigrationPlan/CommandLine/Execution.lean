import MigrationPlan.CommandLine.Arguments
import MigrationPlan.Files.Tree
import MigrationPlan.Plan.Form
import MigrationPlan.Schema.Documents

/- What the command line does: from arguments and files to a plan, and from a plan to what is
   printed. -/
namespace MigrationPlan.CommandLine

structure Response where
  exitCode : UInt8
  output : String := ""
  errors : String := ""
  notices : List Notice := []
  deriving DecidableEq, Repr

def usage : String := "Usage: sobject-migrate [OPTIONS] <COMMAND>\n"

def helpText : String :=
  "Compile record migration jobs into resolved query plans\n\n" ++ usage
    ++ "\nCommands:\n"
    ++ "  check  Resolve every query without fetching metadata\n"
    ++ "  plan   Resolve queries and expand them against object metadata\n"
    ++ "           --source-metadata <DIR>  Source describe documents\n"
    ++ "           --target-metadata <DIR>  Target describe documents [default: those of the source]\n"
    ++ "           --save <FILE>            Also write the plan as JSON to this file\n"
    ++ "\nOptions:\n"
    ++ "  -c, --config <FILE>        Job file, YAML or .json [default: job.yaml]\n"
    ++ "      --output-json          Print the plan as JSON\n"
    ++ "      --log-format <FORMAT>  text or json [default: text]\n"
    ++ "      --verbosity <LEVEL>    debug, info, warn or error [default: info]\n"
    ++ "  -h, --help                 Print help\n"
    ++ "  -V, --version              Print version\n"

namespace Response

def ofVersion : Response := { exitCode := 0, output := "sobject-migrate 0.1.0\n" }

def ofHelp : Response := { exitCode := 0, output := helpText }

def ofUsageError : Response := { exitCode := 2, errors := usage }

def ofFault (f : Fault) (notices : List Notice) : Response :=
  { exitCode := f.exitCode, errors := f.report ++ "\n", notices }

def ofPlan (o : Options) (p : Plan) (notices : List Notice) : Response :=
  { exitCode := p.content.exitCode,
    output := if o.outputJson then p.toJson ++ "\n" else p.summary, notices }

end Response

def isLogFormat (s : String) : Bool := s == "text" || s == "json"

section Commands
variable (w : Wording)

def configOf (read : Reader) (o : Options) : Except Fault Config :=
  if isLogFormat o.logFormat then Config.load w read o.config
  else .error (.job (.unknownLogFormat o.logFormat))

def jobOf (read : Reader) (c : Config) (command : Command) : Except Fault (Job × List Notice) :=
  (Job.ofConfig c).map fun j =>
    let (j, notices) := match command with
      | .check => j.setUpAll
      | .plan source target _ =>
        j.prepare { source := Documents.system w read source,
                    target := Documents.system w read target }
    (j, Job.creationNotices c ++ notices)

def contentOf (read : Reader) (o : Options) (command : Command) :
    Except Fault (PlanContent × List Notice) :=
  (configOf w read o).bind fun c => (jobOf w read c command).map fun r => (.ofJob r.1, r.2)

def documentPaths (read : Reader) (o : Options) (command : Command) : List String :=
  match command, (configOf w read o).bind Job.ofConfig with
  | .plan source target _, .ok j =>
    let objects := j.setUpAll.1.tasks.map (·.object)
    [source, target].flatMap fun directory => objects.map (Documents.pathOf directory)
  | _, _ => []

def Command.savePath? : Command → Option String
  | .check => none
  | .plan _ _ save => save

/-- A command before it has written anything: it has its response, or there is a text to write and
    the response is up to what comes of that. -/
inductive Pending where
  | answered (r : Response)
  | writing (path text : String) (answer : Except FileFault Unit → Response)

def pendingOf (read : Reader) (id : String) (now : Timestamp) (o : Options) (command : Command) :
    Pending :=
  match contentOf w read o command with
  | .error f => .answered (.ofFault f [])
  | .ok (content, notices) =>
    let p : Plan := { id, generatedAt := now, content }
    match command.savePath? with
    | none => .answered (.ofPlan o p notices)
    | some path =>
      .writing path p.toJson fun
        | .error f => .ofFault (.file f) notices
        | .ok _ => .ofPlan o p notices

def runIn (t : FileTree) (id : String) (now : Timestamp) (o : Options) (command : Command) :
    Response × FileTree :=
  match pendingOf w t.read id now o command with
  | .answered r => (r, t)
  | .writing path text answer =>
    match t.write path text with
    | .error f => (answer (.error f), t)
    | .ok t' => (answer (.ok ()), t')

def Invocation.respond {α : Type} (answer : Response → α) (run : Options → Command → α) :
    Invocation → α
  | .version => answer .ofVersion
  | .help => answer .ofHelp
  | .usageError => answer .ofUsageError
  | .run o command => run o command

def respondIn (t : FileTree) (id : String) (now : Timestamp) (arguments : List String) :
    Response × FileTree :=
  (Invocation.read arguments).respond (·, t) (runIn w t id now)

end Commands

end MigrationPlan.CommandLine
