import MigrationPlan.Notice

/- The arguments of the command line. Options of the program stand before its command, those of a
   command behind it; each may be given once. -/
namespace MigrationPlan.CommandLine

structure Options where
  config : String := "job.yaml"
  outputJson : Bool := false
  logFormat : String := "text"
  verbosity : Level := .info
  deriving DecidableEq, Repr

inductive Command where
  | check
  | plan (source target : String) (save : Option String)
  deriving DecidableEq, Repr

inductive Invocation where
  | version
  | help
  | usageError
  | run (options : Options) (command : Command)
  deriving DecidableEq, Repr

structure OptionForm where
  name : String
  letter : Option Char := none
  takesValue : Bool := true
  allowsEmpty : Bool := false
  deriving DecidableEq, Repr

def programForms : List OptionForm :=
  [{ name := "config", letter := some 'c' }, { name := "output-json", takesValue := false },
   { name := "log-format", allowsEmpty := true }, { name := "verbosity", allowsEmpty := true },
   { name := "help", letter := some 'h', takesValue := false },
   { name := "version", letter := some 'V', takesValue := false }]

def helpForm : OptionForm := { name := "help", letter := some 'h', takesValue := false }

def planForms : List OptionForm :=
  [{ name := "source-metadata" }, { name := "target-metadata" }, { name := "save" }, helpForm]

/-- A value that stands on its own does not begin with a hyphen, unless it is one. -/
def isWord (s : String) : Bool := s == "-" || s.toList.head? != some '-'

structure Spelling where
  form : OptionForm
  isLong : Bool
  value : Option String

def splitValue (s : List Char) : List Char × Option String :=
  let name := s.takeWhile (· != '=')
  (name, (s.drop name.length).head?.map fun _ => String.ofList (s.drop (name.length + 1)))

def spelling? (forms : List OptionForm) (s : String) : Option Spelling :=
  match s.toList with
  | '-' :: '-' :: rest =>
    let (name, value) := splitValue rest
    (forms.find? (·.name == String.ofList name)).map fun form => { form, isLong := true, value }
  | '-' :: letter :: rest =>
    let value := match rest with
      | [] => none
      | '=' :: value => some (String.ofList value)
      | value => some (String.ofList value)
    (forms.find? (·.letter == some letter)).map fun form => { form, isLong := false, value }
  | _ => none

inductive Reading where
  | version
  | help
  | wrong
  | done (values : List (String × String)) (rest : List String)

def addValue? (form : OptionForm) (value : String) (values : List (String × String)) :
    Option (List (String × String)) :=
  if (values.lookup form.name).isSome ||
    (value.isEmpty && form.takesValue && !form.allowsEmpty) then none
  else some ((form.name, value) :: values)

/-- Reads options up to the first word; `waiting` is an option whose value is the next argument. Two
    hyphens alone end the options, and nothing may stand behind them. -/
def readOptions (forms : List OptionForm) (waiting : Option OptionForm)
    (values : List (String × String)) :
    List String → Reading
  | [] => if waiting.isSome then .wrong else .done values []
  | s :: rest =>
    match waiting with
    | some form =>
      if isWord s then
        match addValue? form s values with
        | some values => readOptions forms none values rest
        | none => .wrong
      else .wrong
    | none =>
      if isWord s then .done values (s :: rest)
      else if s == "--" then (if rest.isEmpty then .done values [] else .wrong)
      else
        match spelling? forms s with
        | none => .wrong
        | some x =>
          if x.form.takesValue then
            match x.value with
            | none => readOptions forms (some x.form) values rest
            | some value =>
              match addValue? x.form value values with
              | some values => readOptions forms none values rest
              | none => .wrong
          else if x.isLong && x.value.isSome then .wrong
          else if x.form.name == "version" then .version
          else if x.form.name == "help" then .help
          else
            match addValue? x.form "" values with
            | some values => readOptions forms none values rest
            | none => .wrong

def readPlan (arguments : List String) : Option Command ⊕ Invocation :=
  match readOptions planForms none [] arguments with
  | .version | .wrong => .inr .usageError
  | .help => .inr .help
  | .done _ (_ :: _) => .inr .usageError
  | .done values [] =>
    .inl ((values.lookup "source-metadata").map fun source =>
      .plan source ((values.lookup "target-metadata").getD source) (values.lookup "save"))

def readCheck (arguments : List String) : Option Command ⊕ Invocation :=
  match readOptions [helpForm] none [] arguments with
  | .done _ [] => .inl (some .check)
  | .help => .inr .help
  | _ => .inr .usageError

def optionsOf (values : List (String × String)) : Options :=
  { config := (values.lookup "config").getD "job.yaml"
    outputJson := (values.lookup "output-json").isSome
    logFormat := (values.lookup "log-format").getD "text"
    verbosity := (values.lookup "verbosity").elim .info .ofName }

def Invocation.read (arguments : List String) : Invocation :=
  match readOptions programForms none [] arguments with
  | .version => .version
  | .help => .help
  | .wrong => .usageError
  | .done values rest =>
    let command := match rest with
      | "check" :: rest => readCheck rest
      | "plan" :: rest => readPlan rest
      | ["help"] | ["help", "check"] | ["help", "plan"] | ["help", "help"] => .inr .help
      | _ => .inr .usageError
    match command with
    | .inr invocation => invocation
    | .inl (some command) => .run (optionsOf values) command
    | .inl none => .usageError

end MigrationPlan.CommandLine
