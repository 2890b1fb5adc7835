import MigrationPlan.CommandLine.Execution
import MigrationPlan.Proofs.Job.Faults

/- What a fault comes to at the end of a command. A command calls its job once; when the job is read
   and its plan can be saved, the response exits by the failures of the job alone. -/
namespace MigrationPlan.CommandLine

def Command.calls (w : Wording) (read : Reader) : Command → List Job.Call
  | .check => [.setUpAll]
  | .plan source target _ =>
    [.prepare
      { source := Documents.system w read source, target := Documents.system w read target }]

theorem jobOf_ok (w : Wording) (read : Reader) {c : Config} {j : Job}
    (valid : Job.ofConfig c = .ok j) (command : Command) :
    ∃ notices, jobOf w read c command = .ok (j.run (command.calls w read), notices) := by
  unfold jobOf
  rw [valid]
  cases command with
  | check => exact ⟨_, rfl⟩
  | plan source target save => exact ⟨_, rfl⟩

/-- The plan can be written where the command asks for it. -/
def Saved (t : FileTree) (command : Command) (p : Plan) : Prop :=
  ∀ path, command.savePath? = some path → ∃ t', t.write path p.toJson = .ok t'

theorem runIn_exitCode {w : Wording} {t : FileTree} {id : String} {now : Timestamp} {o : Options}
    {command : Command} {content : PlanContent} {notices : List Notice}
    (read : contentOf w t.read o command = .ok (content, notices))
    (saved : Saved t command { id, generatedAt := now, content }) :
    (runIn w t id now o command).1.exitCode = content.exitCode := by
  unfold runIn pendingOf
  rw [read]
  dsimp only
  cases path : command.savePath? with
  | none => rfl
  | some path' =>
    obtain ⟨t', written⟩ := saved path' path
    simp only [written]
    rfl

/-- Zero stands for no failures, since no failure that is recorded has that code. -/
theorem exitCode_ofJob {j : Job} (classed : j.Classed) :
    ((PlanContent.ofJob j).exitCode = 0 ↔ (PlanContent.ofJob j).failures = []) ∧
      ∀ f rest, j.failures = f :: rest →
        (PlanContent.ofJob j).exitCode = f.fault.exitCode ∧
          ((PlanContent.ofJob j).exitCode = 1 ∨ (PlanContent.ofJob j).exitCode = 3) := by
  have recorded : (PlanContent.ofJob j).failures = j.failures.map .ofFailure := rfl
  unfold PlanContent.exitCode
  rw [recorded]
  cases failures : j.failures with
  | nil => exact ⟨iff_of_true rfl rfl, nofun⟩
  | cons f rest =>
    have code : f.fault.exitCode = 1 ∨ f.fault.exitCode = 3 := by
      rcases classed f (by simp [failures]) with ⟨_, one⟩ | ⟨_, _, _, three⟩
      · exact Or.inl one
      · exact Or.inr three
    have nonzero : f.fault.exitCode ≠ 0 := by
      rcases code with one | three
      · simp [one]
      · simp [three]
    refine ⟨iff_of_false nonzero (by simp), ?_⟩
    intro g more same
    cases same
    exact ⟨rfl, code⟩

theorem runIn_failures {w : Wording} {files : FileTree} {id : String} {now : Timestamp}
    {o : Options} {command : Command} {c : Config} {j : Job} (valid : Job.ofConfig c = .ok j)
    (loads : configOf w files.read o = .ok c)
    (saved : Saved files command
      { id, generatedAt := now, content := .ofJob (j.run (command.calls w files.read)) }) :
    (runIn w files id now o command).1.exitCode =
      (PlanContent.ofJob (j.run (command.calls w files.read))).exitCode := by
  obtain ⟨notices, called⟩ := jobOf_ok w files.read valid command
  have read : contentOf w files.read o command =
      .ok (.ofJob (j.run (command.calls w files.read)), notices) := by
    rw [contentOf, loads, Except.bind, called]
    rfl
  exact runIn_exitCode read saved

/-- A failure keeps its class from where it arises to the exit code. What is recorded is of the
    configuration, or is the answer of a side that was asked; the target is asked only when the
    source has not failed. A command that has read its job, and can save its plan, exits with the
    code of the first failure. -/
theorem failures_keep_class {c : Config} {j : Job} (valid : Job.ofConfig c = .ok j)
    (calls : List Job.Call) :
    let k := j.run calls
    (∀ f ∈ k.failures,
      (f.fault.isConfiguration = true ∧ f.fault.exitCode = 1) ∨
        ∃ side text, f.fault = .metadata f.object side text ∧ f.fault.exitCode = 3) ∧
    (∀ systems i t, k.tasks[i]? = some t → k.hasFailed i = false → t.progress = .configured →
      let asked := (t.describe c.context systems).asked
      (.source ∈ asked ↔ c.context.source.isDescribable = true) ∧
      (.target ∈ asked ↔ c.context.target.isDescribable = true ∧
        (c.context.source.isDescribable = true →
          ∃ s, t.work.PassesSource c.context systems t.request.isExtraObject s)) ∧
      (∀ systems', (∀ side ∈ asked, systems'.on side = systems.on side) →
        t.describe c.context systems' = t.describe c.context systems) ∧
      ∀ side ∈ asked, ∀ e, (systems.on side).describe t.object = .error e → ∀ later,
        ((k.describeAll systems).1.run later).failuresAt i =
          [{ index := i, object := t.object
             fault := if e.isConfiguration then e else .metadata t.object side e.message }]) ∧
    ∀ w files id now o command, configOf w files.read o = .ok c →
      let after := j.run (command.calls w files.read)
      Saved files command { id, generatedAt := now, content := .ofJob after } →
        let code := (runIn w files id now o command).1.exitCode
        (code = 0 ↔ (PlanContent.ofJob after).failures = []) ∧
          ∀ f rest, after.failures = f :: rest →
            code = f.fault.exitCode ∧ (code = 1 ∨ code = 3) := by
  intro k
  refine ⟨Job.run_classed valid calls, ?_, ?_⟩
  · intro systems i t task healthy waits asked
    obtain ⟨w, stage⟩ := Task.progress_configured.mp waits
    have work : asked = (w.describe c.context systems t.request.isExtraObject).asked :=
      Task.describe_asked stage
    refine ⟨?_, ?_, fun systems' same => Task.describe_congr stage same, ?_⟩
    · rw [work]
      exact Work.source_asked
    · rw [work, Task.configured_work stage]
      exact Work.target_asked
    · intro side inside e answer later
      have context : k.context = c.context := Job.run_context valid calls
      exact Job.describeAll_unanswered task healthy waits (context.symm ▸ inside) answer later
  · intro w files id now o command loads after saved code
    have exits : code = (PlanContent.ofJob after).exitCode := runIn_failures valid loads saved
    rw [exits]
    exact exitCode_ofJob (Job.run_classed valid _)

def contactAndNothing : Config :=
  { source := {}, target := {},
    requests := [{ query := "SELECT Id FROM Contact" }, { query := "SELECT FROM" }] }

def contactAndNothingText : String :=
  "\x7b\"source\": \x7b\x7d, \"target\": \x7b\x7d, \"objects\": [" ++
    "\x7b\"query\": \"SELECT Id FROM Contact\"\x7d, \x7b\"query\": \"SELECT FROM\"\x7d]\x7d"

def jobFiles : FileTree := { files := [(["job.json"], contactAndNothingText.toUTF8)] }

theorem jobFiles_read : jobFiles.read "job.json" = .ok contactAndNothingText := by
  have named : "job.json".contains '\x00' = false := by simp
  have checked : FileTree.checkPath "job.json" = .ok () := by
    unfold FileTree.checkPath
    rw [named]
    rfl
  have bytes : jobFiles.readBytes "job.json" = .ok contactAndNothingText.toUTF8 := by
    unfold FileTree.readBytes
    rw [checked]
    rfl
  have text : String.fromUTF8? contactAndNothingText.toUTF8 = some contactAndNothingText := by
    simp only [String.fromUTF8?]
    exact dif_pos contactAndNothingText.isValidUTF8
  unfold FileTree.read
  rw [bytes]
  simp only [bind, Except.bind, text]

def terse : Wording where
  yamlConfig _ := "no YAML"
  jsonConfig _ := "no JSON"
  document _ := "no document"

theorem contactAndNothing_loads :
    configOf terse jobFiles.read { config := "job.json" } = .ok contactAndNothing := by
  have json : Path.hasExtension "job.json" "json" = true := by decide +kernel
  have loaded : Config.load terse jobFiles.read "job.json" = .ok contactAndNothing := by
    unfold Config.load
    rw [jobFiles_read]
    simp only [json, ↓reduceIte]
    decide +kernel
  exact loaded

def truncated : System where
  name := "old"
  describe _ := .error (.json "EOF while parsing a value at line 1 column 0")

theorem failures_keep_class_contact :
    ∃ j, Job.ofConfig contactAndNothing = .ok j ∧
      ((j.run [.setUpAll]).describeAll ⟨truncated, truncated⟩).1.failuresAt 0 =
        [{ index := 0, object := "Contact"
           fault := .metadata "Contact" .source
             "JSON error: EOF while parsing a value at line 1 column 0" }] ∧
      (runIn terse jobFiles "1"
        { year := 2024, month := 1, day := 2, hour := 3, minute := 4, second := 5 }
        { config := "job.json" } .check).1.exitCode = 1 := by
  have checked : contactAndNothing.validate = .ok () := by decide +kernel
  have valid := Job.ofConfig_eq_ok.mpr ⟨checked, rfl⟩
  have contact :
      (Task.setUp contactAndNothing.context
          { request := { query := "SELECT Id FROM Contact" } }).state.object =
        "Contact" := by decide +kernel
  obtain ⟨_, answered, exits⟩ := failures_keep_class valid [.setUpAll]
  refine ⟨_, valid, ?_, ?_⟩
  · obtain ⟨source, _, _, recorded⟩ := answered ⟨truncated, truncated⟩ 0
      (Task.setUp contactAndNothing.context
        { request := { query := "SELECT Id FROM Contact" } }).state
      (by decide +kernel) (by decide +kernel) (by decide +kernel)
    have failed := recorded .source (source.mpr rfl) _ rfl []
    rw [contact] at failed
    exact failed
  · obtain ⟨_, first⟩ :=
      exits terse jobFiles "1"
        { year := 2024, month := 1, day := 2, hour := 3, minute := 4, second := 5 }
      { config := "job.json" } .check contactAndNothing_loads nofun
    exact (first
      { index := 1, object := "SELECT FROM"
        fault := .object "<unknown>" (.malformedQuery "SELECT FROM" .noEntries) } []
      (by decide +kernel)).1

end MigrationPlan.CommandLine
