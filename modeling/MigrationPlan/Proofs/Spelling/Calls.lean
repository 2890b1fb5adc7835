import MigrationPlan.Proofs.Spelling.Description

/- Case does not matter for what is selected. Two tasks whose requests and whose calls agree up to
   case take the same way: each call ends alike, and what is known of the tasks agrees up to case
   throughout. -/
namespace MigrationPlan
open Text

/-- Configurations with the same media and the same kind of accounts, whose denied parents agree up
    to case. -/
structure Config.Alike (c c' : Config) : Prop where
  source : c.source.medium = c'.source.medium
  target : c.target.medium = c'.target.medium
  personAccounts : c.personAccounts = c'.personAccounts
  deniedParents : c.deniedParents.map fold = c'.deniedParents.map fold

theorem Config.Alike.context {c c' : Config} (alike : c.Alike c') : c.context = c'.context := by
  rw [Config.context, Config.context, alike.source, alike.target, alike.personAccounts,
    ← NameSet.ofList_folded, alike.deniedParents, NameSet.ofList_folded]

/-- Systems that answer alike where each is asked by a task of its own: alike snapshots, or faults
    of one kind. -/
def Systems.Alike (c : Context) (r r' : Request) (systems systems' : Systems) : Prop :=
  ∀ q q', Query.parse r.query = .ok q → Query.parse r'.query = .ok q' →
    ∀ side, (c.medium side).isDescribable = true →
    upTo Snapshot.folded ((systems.on side).describe q.object) =
      upTo Snapshot.folded ((systems'.on side).describe q'.object)

namespace Task

inductive Call.Alike (r r' : Request) : Call → Call → Prop where
  | setUp {c c' : Config} (configs : c.Alike c') : Alike r r' (.setUp c.context) (.setUp c'.context)
  | describe {c c' : Config} {systems systems' : Systems} (configs : c.Alike c')
      (answers : systems.Alike c.context r r' systems') :
      Alike r r' (.describe c.context systems) (.describe c'.context systems')

def outcome (t : Task) : Call → Outcome Task Unit
  | .setUp c => t.setUp c
  | .describe c systems => t.describe c systems

theorem outcome_state (t : Task) (call : Call) : (t.outcome call).state = t.call call := by
  cases call <;> rfl

def endings (t : Task) : List Call → List (Except Fault Unit)
  | [] => []
  | call :: later => upTo id (t.outcome call).result :: (t.call call).endings later

end Task

def Stage.folded : Stage → Stage
  | unconfigured => unconfigured
  | configured w => configured w.folded
  | described w => described w.folded

theorem Stage.folded_cases {x y : Stage} (same : x.folded = y.folded) :
    (x = .unconfigured ∧ y = .unconfigured) ∨
      (∃ w w', x = .configured w ∧ y = .configured w' ∧ w.folded = w'.folded) ∨
        ∃ w w', x = .described w ∧ y = .described w' ∧ w.folded = w'.folded := by
  cases x with
  | unconfigured =>
    cases y with
    | unconfigured => exact Or.inl ⟨rfl, rfl⟩
    | configured w' => cases same
    | described w' => cases same
  | configured w =>
    cases y with
    | unconfigured => cases same
    | configured w' => exact Or.inr (Or.inl ⟨w, w', rfl, rfl, Stage.configured.inj same⟩)
    | described w' => cases same
  | described w =>
    cases y with
    | unconfigured => cases same
    | configured w' => cases same
    | described w' => exact Or.inr (Or.inr ⟨w, w', rfl, rfl, Stage.described.inj same⟩)

theorem Stage.progress_folded (x : Stage) : x.folded.progress = x.progress := by
  cases x <;> rfl

namespace Task

def folded (t : Task) : Task := { request := t.request.folded, stage := t.stage.folded }

def NamesObject (r : Request) (w : Work) : Prop :=
  ∃ q, Query.parse r.query = .ok q ∧ w.brief.object = q.object

theorem namesObject_kept (r : Request) : Kept r (NamesObject r) where
  setUp c w made := by
    obtain ⟨x, operation, configuredId, resolved, _, _, rfl⟩ := Request.setUp_eq_ok.mp made
    obtain ⟨q, read, rfl⟩ := Resolution.ofText_eq_ok.mp resolved
    exact ⟨q, read, rfl⟩
  describe c systems w h := by
    obtain ⟨q, read, object⟩ := h
    exact ⟨q, read,
      (congrArg Brief.object (w.describe_brief c systems r.isExtraObject)).trans object⟩

section Step
variable {t t' : Task} (same : t.folded = t'.folded)
include same

theorem enter_alike {stage stage' : Stage} (stages : stage.folded = stage'.folded) :
    ({ t with stage } : Task).folded = ({ t' with stage := stage' } : Task).folded :=
  congrArg₂ Task.mk (congrArg Task.request same) stages

theorem unconfigured_alike (stage : t.stage = .unconfigured) : t'.stage = .unconfigured := by
  rcases Stage.folded_cases (congrArg Task.stage same) with ⟨_, stage'⟩ | ⟨w, _, known, _⟩
    | ⟨w, _, known, _⟩
  · exact stage'
  · rw [stage] at known
    cases known
  · rw [stage] at known
    cases known

theorem setUp_alike (c : Context) : Outcome.Alike folded id (t.setUp c) (t'.setUp c) := by
  by_cases stage : t.stage = .unconfigured
  · have stage' := unconfigured_alike same stage
    rcases upTo_cases (Request.setUp_alike (congrArg Task.request same) c) with
      ⟨w, w', made, made', works⟩ | ⟨f, f', failed, failed', kinds⟩
    · obtain ⟨state, result⟩ := setUp_ok c stage made
      obtain ⟨state', result'⟩ := setUp_ok c stage' made'
      refine ⟨?_, by rw [result, result']⟩
      rw [state, state']
      exact enter_alike same (congrArg Stage.configured works)
    · obtain ⟨state, result⟩ := setUp_error c stage failed
      obtain ⟨state', result'⟩ := setUp_error c stage' failed'
      refine ⟨by rw [state, state', same], ?_⟩
      rw [result, result']
      exact congrArg Except.error kinds
  · have known' : t'.stage ≠ .unconfigured :=
      fun stage' => stage (unconfigured_alike same.symm stage')
    obtain ⟨state, result⟩ := setUp_of_work c stage
    obtain ⟨state', result'⟩ := setUp_of_work c known'
    exact ⟨by rw [state, state', same], by rw [result, result']⟩

theorem describe_alike (c : Context) {systems systems' : Systems}
    (names : Knows (NamesObject t.request) t.stage)
    (names' : Knows (NamesObject t'.request) t'.stage)
    (answers : systems.Alike c t.request t'.request systems') :
    Outcome.Alike folded id (t.describe c systems) (t'.describe c systems') := by
  rcases Stage.folded_cases (congrArg Task.stage same) with
    ⟨stage, stage'⟩ | ⟨w, w', stage, stage', works⟩ | ⟨w, w', stage, stage', _⟩
  · simp only [describe, stage, stage']
    exact ⟨same, rfl⟩
  · rw [stage] at names
    rw [stage'] at names'
    obtain ⟨q, read, object⟩ := names
    obtain ⟨q', read', object'⟩ := names'
    have extra : t.request.isExtraObject = t'.request.isExtraObject :=
      (congrArg (·.request.isExtraObject) same : t.folded.request.isExtraObject =
        t'.folded.request.isExtraObject)
    -- each task asks for the object of its own query, which is what the systems answer alike
    have asked : ∀ side, (c.medium side).isDescribable = true →
        upTo Snapshot.folded ((systems.on side).describe w.brief.object) =
          upTo Snapshot.folded ((systems'.on side).describe w'.brief.object) := by
      rw [object, object']
      exact answers q q' read read'
    have attempt := Work.describe_alike c t.request.isExtraObject works asked
    rcases upTo_cases attempt.result with ⟨_, _, ok, ok', _⟩ | ⟨f, f', failed, failed', kinds⟩
    · obtain ⟨state, result⟩ := describe_ok stage ok
      rw [extra] at ok'
      obtain ⟨state', result'⟩ := describe_ok stage' ok'
      refine ⟨?_, by rw [result, result']⟩
      rw [state, state', ← extra]
      exact enter_alike same (congrArg Stage.described attempt.state)
    · obtain ⟨state, result⟩ := describe_error stage failed
      rw [extra] at failed'
      obtain ⟨state', result'⟩ := describe_error stage' failed'
      refine ⟨?_, ?_⟩
      · rw [state, state', ← extra]
        exact enter_alike same (congrArg Stage.configured attempt.state)
      · rw [result, result']
        exact congrArg Except.error kinds
  · obtain ⟨state, result⟩ := describe_described c systems stage
    obtain ⟨state', result'⟩ := describe_described c systems' stage'
    exact ⟨by rw [state, state', same], by rw [result, result']⟩

end Step

structure InStep (r r' : Request) (t t' : Task) : Prop where
  request : t.request = r
  request' : t'.request = r'
  names : Knows (NamesObject r) t.stage
  names' : Knows (NamesObject r') t'.stage
  same : t.folded = t'.folded

namespace InStep
variable {r r' : Request} {t t' : Task}

theorem outcome (h : InStep r r' t t') {call call' : Call} (alike : Call.Alike r r' call call') :
    Outcome.Alike folded id (t.outcome call) (t'.outcome call') := by
  obtain ⟨rfl, rfl, names, names', same⟩ := h
  cases alike with
  | setUp configs =>
    rw [← configs.context]
    exact setUp_alike same _
  | describe configs answers =>
    rw [← configs.context]
    exact describe_alike same _ names names' answers

theorem call (h : InStep r r' t t') {call call' : Call} (alike : Call.Alike r r' call call') :
    InStep r r' (t.call call) (t'.call call') where
  request := (call_request t call).trans h.request
  request' := (call_request t' call').trans h.request'
  names := call_keeps (h.request ▸ namesObject_kept r) h.names call
  names' := call_keeps (h.request' ▸ namesObject_kept r') h.names' call'
  same := by
    rw [← outcome_state, ← outcome_state]
    exact (h.outcome alike).state

theorem run (h : InStep r r' t t') {calls calls' : List Call}
    (alike : List.Forall₂ (Call.Alike r r') calls calls') :
    t.endings calls = t'.endings calls' ∧ InStep r r' (t.run calls) (t'.run calls') := by
  -- induction on the pairs of calls: being in step is what a pair preserves
  induction alike generalizing t t' with
  | nil => exact ⟨rfl, h⟩
  | cons first _ ih =>
    obtain ⟨endings, later⟩ := ih (h.call first)
    exact ⟨congrArg₂ List.cons (h.outcome first).result endings, later⟩

end InStep

theorem work_alike {t t' : Task} (same : t.folded = t'.folded) :
    t.work.folded = t'.work.folded := by
  rcases Stage.folded_cases (congrArg Task.stage same) with
    ⟨stage, stage'⟩ | ⟨w, w', stage, stage', works⟩ | ⟨w, w', stage, stage', works⟩
  · rw [work, work, stage, stage']
  · rw [work, work, stage, stage']
    exact works
  · rw [work, work, stage, stage']
    exact works

theorem progress_alike {t t' : Task} (same : t.folded = t'.folded) : t.progress = t'.progress := by
  have stages : t.stage.folded = t'.stage.folded := congrArg Task.stage same
  rw [progress, ← Stage.progress_folded, stages, Stage.progress_folded, progress]

theorem describedFields_folded (t : Task) :
    ({ t with stage := .described t.work.folded } : Task).describedFields =
      t.describedFields.map Field.folded := by
  have source : ({ t with stage := .described t.work.folded } : Task).schemas.source? =
      t.schemas.source?.map Snapshot.folded := t.schemas.source_folded
  have names :
      ({ t with stage := .described t.work.folded } : Task).query.entries.filterMap
        Entry.plainName? =
      (t.query.entries.filterMap Entry.plainName?).map fold :=
        Entry.plainNames_folded t.query.entries
  rw [describedFields, source, names, describedFields]
  cases t.schemas.source? with
  | none => rfl
  | some s =>
    generalize t.query.entries.filterMap Entry.plainName? = plain
    simp only [Option.map_some]
    rw [List.filterMap_map, List.map_filterMap]
    exact List.filterMap_congr fun name _ => s.field_folded name

theorem parents_alike {t t' : Task} (same : t.folded = t'.folded) (kind : RelationshipKind) :
    (t.parents kind).map fold = (t'.parents kind).map fold := by
  have fields : t.describedFields.map Field.folded = t'.describedFields.map Field.folded := by
    rw [← describedFields_folded, ← describedFields_folded, work_alike same]
    rfl
  rw [parents, parents, ← parentObjects_folded, fields, parentObjects_folded]

/-- Case does not matter for what is selected: for two requests that agree up to case and calls that
    do so one by one, whose systems answer alike, each call ends alike, and the select lists, the
    warnings and the parents agree up to case. -/
theorem selection_ignores_case (r r' : Request) (same : r.folded = r'.folded)
    (calls calls' : List Call) (alike : List.Forall₂ (Call.Alike r r') calls calls') :
    let t := run { request := r } calls
    let t' := run { request := r' } calls'
    endings { request := r } calls = endings { request := r' } calls' ∧
      t.progress = t'.progress ∧
      t.query.entries.map Entry.folded = t'.query.entries.map Entry.folded ∧
      t.warnings.map Warning.folded = t'.warnings.map Warning.folded ∧
      ∀ kind, (t.parents kind).map fold = (t'.parents kind).map fold := by
  have start : InStep r r' { request := r } { request := r' } :=
    ⟨rfl, rfl, trivial, trivial, congrArg (Task.mk · .unconfigured) same⟩
  obtain ⟨endings, reached⟩ := start.run alike
  have works := work_alike reached.same
  exact ⟨endings, progress_alike reached.same, congrArg (·.query.entries) works,
    congrArg Work.warnings works, parents_alike reached.same⟩

def capitals (s : String) : String := String.ofList (s.toList.map Char.toUpper)

section Spelt
variable (spell : String → String)

def speltContacts : Request where
  query := spell "SELECT Email, lookup_true, Account.Name FROM Contact"
  operation := .ofOperation .upsert
  externalId := some (spell "$$LastName$Email")
  excludedFields := [spell "OwnerId"]

def speltField (name : String) (parents : List String) : Field :=
  { name := spell name, label := name, referenceTo := parents.map spell }

def speltSchema : Snapshot :=
  ({ name := spell "Contact", label := "Contact", fields := [],
     nodup := List.nodup_nil } : Snapshot).addAll
    [speltField spell "Id" [], speltField spell "LastName" [], speltField spell "Email" [],
      speltField spell "AccountId" ["Account"], speltField spell "OwnerId" ["User"],
      speltField spell "TeamId" ["Group"]]

def speltConfig : Config where
  source := {}
  target := {}
  personAccounts := true
  deniedParents := [spell "Group"]

def speltSystems : Systems :=
  { source := { name := "old", describe := fun _ => .ok (speltSchema spell) }
    target := { name := "new", describe := fun _ => .ok (speltSchema spell) } }

def speltCalls : List Call :=
  [.setUp (speltConfig spell).context, .describe (speltConfig spell).context (speltSystems spell)]

end Spelt

theorem selection_ignores_case_contacts :
    let t := run { request := speltContacts id } (speltCalls id)
    let t' := run { request := speltContacts capitals } (speltCalls capitals)
    t.query.keys = ["Id", "Email", "Account.Name", "$$LastName$Email", "LastName", "AccountId"] ∧
      t'.query.keys = ["Id", "EMAIL", "ACCOUNT.NAME", "$$LASTNAME$EMAIL", "LASTNAME", "ACCOUNTID"] ∧
      t.progress = .described ∧ t.progress = t'.progress ∧
      t.query.entries.map Entry.folded = t'.query.entries.map Entry.folded := by
  have configs : (speltConfig id).Alike (speltConfig capitals) := ⟨rfl, rfl, rfl, by decide +kernel⟩
  have schemas : (speltSchema id).folded = (speltSchema capitals).folded := by decide +kernel
  have answers :
      (speltSystems id).Alike (speltConfig id).context (speltContacts id) (speltContacts capitals)
      (speltSystems capitals) := by
    intro q q' _ _ side _
    cases side with
    | source => exact congrArg Except.ok schemas
    | target => exact congrArg Except.ok schemas
  have agree :=
    selection_ignores_case (speltContacts id) (speltContacts capitals) (by decide +kernel)
      (speltCalls id)
    (speltCalls capitals) (.cons (.setUp configs) (.cons (.describe configs answers) .nil))
  have reached : (run { request := speltContacts id } (speltCalls id)).query.keys =
        ["Id", "Email", "Account.Name", "$$LastName$Email", "LastName", "AccountId"] ∧
      (run { request := speltContacts id } (speltCalls id)).progress = .described := by
        decide +kernel
  exact ⟨reached.1, by decide +kernel, reached.2, agree.2.1, agree.2.2.1⟩

end Task

end MigrationPlan
