import MigrationPlan.Proofs.Job.Interleaving
import MigrationPlan.Proofs.Job.SetUp
import MigrationPlan.Proofs.Task.Selection

/- The tasks of a job go on as if each were alone. Only an object that is listed twice couples two
   entries, and then the later one fails before it is described. -/
namespace MigrationPlan
open Text

namespace Request

/-- The task of an entry, set up and described without a job. -/
def alone (r : Request) (c : Context) (systems : Systems) : Outcome Task Unit :=
  (Task.setUp c { request := r }).andThen fun t _ => t.describe c systems

theorem alone_error {r : Request} {c : Context} {f : Fault} (systems : Systems)
    (made : r.setUp c = .error f) :
    (r.alone c systems).state = { request := r } ∧ (r.alone c systems).result = .error f := by
  obtain ⟨state, result⟩ := Task.setUp_error c (t := { request := r }) rfl made
  obtain ⟨stays, fails⟩ := Outcome.andThen_error result fun t _ => t.describe c systems
  exact ⟨stays.trans state, fails⟩

theorem alone_ok {r : Request} {c : Context} {w : Work} (systems : Systems)
    (made : r.setUp c = .ok w) :
    (r.alone c systems).state = ((Task.setUp c { request := r }).state.describe c systems).state ∧
      (r.alone c systems).result =
        ((Task.setUp c { request := r }).state.describe c systems).result :=
  Outcome.andThen_ok (Task.setUp_ok c (t := { request := r }) rfl made).2 _

end Request

namespace Task

theorem describe_brief (c : Context) (systems : Systems) (t : Task) :
    (t.describe c systems).state.brief = t.brief := by
  cases stage : t.stage with
  | unconfigured => rw [describe_unconfigured c systems stage]
  | described w => rw [(describe_described c systems stage).1]
  | configured w =>
    have before : t.brief = w.brief := by simp [brief, Task.work, stage, Stage.work]
    cases result : (w.describe c systems t.request.isExtraObject).result with
    | error f =>
      rw [(describe_error stage result).1, before]
      exact w.describe_brief c systems t.request.isExtraObject
    | ok u =>
      rw [(describe_ok stage result).1, before]
      exact w.describe_brief c systems t.request.isExtraObject

end Task

namespace Request

theorem alone_displayName {r : Request} {c : Context} {w : Work} (systems : Systems)
    (made : r.setUp c = .ok w) :
    (r.alone c systems).state.displayName = (r.alone c systems).state.object := by
  have brief := Task.describe_brief c systems (Task.setUp c { request := r }).state
  have object : (r.alone c systems).state.object = w.brief.object := by
    rw [(alone_ok systems made).1, Task.object, brief,
      (Task.setUp_ok c (t := { request := r }) rfl made).1]
    rfl
  exact Task.displayName_object (by rw [object]; exact object_ne made)

end Request

namespace Job

theorem flatten_at {α β : Type} (g : Nat → α → List β) (l : List α) (i : Nat) :
    (l.mapIdx fun n a => if n = i then g n a else []).flatten = l[i]?.elim [] (g i) := by
  induction l generalizing g i with
  | nil => rfl
  | cons a l ih =>
    rw [List.mapIdx_cons, List.flatten_cons]
    cases i with
    | zero =>
      have rest : (l.mapIdx fun n b => if n + 1 = 0 then g (n + 1) b else []).flatten = [] := by
        simp
      rw [rest, if_pos rfl, List.append_nil]
      rfl
    | succ i =>
      have rest := ih (fun n => g (n + 1)) i
      simpa using rest

def failureOf (index : Nat) (o : Outcome Task Unit) : List Failure :=
  match o.result with
  | .ok _ => []
  | .error fault => [{ index, object := o.state.object, fault }]

theorem failuresOf_flatten (outcomes : List (Outcome Task Unit)) :
    failuresOf outcomes = (outcomes.mapIdx failureOf).flatten := rfl

theorem failuresOf_at (outcomes : List (Outcome Task Unit)) (i : Nat) :
    (failuresOf outcomes).filter (·.index == i) = outcomes[i]?.elim [] (failureOf i) := by
  have one :
      ∀ n o, (failureOf n o).filter (·.index == i) = if n = i then failureOf n o else [] := by
    intro n o
    unfold failureOf
    cases o.result with
    | ok u => simp
    | error f => by_cases same : n = i <;> simp [same]
  have mapped : (outcomes.mapIdx failureOf).map (fun l => l.filter (·.index == i)) =
      outcomes.mapIdx fun n o => if n = i then failureOf n o else [] := by
    apply List.ext_getElem?
    intro n
    simp [Function.comp_def, one]
  rw [failuresOf_flatten, List.filter_flatten, mapped, flatten_at]

theorem descriptions_length (j : Job) (systems : Systems) :
    (j.descriptions systems).length = j.tasks.length :=
  List.length_mapIdx

theorem describeAll_tasks (j : Job) (systems : Systems) :
    (j.describeAll systems).1.tasks = (j.descriptions systems).map (·.state) := rfl

theorem describeAll_failures (j : Job) (systems : Systems) :
    (j.describeAll systems).1.failures = j.failures ++ failuresOf (j.descriptions systems) := rfl

theorem describeAll_failuresAt (j : Job) (systems : Systems) (i : Nat) :
    (j.describeAll systems).1.failuresAt i =
      j.failuresAt i ++ (j.descriptions systems)[i]?.elim [] (failureOf i) := by
  rw [failuresAt, describeAll_failures, List.filter_append, failuresOf_at]
  rfl

section Describe
variable {c : Config} {rs : List Request} {j : Job} (systems : Systems) {i : Nat} {r : Request}

def describedAt (c : Config) (rs : List Request) (i : Nat) (t : Task) : Outcome Task Unit :=
  if (setUpFailures c.context rs i).isEmpty && t.progress == .configured then
    t.describe c.context systems
  else { state := t, result := .ok () }

theorem describedAt_failed (failed : setUpFailures c.context rs i ≠ []) (t : Task) :
    describedAt systems c rs i t = { state := t, result := .ok () } := by
  simp [describedAt, failed]

theorem describedAt_new (none : setUpFailures c.context rs i = []) {t : Task}
    (configured : t.progress = .configured) :
    describedAt systems c rs i t = t.describe c.context systems := by
  simp [describedAt, none, configured]

theorem describeAll_at (h : SetUpTo c rs rs.length j) (entry : rs[i]? = some r) :
    let o := describedAt systems c rs i (Task.setUp c.context { request := r }).state
    (j.describeAll systems).1.tasks[i]? = some o.state ∧
      (j.describeAll systems).1.failuresAt i = setUpFailures c.context rs i ++ failureOf i o := by
  have inside := (List.getElem?_eq_some_iff.mp entry).1
  have task : j.tasks[i]? = some (Task.setUp c.context { request := r }).state := by
    rw [h.tasks, List.take_length, List.drop_length, List.map_nil, List.append_nil,
      List.getElem?_map, entry]
    rfl
  have failures : j.failuresAt i = setUpFailures c.context rs i := by rw [h.failures, if_pos inside]
  have context : j.context = c.context := congrArg Config.context h.config
  have outcome : (j.descriptions systems)[i]? =
      some (describedAt systems c rs i (Task.setUp c.context { request := r }).state) := by
    simp only [descriptions, List.getElem?_mapIdx, task, Option.map_some, hasFailed_iff,
      failures, context, Bool.not_not]
    rfl
  constructor
  · rw [describeAll_tasks, List.getElem?_map, outcome]
    rfl
  · rw [describeAll_failuresAt, outcome, failures]
    rfl

variable (h : SetUpTo c rs rs.length j) (entry : rs[i]? = some r)
include h entry

theorem describeAll_error {f : Fault} (made : r.setUp c.context = .error f) :
    (j.describeAll systems).1.tasks[i]? = some (r.alone c.context systems).state ∧
      (j.describeAll systems).1.failuresAt i = [{ index := i, object := r.query, fault := f }] := by
  have recorded := setUpFailures_error entry made
  obtain ⟨task, failures⟩ := describeAll_at systems h entry
  rw [describedAt_failed systems (by simp [recorded])] at task failures
  rw [recorded] at failures
  have state := (Task.setUp_error c.context (t := { request := r }) rfl made).1
  exact ⟨by rw [task, state, (Request.alone_error systems made).1], failures⟩

variable {w : Work} (made : r.setUp c.context = .ok w)
include made

theorem describeAll_repeated
    (repeated : Request.taken c.context (rs.take i) w.brief.object = true) :
    (j.describeAll systems).1.tasks[i]? = some (Task.setUp c.context { request := r }).state ∧
      (j.describeAll systems).1.failuresAt i =
        [{ index := i, object := w.brief.object,
           fault := .object w.brief.object .listedTwice }] := by
  have recorded := setUpFailures_repeated entry made repeated
  obtain ⟨task, failures⟩ := describeAll_at systems h entry
  rw [describedAt_failed systems (by simp [recorded])] at task failures
  rw [recorded] at failures
  exact ⟨task, failures⟩

theorem describeAll_new (new : Request.taken c.context (rs.take i) w.brief.object = false) :
    (j.describeAll systems).1.tasks[i]? = some (r.alone c.context systems).state ∧
      (j.describeAll systems).1.failuresAt i = failureOf i (r.alone c.context systems) := by
  have recorded := setUpFailures_new entry made new
  have configured : (Task.setUp c.context { request := r }).state.progress = .configured := by
    rw [(Task.setUp_ok c.context (t := { request := r }) rfl made).1]
    rfl
  obtain ⟨task, failures⟩ := describeAll_at systems h entry
  rw [describedAt_new systems recorded configured] at task failures
  rw [recorded, List.nil_append] at failures
  obtain ⟨state, result⟩ := Request.alone_ok systems made
  refine ⟨by rw [task, state], ?_⟩
  rw [failures, failureOf, failureOf, state, result]

end Describe

theorem taken_iff {c : Context} {earlier : List Request} {object : String} :
    Request.taken c earlier object = true ↔
      ∃ e ∈ earlier, ∃ v, e.setUp c = .ok v ∧ sameName v.brief.object object = true := by
  simp only [Request.taken, List.any_eq_true, Option.any_eq_true]
  constructor
  · rintro ⟨e, member, v, some, same⟩
    cases made : e.setUp c with
    | error f => simp [made, Except.toOption] at some
    | ok u =>
      rw [made] at some
      exact ⟨e, member, u, made, Option.some.inj some ▸ same⟩
  · rintro ⟨e, member, v, made, same⟩
    exact ⟨e, member, v, by rw [made]; rfl, same⟩

theorem prepareBy_fair {c : Config} {j : Job} (systems : Systems) (schedule : List Nat)
    (valid : ofConfig c = .ok j)
    (fair : ∀ i < (c.requests.filter (!·.excluded)).length, 2 ≤ schedule.count i) :
    j.prepareBy systems schedule = some (j.prepare systems).1 := by
  have tasks : j.setUpAll.1.tasks.length = (c.requests.filter (!·.excluded)).length := by
    rw [(setUpAll_setUp valid).tasks]
    simp
  exact describeAllBy_fair (tasks ▸ fair)

/-- Preparing a fresh job does to each entry what setting up and describing its task alone does, in
    whatever order the fetches end. An entry whose object an earlier one has is only set up, and
    fails. That the schedule ends all fetches is no restriction on the job: every schedule that
    names each task twice does, by `prepareBy_fair`. -/
theorem entries_isolated {c : Config} {j j' : Job} {systems : Systems} {schedule : List Nat}
    (valid : ofConfig c = .ok j) (done : j.prepareBy systems schedule = some j')
    {i : Nat} {r : Request} (entry : (c.requests.filter (!·.excluded))[i]? = some r) :
    let isRepeated :=
      ∃ e ∈ (c.requests.filter (!·.excluded)).take i, ∃ v w, e.setUp c.context = .ok v ∧
      r.setUp c.context = .ok w ∧ sameName v.brief.object w.brief.object = true
    let t := (Task.setUp c.context { request := r }).state
    let o := r.alone c.context systems
    (isRepeated →
      j'.tasks[i]? = some t ∧ t.progress = .configured ∧
        j'.failuresAt i =
          [{ index := i, object := t.object, fault := .object t.object .listedTwice }]) ∧
    (¬isRepeated →
      j'.tasks[i]? = some o.state ∧
        j'.failuresAt i =
          match o.result with
          | .ok _ => []
          | .error fault => [{ index := i, object := o.state.displayName, fault }]) := by
  have prepared := describeAllBy_some done
  have set := setUpAll_setUp valid
  rw [prepared]
  intro isRepeated t o
  -- the set-up fails, the object is taken, or neither
  cases made : r.setUp c.context with
  | error f =>
    obtain ⟨task, failures⟩ := describeAll_error systems set entry made
    obtain ⟨state, result⟩ := Request.alone_error systems made
    refine ⟨?_, fun _ => ⟨task, ?_⟩⟩
    · rintro ⟨_, _, _, w, _, ok, _⟩
      rw [made] at ok
      cases ok
    · rw [failures]
      simp only [o, state, result]
      rfl
  | ok w =>
    have state : t = { request := r, stage := .configured w } :=
      (Task.setUp_ok c.context (t := { request := r }) rfl made).1
    have repeats : isRepeated ↔
        Request.taken c.context ((c.requests.filter (!·.excluded)).take i) w.brief.object := by
      rw [taken_iff]
      constructor
      · rintro ⟨e, member, v, w', earlier, ok, same⟩
        rw [made] at ok
        exact ⟨e, member, v, earlier, Except.ok.inj ok ▸ same⟩
      · rintro ⟨e, member, v, earlier, same⟩
        exact ⟨e, member, v, w, earlier, made, same⟩
    cases repeated :
      Request.taken c.context ((c.requests.filter (!·.excluded)).take i) w.brief.object with
    | true =>
      obtain ⟨task, failures⟩ := describeAll_repeated systems set entry made repeated
      refine ⟨fun _ => ⟨task, by rw [state]; rfl, ?_⟩, fun new => absurd (repeats.mpr repeated) new⟩
      rw [failures, state]
      rfl
    | false =>
      obtain ⟨task, failures⟩ := describeAll_new systems set entry made repeated
      refine ⟨fun again => absurd (repeats.mp again) (by simp [repeated]), fun _ => ⟨task, ?_⟩⟩
      rw [failures, failureOf, Request.alone_displayName systems made]

/-- The account is listed twice, one query is none, and only the source knows contacts. -/
def accountsTwice : Config :=
  { source := {}
    target := {}
    requests :=
      [{ query := "SELECT Name FROM Account", operation := .ofOperation .upsert },
        { query := "SELECT Id FROM ACCOUNT" }, { query := "SELECT FROM" },
        { query := "SELECT LastName FROM Contact" }] }

def withoutContacts : Systems :=
  { source := { name := "old", describe := fun object => .ok (.ofName object) }
    target :=
      { name := "new",
        describe := fun object => .error (.describe (.unknownObject object "new")) } }

theorem entries_isolated_accounts :
    ∃ j j', ofConfig accountsTwice = .ok j ∧
      j.prepareBy withoutContacts [3, 0, 2, 3, 1, 1, 0, 2] = some j' ∧
      j'.tasks[3]? =
        some (Request.alone { query := "SELECT LastName FROM Contact" } accountsTwice.context
        withoutContacts).state := by
  have checked : accountsTwice.validate = .ok () := by decide +kernel
  have valid : ofConfig accountsTwice = .ok
      { config := accountsTwice,
        tasks := accountsTwice.requests.map fun request => { request } } := by
    unfold ofConfig
    rw [checked]
    rfl
  have done := prepareBy_fair withoutContacts [3, 0, 2, 3, 1, 1, 0, 2] valid (by decide)
  refine ⟨_, _, valid, done, ?_⟩
  have isolated := entries_isolated valid done (i := 3) rfl
  refine (isolated.2 ?_).1
  rintro ⟨e, member, v, w, earlier, made, same⟩
  have again := taken_iff.mpr ⟨e, member, v, earlier, same⟩
  have object :
      (Request.setUp { query := "SELECT LastName FROM Contact" } accountsTwice.context).toOption.map
      (·.brief.object) = some "Contact" := by decide +kernel
  rw [made] at object
  have contact : w.brief.object = "Contact" := Option.some.inj object
  rw [contact] at again
  exact absurd again (by decide +kernel)

end Job

end MigrationPlan
