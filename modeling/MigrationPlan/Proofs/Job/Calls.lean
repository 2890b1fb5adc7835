import MigrationPlan.Proofs.Job.Isolation

/- Sequences of calls on a job. Whatever is called, in whatever order and with whatever systems, the
   registry names tasks that are set up and have the object, and it names every task that is set up
   and has not failed. -/
namespace MigrationPlan
open Text

namespace Registry

theorem indexOf_congr (r : Registry) {a b : String} (same : fold a = fold b) :
    r.indexOf? a = r.indexOf? b := by
  unfold indexOf?
  rw [same]

theorem indexOf_register {r r' : Registry} {object : String} {index : Nat}
    (ok : r.register object index = .ok r') (name : String) :
    r'.indexOf? name = (r.indexOf? name).or (if sameName object name then some index
      else none) := by
  unfold register at ok
  split at ok
  · cases ok
  · have entries := Except.ok.inj ok
    subst entries
    simp only [indexOf?, List.lookup_append, List.lookup_cons, List.lookup_nil]
    congr 1
    by_cases same : fold object = fold name
    · simp [sameName, same]
    · have apart : (fold name == fold object) = false := by simpa using Ne.symm same
      have other : sameName object name = false := by simpa [sameName] using same
      simp [apart, other]

theorem register_new {r r' : Registry} {object : String} {index : Nat}
    (ok : r.register object index = .ok r') :
    r.indexOf? object = none := by
  unfold register at ok
  split at ok
  · cases ok
  · next absent => simpa [contains] using absent

end Registry

namespace Task

theorem describe_object (c : Context) (systems : Systems) (t : Task) :
    (t.describe c systems).state.object = t.object :=
      congrArg Brief.object (describe_brief c systems t)

theorem describe_unconfigured_iff (c : Context) (systems : Systems) (t : Task) :
    (t.describe c systems).state.stage = .unconfigured ↔ t.stage = .unconfigured := by
  constructor
  · intro after
    by_contra before
    exact call_ne_unconfigured before (.describe c systems) after
  · intro before
    rw [describe_unconfigured c systems before, before]

end Task

namespace Job

inductive Call where
  | setUpAll
  | describeAll (systems : Systems)
  | prepare (systems : Systems)

namespace Call

def setsUp : Call → Bool
  | setUpAll | prepare _ => true
  | describeAll _ => false

end Call

def call (j : Job) : Call → Job
  | .setUpAll => j.setUpAll.1
  | .describeAll systems => (j.describeAll systems).1
  | .prepare systems => (j.prepare systems).1

def run (j : Job) (calls : List Call) : Job := calls.foldl call j

/-! What setting up one task does to a job. -/

theorem hasFailed_fail (j : Job) (index : Nat) (object : String) (fault : Fault) (i : Nat) :
    (j.fail index object fault).1.hasFailed i = (j.hasFailed i || index == i) := by
  simp [fail, hasFailed]

theorem setUpTask_cases (j : Job) (index : Nat) (t : Task) :
    (∃ f, ((t.setUp j.context).result = .error f ∨
          j.registry.register (t.setUp j.context).state.object index = .error f) ∧
        (j.setUpTask index t).1 =
          (({ j with tasks := j.tasks.set index (t.setUp j.context).state } : Job).fail index
            (t.setUp j.context).state.displayName f).1) ∨
      ∃ registry, (t.setUp j.context).isOk = true ∧
        j.registry.register (t.setUp j.context).state.object index = .ok registry ∧
          (j.setUpTask index t).1 =
            { j with tasks := j.tasks.set index (t.setUp j.context).state, registry } := by
  cases result : (t.setUp j.context).result with
  | error f => exact Or.inl ⟨f, Or.inl rfl, by simp only [setUpTask, result, Except.bind]⟩
  | ok u =>
    cases registered : j.registry.register (t.setUp j.context).state.object index with
    | error f =>
      exact Or.inl ⟨f, Or.inr rfl, by simp only [setUpTask, result, registered, Except.bind]⟩
    | ok registry =>
      exact Or.inr ⟨registry, Outcome.isOk_ok result,
        rfl, by simp only [setUpTask, result, registered, Except.bind]⟩

theorem setUpTask_tasks (j : Job) (index : Nat) (t : Task) :
    (j.setUpTask index t).1.tasks = j.tasks.set index (t.setUp j.context).state := by
  rcases setUpTask_cases j index t with ⟨f, _, failed⟩ | ⟨registry, _, _, done⟩
  · rw [failed]
    rfl
  · rw [done]

theorem setUpAll_keeps {P : Job → Prop}
    (step : ∀ j index t, j.tasks[index]? = some t → j.hasFailed index = false → P j →
      P (j.setUpTask index t).1)
    {j : Job} (h : P j) : P j.setUpAll.1 := by
  have each : ∀ (l : List Nat) (s : Job × List Notice), P s.1 → P (l.foldl setUpAt s).1 := by
    intro l
    induction l with
    | nil => exact fun s hs => hs
    | cons index l ih =>
      intro s hs
      apply ih
      unfold setUpAt
      cases task : s.1.tasks[index]? with
      | none => exact hs
      | some t =>
        cases failed : s.1.hasFailed index with
        | true => simpa using hs
        | false => simpa using step s.1 index t task failed hs
  exact each (List.range j.tasks.length) (j, []) h

/-- What setting up one task and describing all tasks keep, every sequence of calls keeps. -/
theorem run_keeps {P : Job → Prop}
    (step : ∀ j index t, j.tasks[index]? = some t → j.hasFailed index = false → P j →
      P (j.setUpTask index t).1)
    (describe : ∀ j systems, P j → P (j.describeAll systems).1) {j : Job} (h : P j)
    (calls : List Call) :
    P (j.run calls) := by
  induction calls generalizing j with
  | nil => exact h
  | cons call calls ih =>
    apply ih
    cases call with
    | setUpAll => exact setUpAll_keeps step h
    | describeAll systems => exact describe j systems h
    | prepare systems => exact describe _ systems (setUpAll_keeps step h)

/-! What describing all tasks does to each of them. -/

theorem describeAll_task (j : Job) (systems : Systems) (i : Nat) :
    (j.describeAll systems).1.tasks[i]? =
      j.tasks[i]?.map fun t =>
        if !j.hasFailed i && t.progress == .configured then (t.describe j.context systems).state
        else t := by
  rw [describeAll_tasks, descriptions, List.getElem?_map, List.getElem?_mapIdx, Option.map_map]
  congr 1
  funext t
  simp only [Function.comp_apply]
  split <;> rfl

theorem describeAll_hasFailed {j : Job} {systems : Systems} {i : Nat}
    (healthy : (j.describeAll systems).1.hasFailed i = false) : j.hasFailed i = false := by
  unfold hasFailed at healthy ⊢
  rw [describeAll_failures, List.any_append, Bool.or_eq_false_iff] at healthy
  exact healthy.1

theorem describeAll_back {j : Job} {systems : Systems} {i : Nat} {t : Task}
    (task : (j.describeAll systems).1.tasks[i]? = some t) :
    ∃ before, j.tasks[i]? = some before ∧ before.object = t.object ∧
      (t.stage = .unconfigured ↔ before.stage = .unconfigured) := by
  rw [describeAll_task] at task
  obtain ⟨before, at_, rfl⟩ := Option.map_eq_some_iff.mp task
  refine ⟨before, at_, ?_⟩
  split
  · exact ⟨(Task.describe_object _ systems before).symm,
      Task.describe_unconfigured_iff _ systems before⟩
  · exact ⟨rfl, Iff.rfl⟩

theorem describeAll_forth {j : Job} (systems : Systems) {i : Nat} {t : Task}
    (task : j.tasks[i]? = some t) :
    ∃ after, (j.describeAll systems).1.tasks[i]? = some after ∧ after.object = t.object ∧
      (after.stage = .unconfigured ↔ t.stage = .unconfigured) := by
  obtain ⟨after, at_⟩ : ∃ after, (j.describeAll systems).1.tasks[i]? = some after := by
    rw [describeAll_task, task]
    exact ⟨_, rfl⟩
  obtain ⟨before, same, object, stage⟩ := describeAll_back at_
  rw [task] at same
  rw [Option.some.inj same]
  exact ⟨after, at_, object.symm, stage⟩

/-! The registry and the tasks. -/

structure Sound (j : Job) : Prop where
  registered : ∀ {name : String} {i : Nat}, j.registry.indexOf? name = some i →
    ∃ t, j.tasks[i]? = some t ∧ t.stage ≠ .unconfigured ∧ sameName t.object name = true
  healthy : ∀ {i : Nat} {t : Task}, j.tasks[i]? = some t → j.hasFailed i = false →
    t.stage ≠ .unconfigured →
    j.registry.indexOf? t.object = some i

theorem getElem_set_cases {α : Type} {l : List α} {index i : Nat} {a b : α}
    (at_ : (l.set index a)[i]? = some b) :
    (i = index ∧ b = a) ∨ (i ≠ index ∧ l[i]? = some b) := by
  rw [List.getElem?_set] at at_
  split at at_
  · next same =>
    split at at_
    · exact Or.inl ⟨same.symm, (Option.some.inj at_).symm⟩
    · cases at_
  · next other => exact Or.inr ⟨Ne.symm other, at_⟩

theorem setUpTask_sound (j : Job) (index : Nat) (t : Task) (task : j.tasks[index]? = some t)
    (_ : j.hasFailed index = false) (h : Sound j) : Sound (j.setUpTask index t).1 := by
  have inside := (List.getElem?_eq_some_iff.mp task).1
  have still : ∀ {name : String} {i : Nat}, j.registry.indexOf? name = some i →
      ∃ u, (j.tasks.set index (t.setUp j.context).state)[i]? = some u ∧ u.stage ≠ .unconfigured ∧
        sameName u.object name = true := by
    intro name i known
    obtain ⟨u, at_, stage, object⟩ := h.registered known
    refine ⟨u, ?_, stage, object⟩
    by_cases here : index = i
    · subst here
      rw [task] at at_
      cases at_
      rw [(Task.setUp_of_work j.context stage).1, List.getElem?_set_self inside]
    · rw [List.getElem?_set_ne here, at_]
  rcases setUpTask_cases j index t with ⟨f, _, failed⟩ | ⟨registry, ok, entered, done⟩
  · rw [failed]
    refine ⟨still, ?_⟩
    intro i u at_ healthy stage
    rw [hasFailed_fail, Bool.or_eq_false_iff] at healthy
    rcases getElem_set_cases at_ with ⟨rfl, _⟩ | ⟨_, before⟩
    · simp at healthy
    · exact h.healthy before healthy.1 stage
  · have known := Registry.indexOf_register entered
    rw [done]
    constructor
    · intro name i found
      have found' : registry.indexOf? name = some i := found
      rw [known, Option.or_eq_some_iff] at found'
      rcases found' with old | ⟨_, new⟩
      · exact still old
      · split at new
        · next same =>
          cases new
          exact ⟨_, List.getElem?_set_self inside, Task.setUp_succeeded ok, same⟩
        · cases new
    · intro i u at_ healthy stage
      have goal : registry.indexOf? u.object = some i := by
        rw [known]
        rcases getElem_set_cases at_ with ⟨rfl, rfl⟩ | ⟨_, before⟩
        · rw [Registry.register_new entered, sameName_self]
          rfl
        · rw [h.healthy before healthy stage]
          rfl
      exact goal

theorem describeAll_sound (j : Job) (systems : Systems) (h : Sound j) :
    Sound (j.describeAll systems).1 where
  registered known := by
    obtain ⟨t, at_, stage, object⟩ := h.registered known
    obtain ⟨after, at_', same, stages⟩ := describeAll_forth systems at_
    exact ⟨after, at_', fun none => stage (stages.mp none), same ▸ object⟩
  healthy at_ healthy stage := by
    obtain ⟨before, at_', same, stages⟩ := describeAll_back at_
    rw [← same]
    exact h.healthy at_' (describeAll_hasFailed healthy) fun none => stage (stages.mpr none)

theorem fresh_task {c : Config} {j : Job} (valid : ofConfig c = .ok j) :
    j.registry = {} ∧ j.failures = [] ∧ ∀ t ∈ j.tasks, t.stage = .unconfigured := by
  obtain ⟨_, rfl⟩ := ofConfig_eq_ok.mp valid
  refine ⟨rfl, rfl, ?_⟩
  intro t member
  obtain ⟨r, _, rfl⟩ := List.mem_map.mp member
  rfl

/-- In every state that calls lead to, the registry and the tasks agree. -/
theorem run_sound {c : Config} {j : Job} (valid : ofConfig c = .ok j) (calls : List Call) :
    Sound (j.run calls) := by
  obtain ⟨registry, _, unconfigured⟩ := fresh_task valid
  have fresh : Sound j :=
    { registered := fun known => by
        rw [registry] at known
        cases known
      healthy := fun at_ _ stage => absurd (unconfigured _ (List.mem_of_getElem? at_)) stage }
  exact run_keeps setUpTask_sound describeAll_sound fresh calls

end Job

end MigrationPlan
