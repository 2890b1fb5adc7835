import MigrationPlan.Proofs.Job.Calls

/- What the calls on a job do to each of its tasks. Every task takes steps of its own, and as long
   as it has not failed each of its steps has succeeded. -/
namespace MigrationPlan
open Text

namespace Job
variable {j : Job}

/-- What every call on a task keeps, the calls on its job keep. -/
theorem run_tasks {P : Nat → Task → Prop} (call : ∀ i t call, P i t → P i (t.call call))
    (h : ∀ i t, j.tasks[i]? = some t → P i t) (calls : List Call) :
    ∀ i t, (j.run calls).tasks[i]? = some t → P i t := by
  apply run_keeps (P := fun k => ∀ i t, k.tasks[i]? = some t → P i t) _ _ h
  · intro k index t task _ before i u at_
    rw [setUpTask_tasks] at at_
    rcases getElem_set_cases at_ with ⟨rfl, rfl⟩ | ⟨_, same⟩
    · exact call i t (.setUp k.context) (before i t task)
    · exact before i u same
  · intro k systems before i u at_
    rw [describeAll_task] at at_
    obtain ⟨t, task, rfl⟩ := Option.map_eq_some_iff.mp at_
    split
    · exact call i t (.describe k.context systems) (before i t task)
    · exact before i t task

theorem run_task {c : Config} (valid : ofConfig c = .ok j) (calls : List Call) {i : Nat} {t : Task}
    (task : (j.run calls).tasks[i]? = some t) :
    ∃ r own, (c.requests.filter (!·.excluded))[i]? = some r ∧
      t = Task.run { request := r } own := by
  obtain ⟨_, rfl⟩ := ofConfig_eq_ok.mp valid
  refine run_tasks (P := fun i t => ∃ r own, (c.requests.filter (!·.excluded))[i]? = some r ∧
    t = Task.run { request := r } own) ?_ ?_ calls i t task
  · intro i t call made
    obtain ⟨r, own, entry, rfl⟩ := made
    exact ⟨r, own ++ [call], entry, (Task.run_append _ own [call]).symm⟩
  · intro i t fresh
    rw [List.getElem?_map] at fresh
    obtain ⟨r, entry, rfl⟩ := Option.map_eq_some_iff.mp fresh
    exact ⟨r, [], entry, rfl⟩

theorem run_length (j : Job) (calls : List Call) : (j.run calls).tasks.length = j.tasks.length := by
  apply run_keeps (P := fun k => k.tasks.length = j.tasks.length) _ _ rfl
  · intro k index t _ _ same
    rw [setUpTask_tasks, List.length_set, same]
  · intro k systems same
    rw [describeAll_tasks, List.length_map, descriptions_length, same]

theorem run_config (j : Job) (calls : List Call) : (j.run calls).config = j.config := by
  apply run_keeps (P := fun k => k.config = j.config) _ _ rfl
  · intro k index t _ _ same
    rcases setUpTask_cases k index t with ⟨f, _, failed⟩ | ⟨registry, _, _, done⟩
    · rw [failed]
      exact same
    · rw [done]
      exact same
  · intro k systems same
    exact same

theorem run_context {c : Config} (valid : ofConfig c = .ok j) (calls : List Call) :
    (j.run calls).context = c.context := by
  obtain ⟨_, rfl⟩ := ofConfig_eq_ok.mp valid
  rw [context, run_config]

/-! Tasks that have not failed. -/

theorem descriptions_get (j : Job) (systems : Systems) (i : Nat) :
    (j.descriptions systems)[i]? = j.tasks[i]?.map fun t =>
      if !j.hasFailed i && t.progress == .configured then t.describe j.context systems
      else { state := t, result := .ok () } := List.getElem?_mapIdx

theorem mem_failuresOf {systems : Systems} {f : Failure}
    (member : f ∈ failuresOf (j.descriptions systems)) :
    ∃ t, j.tasks[f.index]? = some t ∧ j.hasFailed f.index = false ∧ t.progress = .configured ∧
      (t.describe j.context systems).result = .error f.fault ∧ f.object = t.object := by
  have own : f ∈ (failuresOf (j.descriptions systems)).filter (·.index == f.index) :=
    List.mem_filter.mpr ⟨member, beq_self_eq_true _⟩
  rw [failuresOf_at, descriptions_get] at own
  cases task : j.tasks[f.index]? with
  | none => simp [task] at own
  | some t =>
    simp only [task, Option.map_some, Option.elim_some] at own
    split at own
    · next waits =>
      obtain ⟨healthy, progress⟩ := Bool.and_eq_true_iff.mp waits
      unfold failureOf at own
      cases result : (t.describe j.context systems).result with
      | ok u => simp [result] at own
      | error g =>
        simp only [result, List.mem_singleton] at own
        rw [own]
        exact ⟨t, rfl, by simpa using healthy, by simpa using progress, result,
          t.describe_object j.context systems⟩
    · cases own

theorem describeAll_healthy {systems : Systems} {i : Nat} {u : Task}
    (task : (j.describeAll systems).1.tasks[i]? = some u)
    (healthy : (j.describeAll systems).1.hasFailed i = false) :
    ∃ t, j.tasks[i]? = some t ∧ j.hasFailed i = false ∧
      ((t.progress = .configured ∧ (t.describe j.context systems).isOk = true ∧
          u = (t.describe j.context systems).state) ∨
        (t.progress ≠ .configured ∧ u = t)) := by
  have before := describeAll_hasFailed healthy
  rw [describeAll_task] at task
  obtain ⟨t, at_, rfl⟩ := Option.map_eq_some_iff.mp task
  refine ⟨t, at_, before, ?_⟩
  by_cases waits : t.progress = .configured
  · left
    have outcome : (j.descriptions systems)[i]? = some (t.describe j.context systems) := by
      simp [descriptions_get, at_, before, waits]
    rw [hasFailed_iff, describeAll_failuresAt, outcome] at healthy
    refine ⟨waits, ?_, by simp [before, waits]⟩
    cases result : (t.describe j.context systems).result with
    | ok u => exact Outcome.isOk_ok result
    | error f => simp [failureOf, result] at healthy
  · exact Or.inr ⟨waits, by simp [waits]⟩

/-- What the calls that succeed keep, tasks that have not failed keep. -/
theorem run_healthy {P : Task → Prop}
    (setUp : ∀ c t, P t → (t.setUp c).isOk = true → P (t.setUp c).state)
    (describe : ∀ c systems t, P t → (t.describe c systems).isOk = true →
      P (t.describe c systems).state)
    (h : ∀ t ∈ j.tasks, P t) (calls : List Call) :
    ∀ i t, (j.run calls).tasks[i]? = some t → (j.run calls).hasFailed i = false → P t := by
  apply run_keeps (P := fun k => ∀ i t, k.tasks[i]? = some t → k.hasFailed i = false → P t)
  · intro k index t task fresh before i u at_ healthy
    rcases setUpTask_cases k index t with ⟨f, _, failed⟩ | ⟨registry, ok, _, done⟩
    · rw [failed] at at_ healthy
      rw [hasFailed_fail, Bool.or_eq_false_iff] at healthy
      rcases getElem_set_cases at_ with ⟨rfl, _⟩ | ⟨_, same⟩
      · simp at healthy
      · exact before i u same healthy.1
    · rw [done] at at_ healthy
      rcases getElem_set_cases at_ with ⟨rfl, rfl⟩ | ⟨_, same⟩
      · exact setUp k.context t (before i t task fresh) ok
      · exact before i u same healthy
  · intro k systems before i u at_ healthy
    obtain ⟨t, task, fresh, ⟨_, ok, rfl⟩ | ⟨_, rfl⟩⟩ := describeAll_healthy at_ healthy
    · exact describe k.context systems t (before i t task fresh) ok
    · exact before i u task fresh
  · intro i t at_ _
    exact h t (List.mem_of_getElem? at_)

end Job

end MigrationPlan
