import MigrationPlan.Proofs.Job.Tasks
import MigrationPlan.Proofs.Task.Faults

/- The faults that a job records. They keep the class that they have in their tasks, whatever is
   called, and what is recorded of a task stays what it is. -/
namespace MigrationPlan

theorem Registry.register_fails (r : Registry) (object : String) (index : Nat) :
    FailsByObject (r.register object index) := by
  intro f error
  unfold register at error
  split at error
  · exact ⟨_, _, (Except.error.inj error).symm⟩
  · cases error

namespace Job
variable {j : Job}

def Classed (j : Job) : Prop := ∀ f ∈ j.failures, f.fault.Classed f.object

theorem setUpTask_classed (j : Job) (index : Nat) (t : Task) (_ : j.tasks[index]? = some t)
    (_ : j.hasFailed index = false) (h : j.Classed) : (j.setUpTask index t).1.Classed := by
  rcases setUpTask_cases j index t with ⟨f, fails, failed⟩ | ⟨registry, _, _, done⟩
  · have found : ∃ name x, f = .object name x := by
      rcases fails with setUp | registered
      · exact t.setUp_fails j.context f setUp
      · exact Registry.register_fails _ _ _ f registered
    obtain ⟨name, x, rfl⟩ := found
    rw [failed]
    intro g member
    rcases List.mem_append.mp member with old | new
    · exact h g old
    · rw [List.mem_singleton.mp new]
      exact .of_object rfl
  · rw [done]
    exact h

theorem describeAll_classed (j : Job) (systems : Systems) (h : j.Classed) :
    (j.describeAll systems).1.Classed := by
  intro f member
  rw [describeAll_failures] at member
  rcases List.mem_append.mp member with old | new
  · exact h f old
  · obtain ⟨t, _, _, progress, result, object⟩ := mem_failuresOf new
    obtain ⟨w, stage⟩ := Task.progress_configured.mp progress
    rw [object]
    exact Task.describe_classed stage result

theorem run_classed {c : Config} (valid : ofConfig c = .ok j) (calls : List Call) :
    (j.run calls).Classed := by
  obtain ⟨_, none, _⟩ := fresh_task valid
  have fresh : j.Classed := by
    intro f member
    rw [none] at member
    cases member
  exact run_keeps setUpTask_classed describeAll_classed fresh calls

/-- Once a task has failed, no call adds to its failures. -/
theorem run_failed {i : Nat} (failed : j.hasFailed i = true) (calls : List Call) :
    (j.run calls).failuresAt i = j.failuresAt i := by
  have fails : ∀ k : Job, k.failuresAt i = j.failuresAt i → k.hasFailed i = true := by
    intro k same
    rw [hasFailed_iff, same, ← hasFailed_iff, failed]
  apply run_keeps (P := fun k => k.failuresAt i = j.failuresAt i) _ _ rfl
  · intro k index t _ healthy same
    have other : index ≠ i := by
      intro here
      rw [here, fails k same] at healthy
      cases healthy
    rcases setUpTask_cases k index t with ⟨f, _, ends⟩ | ⟨registry, _, _, ends⟩
    · rw [ends, failuresAt_fail, if_neg other, List.append_nil]
      exact same
    · rw [ends]
      exact same
  · intro k systems same
    have none : (k.descriptions systems)[i]?.elim [] (failureOf i) = [] := by
      rw [descriptions_get, fails k same]
      cases k.tasks[i]? <;> rfl
    rw [describeAll_failuresAt, none, List.append_nil, same]

section Ask
variable {systems : Systems} {i : Nat} {t : Task} (task : j.tasks[i]? = some t)
  (healthy : j.hasFailed i = false) (waits : t.progress = .configured)
include task healthy waits

/-- A side that is asked and answers with a fault ends its task, and the fault is recorded for
    good. -/
theorem describeAll_unanswered {side : Side}
    (asked : side ∈ (t.describe j.context systems).asked) {e : Fault}
    (answer : (systems.on side).describe t.object = .error e) (later : List Call) :
    ((j.describeAll systems).1.run later).failuresAt i =
      [{ index := i, object := t.object, fault := e.attributed t.object side }] := by
  obtain ⟨w, stage⟩ := Task.progress_configured.mp waits
  have result := Task.describe_unanswered stage asked answer
  have recorded : (j.describeAll systems).1.failuresAt i =
      [{ index := i, object := t.object, fault := e.attributed t.object side }] := by
    have before : j.failuresAt i = [] := by simpa [hasFailed_iff] using healthy
    rw [describeAll_failuresAt, before, descriptions_get]
    simp [task, healthy, waits, failureOf, result, Task.describe_object]
  rw [run_failed (by rw [hasFailed_iff, recorded]; rfl) later, recorded]

end Ask

end Job

end MigrationPlan
