import MigrationPlan.Plan.Basic
import MigrationPlan.Proofs.Job.Dependencies
import MigrationPlan.Proofs.Job.Repetition
import MigrationPlan.Proofs.Job.Tasks
import MigrationPlan.Proofs.Task.Ownership

/- The registry of a job over all its calls: what it says of a name stays true for good, and
   whatever is asked of a task by way of its name is answered by that task. -/
namespace MigrationPlan
open Text

namespace Registry
variable {r r' r'' : Registry}

def Extends (r r' : Registry) : Prop :=
  ∀ name i, r.indexOf? name = some i → r'.indexOf? name = some i

theorem Extends.refl (r : Registry) : Extends r r := fun _ _ known => known

theorem Extends.trans (h : Extends r r') (h' : Extends r' r'') : Extends r r'' :=
  fun name i known => h' name i (h name i known)

theorem register_extends {object : String} {index : Nat}
    (ok : r.register object index = .ok r') : Extends r r' := by
  intro name i known
  rw [indexOf_register ok, known]
  rfl

end Registry

namespace Task

theorem run_object (r : Request) (calls : List Call) :
    (run { request := r } calls).object = "" ↔
      (run { request := r } calls).stage = .unconfigured := by
  constructor
  · intro unnamed
    have named : Kept r fun w => w.brief.object ≠ "" :=
      { setUp := fun c w made => Request.object_ne made
        describe := fun c systems w h => by rwa [w.describe_brief c systems r.isExtraObject] }
    have knows := run_keeps (t := { request := r }) named trivial calls
    by_contra setUp
    exact knows.work setUp unnamed
  · intro stage
    rw [object, brief, work, stage]
    rfl

end Task

namespace Job
variable {c : Config} {j : Job}

theorem run_extends (j : Job) (calls : List Call) : j.registry.Extends (j.run calls).registry := by
  apply run_keeps (P := fun k => j.registry.Extends k.registry) _ _ (.refl _)
  · intro k index t _ _ before
    rcases setUpTask_cases k index t with ⟨f, _, failed⟩ | ⟨registry, _, entered, done⟩
    · rw [failed]
      exact before
    · rw [done]
      exact before.trans (Registry.register_extends entered)
  · intro k systems before
    exact before

theorem Sound.unique (sound : Sound j) {a b : String} {i : Nat}
    (first : j.registry.indexOf? a = some i)
    (second : j.registry.indexOf? b = some i) : sameName a b = true := by
  obtain ⟨t, task, _, objectA⟩ := sound.registered first
  obtain ⟨u, task', _, objectB⟩ := sound.registered second
  rw [task] at task'
  cases task'
  rw [sameName_iff] at objectA objectB ⊢
  exact objectA.symm.trans objectB

theorem task_of_index {name : String} {i : Nat} {t : Task}
    (known : j.registry.indexOf? name = some i)
    (task : j.tasks[i]? = some t) : j.task? name = some t := by
  rw [task?, known]
  exact task

theorem run_waiting (valid : ofConfig c = .ok j) {calls : List Call} {i : Nat} {t : Task}
    (task : (j.run calls).tasks[i]? = some t) (healthy : (j.run calls).hasFailed i = false)
    (waiting : t.stage = .unconfigured) : ∀ u ∈ (j.run calls).tasks, u.stage = .unconfigured := by
  cases setsUp : calls.any Call.setsUp with
  | true => exact absurd waiting (run_setsUp j setsUp i t task healthy)
  | false => exact run_describes (fresh_task valid).2.2 setsUp

theorem summary_own (valid : ofConfig c = .ok j) {calls : List Call} {i : Nat} {t : Task}
    (task : (j.run calls).tasks[i]? = some t) (healthy : (j.run calls).hasFailed i = false) :
    ((j.run calls).summary? t.object).getD {} = (j.run calls).summaryOf t := by
  have sound := run_sound valid calls
  by_cases stage : t.stage = .unconfigured
  · -- without an object the task is not found, and as nothing is described there is nothing to
    -- sum up
    obtain ⟨r, own, _, made⟩ := run_task valid calls task
    have unnamed : t.object = "" := by
      rw [made] at stage ⊢
      exact (Task.run_object r own).mpr stage
    have unknown : (j.run calls).task? t.object = none := by
      cases found : (j.run calls).task? t.object with
      | none => rfl
      | some u =>
        obtain ⟨n, known, at_⟩ := Option.bind_eq_some_iff.mp found
        obtain ⟨v, at_', setUp, _⟩ := sound.registered known
        exact absurd (run_waiting valid task healthy stage v (List.mem_of_getElem? at_')) setUp
    have nothing := Task.describedFields_unconfigured stage
    have childless : (j.run calls).hasChildren t.object = false := by
      unfold hasChildren
      rw [List.any_eq_false]
      intro u member
      obtain ⟨n, at_, _⟩ := mem_healthyTasks.mp (List.mem_filter.mp member).1
      have empty := Task.describedFields_unconfigured
        (run_waiting valid task healthy stage u (List.mem_of_getElem? at_))
      simp [Task.references, empty]
    rw [summary?, unknown]
    simp [summaryOf, childless, Task.parents, Task.hasParents, nothing, parentObjects]
  · rw [summary?, task_of_index (sound.healthy task healthy stage) task]
    rfl

/-- In every state that calls lead to, the registry names tasks that are set up, by their objects
    and one each, it names every such task that has not failed, and it never changes its mind. So a
    plan sums up each task by itself, and the fields that a task shows lead back to it. -/
theorem registry_sound (valid : ofConfig c = .ok j) (calls : List Call) :
    let k := j.run calls
    (∀ name i, k.registry.indexOf? name = some i →
      ∃ t, k.tasks[i]? = some t ∧ t.progress ≠ .unconfigured ∧ sameName t.object name = true) ∧
    (∀ a b i, k.registry.indexOf? a = some i → k.registry.indexOf? b = some i →
      sameName a b = true) ∧
    (∀ later name i, k.registry.indexOf? name = some i →
      (k.run later).registry.indexOf? name = some i) ∧
    (∀ i t, k.tasks[i]? = some t → k.hasFailed i = false → t.progress ≠ .unconfigured →
      k.registry.indexOf? t.object = some i) ∧
    (PlanContent.ofJob k).tasks.map (·.relationships) = k.healthyTasks.map k.summaryOf ∧
    (∀ i t, k.tasks[i]? = some t → k.hasFailed i = false → ∀ f ∈ t.describedFields,
      k.ownerTask? f = some t ∧ f.owner.bind k.registry.indexOf? = some i) := by
  intro k
  have sound : Sound k := run_sound valid calls
  refine ⟨?_, ?_, ?_, ?_, ?_, ?_⟩
  · intro name i known
    obtain ⟨t, task, stage, object⟩ := sound.registered known
    exact ⟨t, task, fun none => stage (Task.progress_unconfigured.mp none), object⟩
  · intro a b i first second
    exact sound.unique first second
  · intro later name i known
    exact run_extends k later name i known
  · intro i t task healthy setUp
    exact sound.healthy task healthy fun none => setUp (Task.progress_unconfigured.mpr none)
  · rw [PlanContent.ofJob, List.map_map]
    refine List.map_congr_left fun t member => ?_
    obtain ⟨i, task, healthy⟩ := mem_healthyTasks.mp member
    exact summary_own valid task healthy
  · intro i t task healthy f described
    obtain ⟨r, own, _, made⟩ := run_task valid calls task
    have owner : f.owner = some t.object :=
      Task.describedFields_owner (made ▸ Task.run_owned r own) described
    have stage : t.stage ≠ .unconfigured := by
      intro none
      rw [Task.describedFields_unconfigured none] at described
      cases described
    have known := sound.healthy task healthy stage
    rw [ownerTask?, owner]
    exact ⟨task_of_index known task, known⟩

theorem registry_sound_contacts :
    ofConfig contactsOfAccounts = .ok contactsJob ∧
      (let k := contactsJob.run [.setUpAll, .describeAll accountSystems]
       k.registry.indexOf? "CONTACT" = some 1 ∧
         (k.run [.setUpAll]).registry.indexOf? "CONTACT" = some 1 ∧
         ∃ t, k.tasks[1]? = some t ∧
           t.describedFields.map Field.name = ["Id", "AccountId", "OwnerId", "BillingId"] ∧
           ∀ f ∈ t.describedFields, k.ownerTask? f = some t) := by
  have valid : ofConfig contactsOfAccounts = .ok contactsJob :=
    ofConfig_eq_ok.mpr ⟨by decide +kernel, rfl⟩
  obtain ⟨_, _, lasting, _, _, owners⟩ :=
    registry_sound valid [.setUpAll, .describeAll accountSystems]
  generalize reached :
    contactsJob.run [.setUpAll, .describeAll accountSystems] = k at lasting owners
  have facts : k.registry.indexOf? "CONTACT" = some 1 ∧ k.hasFailed 1 = false ∧
      k.tasks[1]?.map (fun t => t.describedFields.map Field.name) =
        some ["Id", "AccountId", "OwnerId", "BillingId"] := by
    rw [← reached]
    decide +kernel
  obtain ⟨known, healthy, described⟩ := facts
  obtain ⟨t, task, names⟩ := Option.map_eq_some_iff.mp described
  exact ⟨valid, known, lasting [.setUpAll] "CONTACT" 1 known, t, task, names,
    fun f member => (owners 1 t task healthy f member).1⟩

end Job

end MigrationPlan
