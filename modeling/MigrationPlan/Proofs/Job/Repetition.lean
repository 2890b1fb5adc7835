import MigrationPlan.Proofs.Job.Calls

/- Setting up all tasks once more. The tasks and the registry stay as they are, but every task that
   has not failed is taken for a second one with its object: it fails as listed twice. -/
namespace MigrationPlan
open Text

namespace Job

def SetUpAt (j : Job) (i : Nat) : Prop :=
  ∀ t, j.tasks[i]? = some t → j.hasFailed i = false → t.stage ≠ .unconfigured

theorem setUpTask_setUpAt {j : Job} {index : Nat} {t : Task}
    (task : j.tasks[index]? = some t) {i : Nat}
    (before : i = index ∨ j.SetUpAt i) : (j.setUpTask index t).1.SetUpAt i := by
  have elsewhere : ∀ {u : Task}, i ≠ index → j.tasks[i]? = some u → j.hasFailed i = false →
      u.stage ≠ .unconfigured :=
    fun other at_ healthy => before.resolve_left other _ at_ healthy
  intro u at_ healthy
  rcases setUpTask_cases j index t with ⟨f, _, failed⟩ | ⟨registry, ok, _, done⟩
  · rw [failed] at at_ healthy
    rw [hasFailed_fail, Bool.or_eq_false_iff] at healthy
    rcases getElem_set_cases at_ with ⟨rfl, _⟩ | ⟨other, same⟩
    · simp at healthy
    · exact elsewhere other same healthy.1
  · rw [done] at at_ healthy
    rcases getElem_set_cases at_ with ⟨_, rfl⟩ | ⟨other, same⟩
    · exact Task.setUp_succeeded ok
    · exact elsewhere other same healthy

theorem setUpAt_setUpAt (s : Job × List Notice) (index : Nat) {i : Nat}
    (before : i = index ∨ s.1.SetUpAt i) :
    (setUpAt s index).1.SetUpAt i := by
  -- an entry that is not there or has failed is left alone, and nothing is to be shown of it
  unfold setUpAt
  cases task : s.1.tasks[index]? with
  | none =>
    rcases before with rfl | before
    · intro u at_
      rw [task] at at_
      cases at_
    · exact before
  | some t =>
    cases failed : s.1.hasFailed index with
    | true =>
      rcases before with rfl | before
      · intro u _ healthy
        simp [failed] at healthy
      · exact before
    | false => exact setUpTask_setUpAt task before

theorem foldl_setUpAt (s : Job × List Notice) (count : Nat) :
    ∀ i < count, ((List.range count).foldl setUpAt s).1.SetUpAt i := by
  induction count with
  | zero => intro i before; omega
  | succ count ih =>
    intro i before
    rw [List.range_succ, List.foldl_append]
    apply setUpAt_setUpAt
    by_cases here : i = count
    · exact Or.inl here
    · exact Or.inr (ih i (by omega))

theorem setUpAll_setUpAt (j : Job) (i : Nat) : j.setUpAll.1.SetUpAt i := by
  by_cases inside : i < j.tasks.length
  · exact foldl_setUpAt (j, []) j.tasks.length i inside
  · have length : j.setUpAll.1.tasks.length = j.tasks.length := by
      apply setUpAll_keeps (P := fun k => k.tasks.length = j.tasks.length) _ rfl
      intro k index t _ _ same
      rw [setUpTask_tasks, List.length_set, same]
    intro t at_
    have short := (List.getElem?_eq_some_iff.mp at_).1
    omega

theorem describeAll_setUpAt (j : Job) (systems : Systems) {i : Nat} (before : j.SetUpAt i) :
    (j.describeAll systems).1.SetUpAt i := by
  intro t at_ healthy
  obtain ⟨u, at_', _, stages⟩ := describeAll_back at_
  have setUp := before u at_' (describeAll_hasFailed healthy)
  exact fun none => setUp (stages.mp none)

theorem run_setUpAt {j : Job} {i : Nat} (before : j.SetUpAt i) (calls : List Call) :
    (j.run calls).SetUpAt i :=
  run_keeps (P := fun k => k.SetUpAt i) (fun _ _ _ task _ h => setUpTask_setUpAt task (Or.inr h))
    (fun k systems h => describeAll_setUpAt k systems h) before calls

theorem run_setsUp (j : Job) {calls : List Call} (setsUp : calls.any Call.setsUp = true) (i : Nat) :
    (j.run calls).SetUpAt i := by
  induction calls generalizing j with
  | nil => simp at setsUp
  | cons call calls ih =>
    cases call with
    | setUpAll => exact run_setUpAt (setUpAll_setUpAt j i) calls
    | prepare systems =>
      exact run_setUpAt (describeAll_setUpAt _ systems (setUpAll_setUpAt j i)) calls
    | describeAll systems =>
      exact ih (j.describeAll systems).1 (by simpa [Call.setsUp] using setsUp)

theorem run_describes {j : Job} (fresh : ∀ t ∈ j.tasks, t.stage = .unconfigured) {calls : List Call}
    (describes : calls.any Call.setsUp = false) :
    ∀ t ∈ (j.run calls).tasks, t.stage = .unconfigured := by
  induction calls generalizing j with
  | nil => exact fresh
  | cons call calls ih =>
    rw [List.any_cons, Bool.or_eq_false_iff] at describes
    cases call with
    | setUpAll => simp [Call.setsUp] at describes
    | prepare systems => simp [Call.setsUp] at describes
    | describeAll systems =>
      refine ih (j := (j.describeAll systems).1) ?_ describes.2
      intro t member
      obtain ⟨i, at_⟩ := List.mem_iff_getElem?.mp member
      obtain ⟨u, at_', _, stages⟩ := describeAll_back at_
      exact stages.mpr (fresh u (List.mem_of_getElem? at_'))

/-! The second time, each task that has not failed finds its object registered. -/

def repetition (index : Nat) (t : Task) : Failure :=
  { index, object := t.displayName, fault := .object t.object .listedTwice }

def repetitionsAt (j : Job) (i : Nat) : List Failure :=
  match j.tasks[i]? with
  | none => []
  | some t => if j.hasFailed i then [] else [repetition i t]

def repetitions (j : Job) : List Failure := (List.range j.tasks.length).flatMap j.repetitionsAt

theorem repetitionsAt_some {j : Job} {i : Nat} {t : Task} (task : j.tasks[i]? = some t)
    (healthy : j.hasFailed i = false) : j.repetitionsAt i = [repetition i t] := by
  simp [repetitionsAt, task, healthy]

theorem repetitionsAt_index {j : Job} {i : Nat} {f : Failure}
    (member : f ∈ j.repetitionsAt i) : f.index = i := by
  unfold repetitionsAt at member
  split at member
  · cases member
  · split at member
    · cases member
    · rw [List.mem_singleton.mp member]
      rfl

theorem hasFailed_more (j : Job) (more : List Failure) (i : Nat) :
    ({ j with failures := j.failures ++ more } : Job).hasFailed i =
      (j.hasFailed i || more.any (·.index == i)) := by
  simp [hasFailed]

theorem hasFailed_before (j : Job) (count : Nat) :
    ((List.range count).flatMap j.repetitionsAt).any (·.index == count) = false := by
  rw [List.any_eq_false]
  intro f member
  obtain ⟨i, before, at_⟩ := List.mem_flatMap.mp member
  rw [repetitionsAt_index at_]
  have other : i ≠ count := Nat.ne_of_lt (List.mem_range.mp before)
  simp [other]

theorem setUpTask_again {j : Job} {index : Nat} {t : Task} (task : j.tasks[index]? = some t)
    (stage : t.stage ≠ .unconfigured) (known : j.registry.contains t.object = true) :
    (j.setUpTask index t).1 = { j with failures := j.failures ++ [repetition index t] } := by
  obtain ⟨inside, value⟩ := List.getElem?_eq_some_iff.mp task
  obtain ⟨state, result⟩ := Task.setUp_of_work j.context stage
  have tasks : j.tasks.set index t = j.tasks := by
    rw [← value]
    exact List.set_getElem_self inside
  unfold setUpTask
  simp only [state, result, tasks, Except.bind, Registry.register, known, ↓reduceIte]
  rfl

theorem foldl_again {j : Job} (sound : Sound j) (setUp : ∀ i, j.SetUpAt i)
    (notices : List Notice) (count : Nat) :
    ((List.range count).foldl setUpAt (j, notices)).1 =
      { j with failures := j.failures ++ (List.range count).flatMap j.repetitionsAt } := by
  induction count with
  | zero => simp
  | succ count ih =>
    have failed :
        Job.hasFailed
            { j with failures := j.failures ++ (List.range count).flatMap j.repetitionsAt } count =
          j.hasFailed count := by
      rw [hasFailed_more, hasFailed_before, Bool.or_false]
    rw [List.range_succ, List.foldl_append, List.foldl_cons, List.foldl_nil, List.flatMap_append]
    generalize (List.range count).foldl setUpAt (j, notices) = s at ih ⊢
    unfold setUpAt
    simp only [ih, failed]
    cases task : j.tasks[count]? with
    | none => simp [repetitionsAt, task, ih]
    | some t =>
      cases before : j.hasFailed count with
      | true => simp [repetitionsAt, task, before, ih]
      | false =>
        have stage := setUp count t task before
        have known : j.registry.contains t.object = true := by
          rw [Registry.contains, sound.healthy task before stage]
          rfl
        have again := setUpTask_again
          (j := { j with failures := j.failures ++ (List.range count).flatMap j.repetitionsAt })
            task stage known
        simp only [Bool.false_eq_true, ↓reduceIte, again, List.flatMap_cons, List.flatMap_nil,
          List.append_nil, repetitionsAt_some task before, List.append_assoc]

theorem setUpAll_eq {j : Job} (sound : Sound j) (setUp : ∀ i, j.SetUpAt i) :
    j.setUpAll.1 = { j with failures := j.failures ++ j.repetitions } :=
  foldl_again sound setUp [] j.tasks.length

theorem repetitions_failed {j : Job} {i : Nat} {t : Task} (task : j.tasks[i]? = some t)
    (healthy : j.hasFailed i = false) : repetition i t ∈ j.repetitions := by
  have inside := (List.getElem?_eq_some_iff.mp task).1
  refine List.mem_flatMap.mpr ⟨i, List.mem_range.mpr inside, ?_⟩
  rw [repetitionsAt_some task healthy]
  exact List.mem_singleton_self _

theorem repetitions_nil (j : Job) :
    j.repetitions = [] ↔ ∀ i < j.tasks.length, j.hasFailed i = true := by
  constructor
  · intro none i inside
    by_contra healthy
    have member :=
      repetitions_failed (List.getElem?_eq_getElem inside) (Bool.not_eq_true _ ▸ healthy)
    rw [none] at member
    cases member
  · intro failed
    refine List.flatMap_eq_nil_iff.mpr fun i member => ?_
    have inside := List.mem_range.mp member
    simp [repetitionsAt, List.getElem?_eq_getElem inside, failed i inside]

/-- Setting up all tasks again keeps the tasks and the registry and fails every task that has not
    failed; it changes nothing only where all tasks have failed before. -/
theorem setUpAll_again {c : Config} {j : Job} (valid : ofConfig c = .ok j) (calls : List Call) :
    let k := j.run calls
    (∀ i t, k.tasks[i]? = some t → t.stage ≠ .unconfigured → k.hasFailed i = false →
        repetition i t ∈ k.setUpAll.1.failures ∧
          ∀ systems, repetition i t ∈ (k.prepare systems).1.failures) ∧
      (calls.any Call.setsUp = true →
        k.setUpAll.1 = { k with failures := k.failures ++ k.repetitions } ∧
          (k.setUpAll.1 = k ↔ ∀ i < k.tasks.length, k.hasFailed i = true)) := by
  intro k
  have sound : Sound k := run_sound valid calls
  refine ⟨fun i t task stage healthy => ?_, fun setsUp => ?_⟩
  · have fails : repetition i t ∈ k.setUpAll.1.failures := by
      -- a task that is set up shows that all were
      cases setsUp : calls.any Call.setsUp with
      | false =>
        have fresh := run_describes (fresh_task valid).2.2 setsUp t (List.mem_of_getElem? task)
        exact absurd fresh stage
      | true =>
        rw [setUpAll_eq sound fun i => run_setsUp j setsUp i]
        exact List.mem_append_right _ (repetitions_failed task healthy)
    exact ⟨fails, fun systems => List.mem_append_left _ fails⟩
  · have again := setUpAll_eq sound fun i => run_setsUp j setsUp i
    refine ⟨again, ?_⟩
    rw [← repetitions_nil, again]
    constructor
    · intro same
      exact List.append_right_eq_self.mp (congrArg Job.failures same)
    · intro none
      rw [none, List.append_nil]

def oneAccount : Config :=
  { source := {}, target := {}, requests := [{ query := "SELECT Name FROM Account" }] }

def accountSystem : System :=
  { name := "org"
    describe := fun object =>
      .ok ((Snapshot.ofName object).addAll [.ofType "Id" .id, .ofType "Name" .string]) }

def oneAccountJob : Job :=
  { config := oneAccount, tasks := [{ request := { query := "SELECT Name FROM Account" } }] }

theorem oneAccount_valid : ofConfig oneAccount = .ok oneAccountJob := by
  have checked : oneAccount.validate = .ok () := by decide +kernel
  unfold ofConfig
  rw [checked]
  rfl

theorem setUpAll_again_account :
    ofConfig oneAccount = .ok oneAccountJob ∧
      (oneAccountJob.run [.prepare ⟨accountSystem, accountSystem⟩]).setUpAll.1.failures =
        (oneAccountJob.run [.prepare ⟨accountSystem, accountSystem⟩]).failures ++
          (oneAccountJob.run [.prepare ⟨accountSystem, accountSystem⟩]).repetitions :=
  ⟨oneAccount_valid,
    congrArg Job.failures
      ((setUpAll_again oneAccount_valid [.prepare ⟨accountSystem, accountSystem⟩]).2 rfl).1⟩

/-- An entry that was set up and has not failed fails when the job is prepared. -/
theorem setUpAll_not_repeatable :
    ofConfig oneAccount = .ok oneAccountJob ∧
      (oneAccountJob.run [.setUpAll]).tasks.map Task.progress = [.configured] ∧
      (oneAccountJob.run [.setUpAll]).failures = [] ∧
      (oneAccountJob.run [.setUpAll, .prepare ⟨accountSystem, accountSystem⟩]).failures =
        [{ index := 0, object := "Account", fault := .object "Account" .listedTwice }] := by
  refine ⟨oneAccount_valid, ?_, ?_, ?_⟩
  · decide +kernel
  · decide +kernel
  · decide +kernel

end Job

end MigrationPlan
