import MigrationPlan.Plan.Basic
import MigrationPlan.Proofs.Job.Dependencies
import MigrationPlan.Proofs.Job.Repetition
import MigrationPlan.Proofs.Job.Tasks
import MigrationPlan.Proofs.Task.QueryText

/- The books of a job. Each entry of the configuration is one task, and a task is either planned or
   has failed once. The failures carry the indices of their tasks; a step records them in the order
   of the tasks, and only of tasks that have not failed before. -/
namespace MigrationPlan

/-! Lists in the order of a key. -/

section Keyed
variable {α : Type} {key : α → Nat}

theorem parts_of_ascending {l : List α} {n : Nat} (ascending : (l.map key).Sublist (List.range n)) :
    l = (List.range n).flatMap fun i => l.filter fun a => key a == i := by
  induction n generalizing l with
  | zero =>
    have none : l.map key = [] := List.sublist_nil.mp ascending
    rw [List.map_eq_nil_iff.mp none]
    rfl
  | succ n ih =>
    rw [List.range_succ] at ascending
    obtain ⟨front, back, split, before, last⟩ := List.sublist_append_iff.mp ascending
    obtain ⟨l₁, l₂, rfl, rfl, rfl⟩ := List.map_eq_append_iff.mp split
    have below : ∀ a ∈ l₁, key a < n := fun a member =>
      List.mem_range.mp (before.mem (List.mem_map_of_mem member))
    have here : ∀ a ∈ l₂, key a = n := fun a member =>
      List.mem_singleton.mp (last.mem (List.mem_map_of_mem member))
    have first : ((List.range n).flatMap fun i => (l₁ ++ l₂).filter fun a => key a == i) = l₁ := by
      conv_rhs => rw [ih before]
      refine List.flatMap_congr fun i member => ?_
      have apart : (l₂.filter fun a => key a == i) = [] := by
        rw [List.filter_eq_nil_iff]
        intro a inside
        have small := List.mem_range.mp member
        have large := here a inside
        simp only [beq_iff_eq]
        omega
      rw [List.filter_append, apart, List.append_nil]
    have second : ((l₁ ++ l₂).filter fun a => key a == n) = l₂ := by
      have apart : (l₁.filter fun a => key a == n) = [] := by
        rw [List.filter_eq_nil_iff]
        intro a inside
        have small := below a inside
        simp only [beq_iff_eq]
        omega
      have all : (l₂.filter fun a => key a == n) = l₂ := List.filter_eq_self.mpr fun a inside => by
        simp [here a inside]
      rw [List.filter_append, apart, all, List.nil_append]
    rw [List.range_succ, List.flatMap_append, first, List.flatMap_singleton, second]

theorem ascending_of_parts {part : Nat → List α} (own : ∀ i, ∀ a ∈ part i, key a = i)
    (short : ∀ i, (part i).length ≤ 1) (n : Nat) :
    (((List.range n).flatMap part).map key).Sublist (List.range n) := by
  induction n with
  | zero => exact List.Sublist.refl []
  | succ n ih =>
    rw [List.range_succ, List.flatMap_append, List.map_append, List.flatMap_singleton]
    refine ih.append ?_
    cases here : part n with
    | nil => exact List.nil_sublist _
    | cons a rest =>
      have few := short n
      rw [here] at few
      have none : rest = [] := List.length_eq_zero_iff.mp (by simpa using few)
      have index : key a = n := own n a (by simp [here])
      simp [none, index]

theorem flatten_mapIdx {β : Type} (g : Nat → α → List β) (l : List α) :
    (l.mapIdx g).flatten = (List.range l.length).flatMap fun i => l[i]?.elim [] (g i) := by
  have each : l.mapIdx g = (List.range l.length).map fun i => l[i]?.elim [] (g i) := by
    apply List.ext_getElem
    · simp
    · intro i inside _
      have inside' : i < l.length := by simpa using inside
      simp [inside']
  rw [each, List.flatMap_def]

end Keyed

namespace Job
variable {c : Config} {j : Job}

/-! No task fails twice. -/

theorem hasFailed_true (j : Job) (i : Nat) :
    j.hasFailed i = true ↔ i ∈ j.failures.map (·.index) := by
  simp [hasFailed]

theorem failureOf_own (i : Nat) (o : Outcome Task Unit) :
    (failureOf i o).length ≤ 1 ∧ ∀ f ∈ failureOf i o, f.index = i := by
  unfold failureOf
  cases o.result <;> simp

theorem failuresOf_ascending (outcomes : List (Outcome Task Unit)) :
    ((failuresOf outcomes).map (·.index)).Sublist (List.range outcomes.length) := by
  rw [failuresOf_flatten, flatten_mapIdx]
  apply ascending_of_parts
  · intro i f member
    cases at_ : outcomes[i]? with
    | none => simp [at_] at member
    | some o => exact (failureOf_own i o).2 f (by simpa [at_] using member)
  · intro i
    cases outcomes[i]? with
    | none => exact Nat.zero_le 1
    | some o => exact (failureOf_own i o).1

theorem setUpTask_failures (j : Job) (index : Nat) (t : Task) :
    (j.setUpTask index t).1.failures = j.failures ∨
      ∃ f, f.index = index ∧ (j.setUpTask index t).1.failures = j.failures ++ [f] := by
  rcases setUpTask_cases j index t with ⟨f, _, failed⟩ | ⟨registry, _, _, done⟩
  · rw [failed]
    exact Or.inr ⟨_, rfl, rfl⟩
  · rw [done]
    exact Or.inl rfl

structure Accounted (j : Job) : Prop where
  once : (j.failures.map (·.index)).Nodup
  inside : ∀ f ∈ j.failures, f.index < j.tasks.length

theorem Accounted.append {j' : Job} {more : List Failure} (h : Accounted j)
    (failures : j'.failures = j.failures ++ more) (length : j'.tasks.length = j.tasks.length)
    (once : (more.map (·.index)).Nodup)
    (new : ∀ f ∈ more, j.hasFailed f.index = false ∧ f.index < j.tasks.length) : Accounted j' := by
  constructor
  · rw [failures, List.map_append]
    refine List.nodup_append.mpr ⟨h.once, once, ?_⟩
    intro a old b member same
    obtain ⟨f, here, rfl⟩ := List.mem_map.mp member
    have healthy := (new f here).1
    rw [← same, ← Bool.not_eq_true, hasFailed_true] at healthy
    exact healthy old
  · rw [failures, length]
    intro f member
    rcases List.mem_append.mp member with old | here
    · exact h.inside f old
    · exact (new f here).2

theorem setUpTask_accounted (j : Job) (index : Nat) (t : Task) (task : j.tasks[index]? = some t)
    (healthy : j.hasFailed index = false) (h : Accounted j) :
    Accounted (j.setUpTask index t).1 := by
  have length : (j.setUpTask index t).1.tasks.length = j.tasks.length := by
    rw [setUpTask_tasks, List.length_set]
  rcases setUpTask_failures j index t with same | ⟨f, rfl, more⟩
  · exact h.append (same.trans (List.append_nil _).symm) length List.nodup_nil nofun
  · refine h.append more length (by simp) fun g member => ?_
    rw [List.mem_singleton.mp member]
    exact ⟨healthy, (List.getElem?_eq_some_iff.mp task).1⟩

theorem describeAll_accounted (j : Job) (systems : Systems) (h : Accounted j) :
    Accounted (j.describeAll systems).1 := by
  have once := (failuresOf_ascending (j.descriptions systems)).nodup List.nodup_range
  refine h.append (describeAll_failures j systems) (run_length j [.describeAll systems]) once
    fun f member => ?_
  obtain ⟨t, task, healthy, _⟩ := mem_failuresOf member
  exact ⟨healthy, (List.getElem?_eq_some_iff.mp task).1⟩

theorem run_accounted (valid : ofConfig c = .ok j) (calls : List Call) :
    Accounted (j.run calls) := by
  obtain ⟨_, none, _⟩ := fresh_task valid
  have fresh : Accounted j := ⟨by simp [none], by simp [none]⟩
  exact run_keeps setUpTask_accounted describeAll_accounted fresh calls

theorem Accounted.failuresAt (h : Accounted j) (i : Nat) :
    (j.failuresAt i = [] ∧ j.hasFailed i = false) ∨ ∃ f, j.failuresAt i = [f] ∧
      j.hasFailed i = true := by
  have few : ((j.failuresAt i).map (·.index)).Nodup := (List.filter_sublist.map _).nodup h.once
  have own : ∀ f ∈ j.failuresAt i, f.index = i := fun f member => by
    simpa using (List.mem_filter.mp member).2
  rw [hasFailed_iff]
  cases at_ : j.failuresAt i with
  | nil => exact Or.inl ⟨rfl, rfl⟩
  | cons f rest =>
    refine Or.inr ⟨f, ?_, rfl⟩
    cases rest with
    | nil => rfl
    | cons g rest =>
      rw [at_] at few own
      have first : f.index = i := own f (by simp)
      have second : g.index = i := own g (by simp)
      simp [first, second] at few

/-! The tasks that are planned. -/

def healthyIndices (j : Job) : List Nat :=
  (List.range j.tasks.length).filter fun i => !j.hasFailed i

theorem healthyTasks_indices (j : Job) :
    j.healthyTasks = j.healthyIndices.filterMap fun i => j.tasks[i]? := by
  have each := j.healthyTasks_flatMap fun t => [t]
  rw [List.flatMap_singleton', flatten_mapIdx] at each
  rw [each, healthyIndices, List.filterMap_filter, List.filterMap_eq_flatMap_toList]
  refine List.flatMap_congr fun i _ => ?_
  cases j.tasks[i]? <;> cases j.hasFailed i <;> rfl

theorem Accounted.perm (h : Accounted j) :
    (j.healthyIndices ++ j.failures.map (·.index)).Perm (List.range j.tasks.length) := by
  have healthy : j.healthyIndices.Nodup := List.nodup_range.filter _
  have all : (j.healthyIndices ++ j.failures.map (·.index)).Nodup := by
    refine List.nodup_append.mpr ⟨healthy, h.once, ?_⟩
    intro a sound b failed same
    have fresh := (List.mem_filter.mp sound).2
    rw [same, (hasFailed_true j b).mpr failed] at fresh
    cases fresh
  refine (List.perm_ext_iff_of_nodup all List.nodup_range).mpr fun i => ?_
  rw [List.mem_append, healthyIndices, List.mem_filter, ← hasFailed_true, List.mem_range]
  constructor
  · intro either
    rcases either with ⟨inside, _⟩ | failed
    · exact inside
    · obtain ⟨f, member, rfl⟩ := List.mem_map.mp ((hasFailed_true j i).mp failed)
      exact h.inside f member
  · intro inside
    cases failed : j.hasFailed i with
    | false => exact Or.inl ⟨inside, rfl⟩
    | true => exact Or.inr rfl

theorem healthyTasks_length (j : Job) : j.healthyTasks.length = j.healthyIndices.length := by
  rw [healthyTasks_indices, List.length_filterMap_eq_countP, List.countP_eq_length]
  intro i member
  have inside := List.mem_range.mp (List.mem_filter.mp member).1
  simp [inside]

theorem Accounted.count (h : Accounted j) :
    j.healthyTasks.length + j.failures.length = j.tasks.length := by
  have all := h.perm.length_eq
  rwa [List.length_append, List.length_map, List.length_range, ← healthyTasks_length] at all

/-! The failures of a preparation: those of the set-up, and then those of the descriptions. -/

theorem setUpAt_failures (s : Job × List Notice) (index : Nat) :
    (setUpAt s index).1.failures = s.1.failures ∨
      ∃ f, f.index = index ∧ (setUpAt s index).1.failures = s.1.failures ++ [f] := by
  unfold setUpAt
  split
  · exact Or.inl rfl
  · split
    · exact Or.inl rfl
    · exact setUpTask_failures s.1 index _

theorem foldl_ascending {s : Job × List Notice} (none : s.1.failures = []) (count : Nat) :
    (((List.range count).foldl setUpAt s).1.failures.map (·.index)).Sublist (List.range count) := by
  induction count with
  | zero => simp [none]
  | succ count ih =>
    rw [List.range_succ, List.foldl_append]
    rcases setUpAt_failures ((List.range count).foldl setUpAt s) count with same | ⟨f, rfl, more⟩
    · exact (same ▸ ih).trans (List.sublist_append_left _ _)
    · have last : ([f].map (·.index)).Sublist [f.index] := List.Sublist.refl _
      rw [List.foldl_cons, List.foldl_nil, more, List.map_append]
      exact ih.append last

theorem ofConfig_length (valid : ofConfig c = .ok j) :
    j.tasks.length = (c.requests.filter (!·.excluded)).length := by
  obtain ⟨_, rfl⟩ := ofConfig_eq_ok.mp valid
  exact List.length_map _

theorem setUpAll_failures (valid : ofConfig c = .ok j) :
    j.setUpAll.1.failures =
      (List.range (c.requests.filter (!·.excluded)).length).flatMap
        (setUpFailures c.context (c.requests.filter (!·.excluded))) := by
  obtain ⟨_, none, _⟩ := fresh_task valid
  have ascending : (j.setUpAll.1.failures.map (·.index)).Sublist (List.range j.tasks.length) :=
    foldl_ascending none j.tasks.length
  rw [ofConfig_length valid] at ascending
  refine (parts_of_ascending ascending).trans (List.flatMap_congr fun i member => ?_)
  have at_ := (setUpAll_setUp valid).failures i
  rwa [if_pos (List.mem_range.mp member)] at at_

def descriptionFailures (c : Context) (rs : List Request) (systems : Systems)
    (index : Nat) : List Failure :=
  match rs[index]? with
  | none => []
  | some r => if (setUpFailures c rs index).isEmpty then failureOf index (r.alone c systems) else []

theorem descriptions_failures (valid : ofConfig c = .ok j) (systems : Systems)
    {i : Nat} {r : Request} (entry : (c.requests.filter (!·.excluded))[i]? = some r) :
    (j.setUpAll.1.descriptions systems)[i]?.elim [] (failureOf i) =
      descriptionFailures c.context (c.requests.filter (!·.excluded)) systems i := by
  have set := setUpAll_setUp valid
  have before :
      j.setUpAll.1.failuresAt i = setUpFailures c.context (c.requests.filter (!·.excluded)) i := by
    rw [set.failures, if_pos (List.getElem?_eq_some_iff.mp entry).1]
  have after := describeAll_failuresAt j.setUpAll.1 systems i
  rw [before] at after
  simp only [descriptionFailures, entry]
  cases made : r.setUp c.context with
  | error f =>
    rw [(describeAll_error systems set entry made).2, setUpFailures_error entry made] at after
    rw [setUpFailures_error entry made]
    exact List.append_cancel_left after.symm
  | ok w =>
    cases repeated :
      Request.taken c.context ((c.requests.filter (!·.excluded)).take i) w.brief.object with
    | true =>
      rw [(describeAll_repeated systems set entry made repeated).2,
        setUpFailures_repeated entry made repeated] at after
      rw [setUpFailures_repeated entry made repeated]
      exact List.append_cancel_left after.symm
    | false =>
      rw [(describeAll_new systems set entry made repeated).2,
        setUpFailures_new entry made repeated] at after
      rw [setUpFailures_new entry made repeated]
      exact after.symm

theorem prepare_failures (valid : ofConfig c = .ok j) (systems : Systems) :
    (j.prepare systems).1.failures =
      (List.range (c.requests.filter (!·.excluded)).length).flatMap
          (setUpFailures c.context (c.requests.filter (!·.excluded))) ++
        (List.range (c.requests.filter (!·.excluded)).length).flatMap
          (descriptionFailures c.context (c.requests.filter (!·.excluded)) systems) := by
  have prepared : (j.prepare systems).1 = (j.setUpAll.1.describeAll systems).1 := rfl
  have length :
      (j.setUpAll.1.descriptions systems).length = (c.requests.filter (!·.excluded)).length := by
    have same : j.setUpAll.1.tasks.length = j.tasks.length := run_length j [.setUpAll]
    rw [descriptions_length, same, ofConfig_length valid]
  rw [prepared, describeAll_failures, setUpAll_failures valid, failuresOf_flatten,
    flatten_mapIdx, length]
  congr 1
  refine List.flatMap_congr fun i member => ?_
  exact descriptions_failures valid systems (List.getElem?_eq_getElem (List.mem_range.mp member))

theorem prepare_described (j : Job) (systems : Systems) {t : Task}
    (member : t ∈ (j.prepare systems).1.healthyTasks) :
    t.progress = .described := by
  obtain ⟨i, task, healthy⟩ := mem_healthyTasks.mp member
  obtain ⟨u, before, sound, ⟨waits, ok, rfl⟩ | ⟨other, rfl⟩⟩ := describeAll_healthy task healthy
  · rw [Task.describe_progress, ok]
    rfl
  · have setUp := setUpAll_setUpAt j i t before sound
    cases progress : t.progress with
    | unconfigured => exact absurd (Task.progress_unconfigured.mp progress) setUp
    | configured => exact absurd progress other
    | described => rfl

theorem run_requests (valid : ofConfig c = .ok j) (calls : List Call) :
    (j.run calls).tasks.map (·.request) = c.requests.filter (!·.excluded) := by
  have length : (j.run calls).tasks.length = (c.requests.filter (!·.excluded)).length := by
    rw [run_length, ofConfig_length valid]
  apply List.ext_getElem
  · rw [List.length_map, length]
  · intro i inside inside'
    rw [List.getElem_map]
    have here : i < (j.run calls).tasks.length := by simpa using inside
    obtain ⟨r, own, entry, made⟩ := run_task valid calls (List.getElem?_eq_getElem here)
    rw [made, Task.run_request]
    exact (List.getElem_of_getElem? entry).2.symm

theorem run_composed (valid : ofConfig c = .ok j) (calls : List Call) {t : Task}
    (member : t ∈ (j.run calls).healthyTasks) : t.TextComposed := by
  obtain ⟨i, task, healthy⟩ := mem_healthyTasks.mp member
  obtain ⟨_, _, unconfigured⟩ := fresh_task valid
  have fresh : ∀ u ∈ j.tasks, u.TextComposed := fun u before some =>
    absurd (Task.progress_unconfigured.mpr (unconfigured u before)) some
  exact run_healthy Task.setUp_composed Task.describe_composed fresh calls i t task healthy

/-- Whatever is called, each entry is one task, each task is planned or has failed once, and what is
    planned is what the task has. Behind one preparation all planned tasks are described, and the
    failures are those of the set-up and then those of the descriptions, both in the order of the
    entries. -/
theorem entries_accounted (valid : ofConfig c = .ok j) (calls : List Call) :
    let rs := c.requests.filter (!·.excluded)
    let k := j.run calls
    let p := PlanContent.ofJob k
    k.tasks.map (·.request) = rs ∧
      (∀ i, (k.failuresAt i = [] ∧ k.hasFailed i = false) ∨ ∃ f, k.failuresAt i = [f] ∧
        k.hasFailed i = true) ∧
      p.tasks = k.healthyIndices.filterMap (fun i => k.tasks[i]?.map (TaskPlan.ofTask k)) ∧
      (k.healthyIndices ++ k.failures.map (·.index)).Perm (List.range rs.length) ∧
      p.tasks.length + p.failures.length = rs.length ∧
      (∀ t ∈ k.healthyTasks, t.progress ≠ .unconfigured →
        (TaskPlan.ofTask k t).query = t.query.compose ∧
          (TaskPlan.ofTask k t).fields = t.query.entries.map Entry.key) ∧
      ∀ systems, let after := (j.prepare systems).1
        (∀ t ∈ after.healthyTasks, t.progress = .described) ∧
          after.failures = (List.range rs.length).flatMap (setUpFailures c.context rs) ++
            (List.range rs.length).flatMap (descriptionFailures c.context rs systems) := by
  intro rs k p
  have accounted : Accounted k := run_accounted valid calls
  have requests : k.tasks.map (·.request) = rs := run_requests valid calls
  have length : k.tasks.length = rs.length := by rw [← requests, List.length_map]
  refine ⟨requests, accounted.failuresAt, ?_, length ▸ accounted.perm, ?_, ?_, ?_⟩
  · have planned : p.tasks = k.healthyTasks.map (TaskPlan.ofTask k) := rfl
    rw [planned, healthyTasks_indices, List.map_filterMap]
  · have planned : p.tasks.length = k.healthyTasks.length := List.length_map _
    have failed : p.failures.length = k.failures.length := List.length_map _
    rw [planned, failed, accounted.count, length]
  · intro t member setUp
    exact ⟨run_composed valid calls member setUp, rfl⟩
  · intro systems after
    exact ⟨fun t member => prepare_described j systems member, prepare_failures valid systems⟩

def accountsLast : Config := { accountsTwice with requests := accountsTwice.requests.reverse }

def onlyAccounts : System :=
  { name := "org"
    describe := fun object =>
      if Text.sameName object "Account" then accountSystem.describe object
      else .error (.describe (.unknownObject object "org")) }

theorem entries_accounted_accounts :
    ∃ j, ofConfig accountsLast = .ok j ∧
      let k := j.run [.prepare ⟨onlyAccounts, onlyAccounts⟩]
      (PlanContent.ofJob k).tasks.length + (PlanContent.ofJob k).failures.length = 4 ∧
        (k.healthyIndices ++ k.failures.map (·.index)).Perm [0, 1, 2, 3] ∧
        k.healthyIndices = [2] ∧ k.failures.map (·.index) = [1, 3, 0] := by
  have checked : accountsLast.validate = .ok () := by decide +kernel
  have valid := ofConfig_eq_ok.mpr ⟨checked, rfl⟩
  obtain ⟨_, _, _, once, count, _, _⟩ :=
    entries_accounted valid [.prepare ⟨onlyAccounts, onlyAccounts⟩]
  refine ⟨_, valid, count, once, ?_, ?_⟩
  · decide +kernel
  · decide +kernel

end Job

end MigrationPlan
