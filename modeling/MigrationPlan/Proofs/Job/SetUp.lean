import MigrationPlan.Job.Basic
import MigrationPlan.Proofs.Query.Stability
import MigrationPlan.Proofs.Selection.SelectList
import MigrationPlan.Proofs.Task.Calls
import MigrationPlan.Proofs.Task.Setup

/- Setting up all tasks of a fresh job. Step by step the registry comes to know the objects of the
   entries whose set-up succeeded, and nothing else passes from one entry to the next. -/
namespace MigrationPlan
open Text

namespace Registry

theorem contains_register {r r' : Registry} {object : String} {index : Nat}
    (ok : r.register object index = .ok r') (name : String) :
    r'.contains name = (r.contains name || sameName object name) := by
  unfold register at ok
  split at ok
  · cases ok
  · have entries := Except.ok.inj ok
    subst entries
    simp only [contains, indexOf?, List.lookup_append, Option.isSome_or]
    congr 1
    by_cases same : fold object = fold name
    · simp [sameName, same]
    · have other : (fold name == fold object) = false := by simpa using Ne.symm same
      have apart : (fold object == fold name) = false := by simpa using same
      simp [sameName, apart, List.lookup_cons, other]

theorem contains_congr (r : Registry) {object name : String} (same : sameName object name = true) :
    r.contains object = r.contains name := by
  have eq := (sameName_iff object name).mp same
  unfold contains indexOf?
  rw [eq]

end Registry

namespace Request

def taken (c : Context) (earlier : List Request) (object : String) : Bool :=
  earlier.any fun r => (r.setUp c).toOption.any fun w => sameName w.brief.object object

theorem taken_append (c : Context) (earlier : List Request) (r : Request) (object : String) :
    taken c (earlier ++ [r]) object =
      (taken c earlier object || (r.setUp c).toOption.any fun w =>
        sameName w.brief.object object) := by
  simp [taken]

theorem object_ne {r : Request} {c : Context} {w : Work} (made : r.setUp c = .ok w) :
    w.brief.object ≠ "" := by
  obtain ⟨x, operation, configuredId, resolved, _, _, rfl⟩ := setUp_eq_ok.mp made
  obtain ⟨q, parsed, rfl⟩ := Resolution.ofText_eq_ok.mp resolved
  have named := (Query.readable_of_parse parsed).object
  intro empty
  have object : q.object = "" := empty
  rw [object] at named
  exact absurd named (by decide)

end Request

namespace Task

theorem displayName_object {t : Task} (named : t.object ≠ "") : t.displayName = t.object := by
  simp [displayName, named]

end Task

namespace Job

theorem ofConfig_eq_ok {c : Config} {j : Job} :
    ofConfig c = .ok j ↔ c.validate = .ok () ∧
      j = { config := c,
            tasks := (c.requests.filter (!·.excluded)).map fun request => { request } } := by
  unfold ofConfig
  cases c.validate with
  | error f => simp [Except.map]
  | ok u => simp [Except.map, eq_comm]

def failuresAt (j : Job) (index : Nat) : List Failure := j.failures.filter (·.index == index)

theorem hasFailed_iff (j : Job) (index : Nat) :
    j.hasFailed index = !(j.failuresAt index).isEmpty := by
  unfold hasFailed failuresAt
  rw [Bool.eq_iff_iff]
  simp

def setUpFailures (c : Context) (rs : List Request) (index : Nat) : List Failure :=
  match rs[index]? with
  | none => []
  | some r =>
    match r.setUp c with
    | .error fault => [{ index, object := r.query, fault }]
    | .ok w =>
      let object := w.brief.object
      if Request.taken c (rs.take index) object then
        [{ index, object, fault := .object object .listedTwice }] else []

section Failures
variable {c : Context} {rs : List Request} {index : Nat} {r : Request} (entry : rs[index]? = some r)
include entry

theorem setUpFailures_error {f : Fault} (made : r.setUp c = .error f) :
    setUpFailures c rs index = [{ index, object := r.query, fault := f }] := by
  simp [setUpFailures, entry, made]

theorem setUpFailures_repeated {w : Work} (made : r.setUp c = .ok w)
    (repeated : Request.taken c (rs.take index) w.brief.object = true) :
    setUpFailures c rs index =
      [{ index, object := w.brief.object, fault := .object w.brief.object .listedTwice }] := by
  simp [setUpFailures, entry, made, repeated]

theorem setUpFailures_new {w : Work} (made : r.setUp c = .ok w)
    (new : Request.taken c (rs.take index) w.brief.object = false) :
    setUpFailures c rs index = [] := by
  simp [setUpFailures, entry, made, new]

end Failures

/-- A job some of whose entries are set up. -/
structure SetUpTo (c : Config) (rs : List Request) (count : Nat) (j : Job) : Prop where
  config : j.config = c
  tasks : j.tasks =
    (rs.take count).map (fun request => (Task.setUp c.context { request }).state)
      ++ (rs.drop count).map fun request => ({ request } : Task)
  registry : ∀ object, j.registry.contains object = Request.taken c.context (rs.take count) object
  failures : ∀ i, j.failuresAt i = if i < count then setUpFailures c.context rs i else []

theorem failuresAt_fail (j : Job) (index : Nat) (object : String) (fault : Fault) (i : Nat) :
    (j.fail index object fault).1.failuresAt i =
      j.failuresAt i ++ if index = i then [({ index, object, fault } : Failure)] else [] := by
  unfold fail failuresAt
  rw [List.filter_append]
  by_cases same : index = i
  · simp [same]
  · simp [same]

/-! What setting up the task of one entry does to a job. -/

section Task
variable {j : Job} {index : Nat} {r : Request}

theorem setUpTask_error {f : Fault} (made : r.setUp j.context = .error f) :
    (j.setUpTask index { request := r }).1 =
      (Job.fail { j with tasks := j.tasks.set index (Task.setUp j.context { request := r }).state }
        index r.query f).1 := by
  obtain ⟨state, result⟩ := Task.setUp_error j.context (t := { request := r }) rfl made
  unfold setUpTask
  simp only [result, state, Except.bind]
  rfl

variable {w : Work} (made : r.setUp j.context = .ok w)
include made

theorem setUpTask_repeated (repeated : j.registry.contains w.brief.object = true) :
    (j.setUpTask index { request := r }).1 =
      (Job.fail { j with tasks := j.tasks.set index (Task.setUp j.context { request := r }).state }
        index w.brief.object (.object w.brief.object .listedTwice)).1 := by
  obtain ⟨state, result⟩ := Task.setUp_ok j.context (t := { request := r }) rfl made
  have object : (Task.setUp j.context { request := r }).state.object = w.brief.object := by
    rw [state]; rfl
  have named : (Task.setUp j.context { request := r }).state.displayName = w.brief.object := by
    rw [Task.displayName_object (by rw [object]; exact Request.object_ne made), object]
  unfold setUpTask
  simp only [result, object, Except.bind, Registry.register, repeated, ↓reduceIte, named]

theorem setUpTask_registered {registry : Registry}
    (registered : j.registry.register w.brief.object index = .ok registry) :
    (j.setUpTask index { request := r }).1 =
      { j with
        tasks := j.tasks.set index (Task.setUp j.context { request := r }).state, registry } := by
  obtain ⟨state, result⟩ := Task.setUp_ok j.context (t := { request := r }) rfl made
  have object : (Task.setUp j.context { request := r }).state.object = w.brief.object := by
    rw [state]; rfl
  unfold setUpTask
  simp only [result, object, Except.bind, registered]

end Task

section Step
variable {c : Config} {rs : List Request} {count : Nat} {j : Job} {r : Request}

theorem SetUpTo.next_failures (h : SetUpTo c rs count j) {j' : Job}
    (recorded : ∀ i, j'.failuresAt i =
      j.failuresAt i ++ if count = i then setUpFailures c.context rs count else []) :
    ∀ i, j'.failuresAt i = if i < count + 1 then setUpFailures c.context rs i else [] := by
  intro i
  rw [recorded, h.failures]
  rcases Nat.lt_trichotomy i count with before | rfl | behind
  · rw [if_pos before, if_neg (by omega), if_pos (by omega), List.append_nil]
  · simp
  · rw [if_neg (by omega), if_neg (by omega), if_neg (by omega), List.append_nil]

theorem SetUpTo.next_tasks (h : SetUpTo c rs count j) (entry : rs[count]? = some r) :
    j.tasks.set count (Task.setUp c.context { request := r }).state =
      (rs.take (count + 1)).map (fun request => (Task.setUp c.context { request }).state)
        ++ (rs.drop (count + 1)).map fun request => ({ request } : Task) := by
  obtain ⟨inside, value⟩ := List.getElem?_eq_some_iff.mp entry
  have front :
      ((rs.take count).map fun request => (Task.setUp c.context { request }).state).length =
        count := by
    simp [Nat.le_of_lt inside]
  have rest : rs.drop count = r :: rs.drop (count + 1) := by
    rw [← value]
    exact List.drop_eq_getElem_cons inside
  have taken : rs.take (count + 1) = rs.take count ++ [r] := by
    rw [List.take_add_one, entry]
    rfl
  rw [h.tasks, List.set_append_right _ _ (Nat.le_of_eq front), front, Nat.sub_self, rest, taken]
  simp

theorem SetUpTo.next_task (h : SetUpTo c rs count j) (entry : rs[count]? = some r) :
    j.tasks[count]? = some ({ request := r } : Task) := by
  obtain ⟨inside, value⟩ := List.getElem?_eq_some_iff.mp entry
  have front :
      ((rs.take count).map fun request => (Task.setUp c.context { request }).state).length =
        count := by
    simp [Nat.le_of_lt inside]
  rw [h.tasks, List.getElem?_append_right (Nat.le_of_eq front), front, Nat.sub_self,
    List.getElem?_map, List.getElem?_drop, Nat.add_zero, entry]
  rfl

theorem SetUpTo.next_taken (h : SetUpTo c rs count j) (entry : rs[count]? = some r)
    (object : String) :
    Request.taken c.context (rs.take (count + 1)) object =
      (j.registry.contains object ||
        (r.setUp c.context).toOption.any fun w => sameName w.brief.object object) := by
  have more : rs.take (count + 1) = rs.take count ++ [r] := by
    rw [List.take_add_one, entry]
    rfl
  rw [more, Request.taken_append, h.registry]

theorem SetUpTo.next_failed (h : SetUpTo c rs count j) (entry : rs[count]? = some r)
    {object : String} {fault : Fault}
    (here : setUpFailures c.context rs count = [{ index := count, object, fault }])
    (known : ∀ name, Request.taken c.context (rs.take (count + 1)) name =
      j.registry.contains name) :
    SetUpTo c rs (count + 1)
      (Job.fail { j with tasks := j.tasks.set count (Task.setUp c.context { request := r }).state }
        count object fault).1 where
  config := h.config
  tasks := h.next_tasks entry
  registry name := (known name).symm
  failures := h.next_failures fun i => by
    rw [failuresAt_fail, here]
    rfl

theorem SetUpTo.next (h : SetUpTo c rs count j) (entry : rs[count]? = some r)
    (notices : List Notice) :
    SetUpTo c rs (count + 1) (setUpAt (j, notices) count).1 := by
  have task := h.next_task entry
  have fresh : j.hasFailed count = false := by
    rw [hasFailed_iff, h.failures]
    simp
  have context : j.context = c.context := congrArg Config.context h.config
  have step : (setUpAt (j, notices) count).1 = (j.setUpTask count { request := r }).1 := by
    simp [setUpAt, task, fresh]
  have taken := h.next_taken entry
  rw [step]
  cases made : r.setUp c.context with
  | error f =>
    rw [setUpTask_error (context ▸ made), context]
    refine h.next_failed entry (setUpFailures_error entry made) fun name => ?_
    rw [taken, made]
    exact Bool.or_false _
  | ok w =>
    cases repeated : j.registry.contains w.brief.object with
    | true =>
      rw [setUpTask_repeated (context ▸ made) repeated, context]
      have again := h.registry w.brief.object ▸ repeated
      refine h.next_failed entry (setUpFailures_repeated entry made again) fun name => ?_
      rw [taken, made]
      -- the registry knows the object of the entry by every spelling already
      cases same : sameName w.brief.object name with
      | false => simp [same, Except.toOption]
      | true => simp [← j.registry.contains_congr same, repeated]
    | false =>
      have new := h.registry w.brief.object ▸ repeated
      have registered : j.registry.register w.brief.object count =
          .ok { entries := j.registry.entries ++ [(fold w.brief.object, count)] } := by
        simp [Registry.register, repeated]
      rw [setUpTask_registered (context ▸ made) registered, context]
      exact
        { config := h.config
          tasks := h.next_tasks entry
          registry := fun name => by
            rw [taken, made]
            exact Registry.contains_register registered name
          failures := h.next_failures fun i => by
            rw [setUpFailures_new entry made new]
            simp [failuresAt] }

theorem SetUpTo.all (h : SetUpTo c rs 0 j) (notices : List Notice) (within : count ≤ rs.length) :
    SetUpTo c rs count ((List.range count).foldl setUpAt (j, notices)).1 := by
  induction count with
  | zero => exact h
  | succ count ih =>
    rw [List.range_succ, List.foldl_append]
    exact (ih (Nat.le_of_succ_le within)).next (List.getElem?_eq_getElem within) _

end Step

theorem setUpAll_setUp {c : Config} {j : Job} (valid : ofConfig c = .ok j) :
    SetUpTo c (c.requests.filter (!·.excluded))
      (c.requests.filter (!·.excluded)).length j.setUpAll.1 := by
  obtain ⟨_, rfl⟩ := ofConfig_eq_ok.mp valid
  have start : SetUpTo c (c.requests.filter (!·.excluded)) 0
      { config := c, tasks := (c.requests.filter (!·.excluded)).map fun request => { request } } :=
    { config := rfl
      tasks := rfl
      registry := fun object => rfl
      failures := fun i => rfl }
  have all := start.all [] (Nat.le_refl _)
  simpa [setUpAll] using all

end Job

end MigrationPlan
