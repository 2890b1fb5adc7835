import MigrationPlan.Job.Relations
import MigrationPlan.Proofs.Job.Calls
import MigrationPlan.Proofs.Job.FirstSeen

/- The edges of a job against what its tasks say of themselves. An edge is found field by field and
   registry entry by registry entry, a list of parents by names alone; through the registry both are
   the same relation. -/
namespace MigrationPlan
open Text

namespace Field

theorem relationship_none {f : Field} (alone : f.referenceTarget? = none) :
    f.relationship? = none := by
  rw [relationship?, alone]
  rfl

theorem relationship_some {f : Field} {target : String}
    (refers : f.referenceTarget? = some target) :
    ∃ kind, f.relationship? = some kind := by
  rw [relationship?, refers]
  exact ⟨_, rfl⟩

end Field

namespace Task

def targets (t : Task) (kind : RelationshipKind) : List String :=
  (t.describedFields.filter fun f => f.relationship? = some kind).filterMap Field.referenceTarget?

theorem parents_firstSeen (t : Task) (kind : RelationshipKind) :
    FirstSeen sameName (t.targets kind) (t.parents kind) := FirstSeen.of_sameName _

theorem mem_targets {t : Task} {kind : RelationshipKind} {target : String} :
    target ∈ t.targets kind ↔
      ∃ f ∈ t.describedFields, f.relationship? = some kind ∧ f.referenceTarget? = some target := by
  simp [targets, and_assoc]

theorem describedFields_unconfigured {t : Task} (stage : t.stage = .unconfigured) :
    t.describedFields = [] := by
  simp [describedFields, schemas, work, stage, Stage.work, Schemas.source?]

theorem hasParents_iff (t : Task) : t.hasParents = true ↔ ∃ kind, t.parents kind ≠ [] := by
  have nonempty : ∀ kind, t.parents kind ≠ [] ↔ ∃ target, target ∈ t.targets kind := by
    intro kind
    rw [← List.length_pos_iff_exists_mem, List.length_pos_iff]
    exact not_congr (t.parents_firstSeen kind).nil_iff
  simp only [nonempty, hasParents, List.any_eq_true, Option.isSome_iff_exists, mem_targets]
  constructor
  · rintro ⟨f, member, kind, related⟩
    cases refers : f.referenceTarget? with
    | none =>
      rw [Field.relationship_none refers] at related
      cases related
    | some target => exact ⟨kind, target, f, member, related, refers⟩
  · rintro ⟨kind, _, f, member, related, _⟩
    exact ⟨f, member, kind, related⟩

end Task

namespace Job

theorem mem_healthyTasks {j : Job} {t : Task} :
    t ∈ j.healthyTasks ↔ ∃ i, j.tasks[i]? = some t ∧ j.hasFailed i = false := by
  simp only [healthyTasks, List.mem_map, List.mem_filter, List.mem_mapIdx, Bool.not_eq_true']
  constructor
  · rintro ⟨_, ⟨⟨i, inside, rfl⟩, healthy⟩, rfl⟩
    exact ⟨i, List.getElem?_eq_getElem inside, healthy⟩
  · rintro ⟨i, task, healthy⟩
    obtain ⟨inside, value⟩ := List.getElem?_eq_some_iff.mp task
    exact ⟨(i, t), ⟨⟨i, inside, by rw [value]⟩, healthy⟩, rfl⟩

theorem healthyTasks_flatMap {β : Type} (j : Job) (g : Task → List β) :
    j.healthyTasks.flatMap g = (j.tasks.mapIdx fun i t => if j.hasFailed i then []
      else g t).flatten := by
  have each : ∀ (l : List Task) (failed : Nat → Bool),
      (((l.mapIdx fun i t => (i, t)).filter fun p => !failed p.1).map Prod.snd).flatMap g =
        (l.mapIdx fun i t => if failed i then [] else g t).flatten := by
    intro l
    induction l with
    | nil => exact fun failed => rfl
    | cons t l ih =>
      intro failed
      have rest := ih fun i => failed (i + 1)
      have shifted : (l.mapIdx fun i t => (i + 1, t)) = (l.mapIdx fun i t => (i, t)).map fun p =>
          (p.1 + 1, p.2) := by
        apply List.ext_getElem?
        intro n
        simp [Function.comp_def]
      rw [List.mapIdx_cons, List.mapIdx_cons, shifted, List.flatten_cons, ← rest, List.filter_cons,
        List.filter_map]
      cases failed 0 <;> simp [Function.comp_def]
  exact each j.tasks j.hasFailed

section Registered
variable {j : Job} (sound : Sound j)

theorem task_congr (j : Job) {a b : String} (same : sameName a b = true) :
    j.task? a = j.task? b := by
  rw [task?, task?, j.registry.indexOf_congr ((sameName_iff a b).mp same)]

include sound

theorem task_object {name : String} {t : Task} (found : j.task? name = some t) :
    sameName t.object name = true := by
  obtain ⟨i, known, at_⟩ := Option.bind_eq_some_iff.mp found
  obtain ⟨u, at_', _, object⟩ := sound.registered known
  rw [at_] at at_'
  exact Option.some.inj at_' ▸ object

theorem task_of_contains {name : String} (known : j.registry.contains name = true) :
    ∃ t, j.task? name = some t := by
  obtain ⟨i, found⟩ := Option.isSome_iff_exists.mp known
  obtain ⟨t, at_, _⟩ := sound.registered found
  exact ⟨t, by rw [task?, found]; exact at_⟩

end Registered

/-! The edges of one task. -/

def edgeTo? (j : Job) (t : Task) (kind : RelationshipKind) (target : String) : Option Edge :=
  (j.task? target).bind fun parent =>
    if sameName parent.object t.object then none
    else some { child := t.object, parent := parent.object, kind }

theorem edge_eq (j : Job) (t : Task) (f : Field) :
    j.edge? t f = f.relationship?.bind fun kind => f.referenceTarget?.bind (j.edgeTo? t kind) := by
  unfold edge? parentTask? edgeTo?
  cases f.relationship? with
  | none => rfl
  | some kind =>
    cases f.referenceTarget? with
    | none => rfl
    | some target => rfl

theorem edgeTo_some {j : Job} {t : Task} {kind : RelationshipKind} {target : String} {e : Edge} :
    j.edgeTo? t kind target = some e ↔
      ∃ parent, j.task? target = some parent ∧ sameName parent.object t.object = false ∧
        e = { child := t.object, parent := parent.object, kind } := by
  unfold edgeTo?
  rw [Option.bind_eq_some_iff]
  refine exists_congr fun parent => and_congr_right fun _ => ?_
  cases sameName parent.object t.object <;> simp [eq_comm]

theorem edge_some {j : Job} {t : Task} {f : Field} {e : Edge} :
    j.edge? t f = some e ↔
      ∃ kind target, f.relationship? = some kind ∧ f.referenceTarget? = some target ∧
        j.edgeTo? t kind target = some e := by
  rw [edge_eq, Option.bind_eq_some_iff]
  refine exists_congr fun kind => ?_
  rw [Option.bind_eq_some_iff]
  simp only [exists_and_left]

def edgesOf (j : Job) (t : Task) : List Edge := t.describedFields.filterMap (j.edge? t)

theorem mem_edges {j : Job} {e : Edge} :
    e ∈ j.edges ↔ ∃ t ∈ j.healthyTasks, ∃ f ∈ t.describedFields, j.edge? t f = some e := by
  simp only [edges, List.mem_eraseDups, List.mem_flatMap, List.mem_filterMap]

theorem filter_edge (j : Job) (t : Task) (kind : RelationshipKind) (fields : List Field) :
    (fields.filterMap (j.edge? t)).filter (fun e => e.kind = kind) =
      ((fields.filter fun f => f.relationship? = some kind).filterMap
        Field.referenceTarget?).filterMap (j.edgeTo? t kind) := by
  induction fields with
  | nil => rfl
  | cons f fields ih =>
    cases refers : f.referenceTarget? with
    | none =>
      have none := Field.relationship_none refers
      have noEdge : j.edge? t f = .none := by rw [edge_eq, none]; rfl
      rw [List.filterMap_cons_none noEdge, List.filter_cons_of_neg (by simp [none]), ih]
    | some target =>
      obtain ⟨kind', related⟩ := Field.relationship_some refers
      have edge : j.edge? t f = j.edgeTo? t kind' target := by rw [edge_eq, related, refers]; rfl
      by_cases same : kind' = kind
      · subst same
        rw [List.filter_cons_of_pos (by simp [related]), List.filterMap_cons_some refers]
        cases found : j.edgeTo? t kind' target with
        | none =>
          rw [List.filterMap_cons_none (edge.trans found), List.filterMap_cons_none found, ih]
        | some e =>
          obtain ⟨_, _, _, rfl⟩ := edgeTo_some.mp found
          rw [List.filterMap_cons_some (edge.trans found), List.filterMap_cons_some found,
            List.filter_cons_of_pos (by simp), ih]
      · rw [List.filter_cons_of_neg (by simp [related, same])]
        cases found : j.edgeTo? t kind' target with
        | none => rw [List.filterMap_cons_none (edge.trans found), ih]
        | some e =>
          obtain ⟨_, _, _, rfl⟩ := edgeTo_some.mp found
          rw [List.filterMap_cons_some (edge.trans found),
            List.filter_cons_of_neg (by simp [same]), ih]

theorem edge_child {j : Job} {t : Task} {e : Edge} (member : e ∈ j.edgesOf t) :
    e.child = t.object := by
  obtain ⟨f, _, found⟩ := List.mem_filterMap.mp member
  obtain ⟨kind, target, _, _, leads⟩ := edge_some.mp found
  obtain ⟨_, _, _, rfl⟩ := edgeTo_some.mp leads
  rfl

theorem edgesOf_own (j : Job) (t : Task) (kind : RelationshipKind) :
    (j.edgesOf t).filter (fun e => e.child = t.object ∧ e.kind = kind) =
      (t.targets kind).filterMap (j.edgeTo? t kind) := by
  rw [Task.targets, ← filter_edge]
  refine List.filter_congr fun e member => ?_
  simp [edge_child member]

section Edges
variable {j : Job} (sound : Sound j)
include sound

/-- No other healthy task has the object of a task that the registry names. -/
theorem edgesOf_other {i n : Nat} {t u : Task} (known : j.registry.indexOf? t.object = some i)
    (task : j.tasks[n]? = some u) (healthy : j.hasFailed n = false) (other : n ≠ i)
    (kind : RelationshipKind) :
    (j.edgesOf u).filter (fun e => e.child = t.object ∧ e.kind = kind) = [] := by
  by_cases stage : u.stage = .unconfigured
  · rw [edgesOf, Task.describedFields_unconfigured stage]
    rfl
  · refine List.filter_eq_nil_iff.mpr fun e member => ?_
    have index := sound.healthy task healthy stage
    have apart : e.child ≠ t.object := by
      rw [edge_child member]
      intro same
      rw [same, known] at index
      exact other (Option.some.inj index).symm
    simp [apart]

theorem edges_from {i : Nat} {t : Task} (task : j.tasks[i]? = some t)
    (healthy : j.hasFailed i = false)
    (known : j.registry.indexOf? t.object = some i) (kind : RelationshipKind) :
    (j.healthyTasks.flatMap j.edgesOf).filter (fun e => e.child = t.object ∧ e.kind = kind) =
      (t.targets kind).filterMap (j.edgeTo? t kind) := by
  have each :
      (j.tasks.mapIdx fun n u => if j.hasFailed n then [] else j.edgesOf u).map
          (List.filter fun e => e.child = t.object ∧ e.kind = kind) =
        j.tasks.mapIdx fun n u =>
          if n = i then (j.edgesOf u).filter (fun e => e.child = t.object ∧ e.kind = kind)
          else [] := by
    apply List.ext_getElem?
    intro n
    rw [List.getElem?_map, List.getElem?_mapIdx, List.getElem?_mapIdx, Option.map_map]
    cases task' : j.tasks[n]? with
    | none => rfl
    | some u =>
      by_cases here : n = i
      · simp [here, healthy]
      · cases failed : j.hasFailed n with
        | true => simp [here]
        | false => simpa [here, failed] using edgesOf_other sound known task' failed here kind
  rw [healthyTasks_flatMap, List.filter_flatten, each, flatten_at, task]
  exact edgesOf_own j t kind

/-- The edges of a kind from a task are those to the parents that it lists. -/
theorem edges_filter {i : Nat} {t : Task} (task : j.tasks[i]? = some t)
    (healthy : j.hasFailed i = false)
    (known : j.registry.indexOf? t.object = some i) (kind : RelationshipKind) :
    j.edges.filter (fun e => e.child = t.object ∧ e.kind = kind) =
      (t.parents kind).filterMap (j.edgeTo? t kind) := by
  have listed : FirstSeen (· == ·) ((t.targets kind).filterMap (j.edgeTo? t kind))
      ((t.parents kind).filterMap (j.edgeTo? t kind)) := by
    refine (t.parents_firstSeen kind).filterMap (fun a b same => ?_) fun a b e first second => ?_
    · rw [edgeTo?, edgeTo?, j.task_congr same]
    · -- one edge has one parent, and its task has the object of either name
      obtain ⟨p, atA, _, rfl⟩ := edgeTo_some.mp first
      obtain ⟨q, atB, _, eq⟩ := edgeTo_some.mp second
      have same : p.object = q.object := congrArg Edge.parent eq
      have objectA := (sameName_iff _ _).mp (task_object sound atA)
      have objectB := (sameName_iff _ _).mp (task_object sound atB)
      rw [sameName_iff, ← objectA, ← objectB, same]
  have found := (FirstSeen.of_eraseDups (j.healthyTasks.flatMap j.edgesOf)).filter
    fun e => e.child = t.object ∧ e.kind = kind
  rw [edges_from sound task healthy known] at found
  exact found.unique listed

omit sound in
theorem edgeTo_parents (j : Job) (t : Task) (kind : RelationshipKind) (l : List String) :
    (l.filterMap (j.edgeTo? t kind)).map Edge.parent =
      ((l.filterMap j.task?).map Task.object).filter fun object => !sameName object t.object := by
  induction l with
  | nil => rfl
  | cons target l ih =>
    cases found : j.task? target with
    | none =>
      have none : j.edgeTo? t kind target = .none := by rw [edgeTo?, found]; rfl
      rw [List.filterMap_cons_none none, List.filterMap_cons_none found, ih]
    | some parent =>
      rw [List.filterMap_cons_some found, List.map_cons]
      cases itself : sameName parent.object t.object with
      | true =>
        have none : j.edgeTo? t kind target = .none := by simp [edgeTo?, found, itself]
        rw [List.filterMap_cons_none none, List.filter_cons_of_neg (by simp [itself]), ih]
      | false =>
        have edge :
            j.edgeTo? t kind target = some { child := t.object, parent := parent.object, kind } :=
          edgeTo_some.mpr ⟨parent, found, itself, rfl⟩
        rw [List.filterMap_cons_some edge, List.filter_cons_of_pos (by simp [itself]),
          List.map_cons, ih]

theorem edges_registered {e : Edge} (member : e ∈ j.edges) :
    ∃ i t, j.tasks[i]? = some t ∧ j.hasFailed i = false ∧ j.registry.indexOf? t.object = some i ∧
      e.child = t.object := by
  obtain ⟨t, inHealthy, f, inFields, found⟩ := mem_edges.mp member
  obtain ⟨i, task, healthy⟩ := mem_healthyTasks.mp inHealthy
  have stage : t.stage ≠ .unconfigured := by
    intro none
    rw [Task.describedFields_unconfigured none] at inFields
    cases inFields
  exact ⟨i, t, task, healthy, sound.healthy task healthy stage,
    edge_child (List.mem_filterMap.mpr ⟨f, inFields, found⟩)⟩

theorem hasChildren_iff {object : String} {p : Task} (found : j.task? object = some p) :
    j.hasChildren object = true ↔ ∃ e ∈ j.edges, e.parent = p.object := by
  have named := (sameName_iff _ _).mp (task_object sound found)
  simp only [hasChildren, List.any_eq_true, List.mem_filter, Bool.not_eq_true']
  constructor
  · rintro ⟨t, ⟨inHealthy, other⟩, references⟩
    simp only [Task.references, List.any_eq_true, Option.any_eq_true] at references
    obtain ⟨f, inFields, target, refers, same⟩ := references
    obtain ⟨kind, related⟩ := Field.relationship_some refers
    have apart : sameName p.object t.object = false := by
      rw [← Bool.not_eq_true, sameName_iff, named, eq_comm, ← sameName_iff, other]
      simp
    have leads : j.edgeTo? t kind target = some { child := t.object, parent := p.object, kind } :=
      edgeTo_some.mpr ⟨p, by rw [j.task_congr same, found], apart, rfl⟩
    exact ⟨_, mem_edges.mpr ⟨t, inHealthy, f, inFields,
      edge_some.mpr ⟨kind, target, related, refers, leads⟩⟩, rfl⟩
  · rintro ⟨e, member, parent⟩
    obtain ⟨t, inHealthy, f, inFields, edge⟩ := mem_edges.mp member
    obtain ⟨kind, target, _, refers, leads⟩ := edge_some.mp edge
    obtain ⟨q, found', apart, rfl⟩ := edgeTo_some.mp leads
    have same : q.object = p.object := parent
    refine ⟨t, ⟨inHealthy, ?_⟩, ?_⟩
    · rw [← Bool.not_eq_true, sameName_iff, ← named, ← same, eq_comm, ← sameName_iff, apart]
      simp
    · simp only [Task.references, List.any_eq_true, Option.any_eq_true]
      refine ⟨f, inFields, target, refers, ?_⟩
      have named' := (sameName_iff _ _).mp (task_object sound found')
      rw [sameName_iff, ← named', same, named]

end Edges

/-- In every state that calls lead to, the edges of a job, its lists of parents and its flags say
    the same. -/
theorem edges_agree {c : Config} {j : Job} (valid : ofConfig c = .ok j) (calls : List Call) :
    let k := j.run calls
    k.edges.Nodup ∧
      (∀ i t kind, k.tasks[i]? = some t → k.hasFailed i = false →
        k.registry.indexOf? t.object = some i →
        (k.edges.filter fun e => e.child = t.object ∧ e.kind = kind).map Edge.parent =
          (((t.parents kind).filterMap k.task?).map Task.object).filter fun object =>
            !sameName object t.object) ∧
      (∀ e ∈ k.edges, ∃ i t, k.tasks[i]? = some t ∧ k.hasFailed i = false ∧
        k.registry.indexOf? t.object = some i ∧ e.child = t.object) ∧
      (∀ object, k.registry.contains object = true → ∃ t, k.task? object = some t ∧
        (k.hasChildren object = true ↔ ∃ e ∈ k.edges, e.parent = t.object)) ∧
      ∀ object t, k.task? object = some t →
        (t.hasParents = true ↔ ∃ kind, t.parents kind ≠ []) ∧
          ∀ kind, FirstSeen sameName (t.targets kind) (t.parents kind) := by
  intro k
  have sound : Sound k := run_sound valid calls
  refine ⟨?_, ?_, ?_, ?_, ?_⟩
  · exact (FirstSeen.of_eraseDups _).nodup
  · intro i t kind task healthy known
    rw [edges_filter sound task healthy known, edgeTo_parents]
  · intro e member
    exact edges_registered sound member
  · intro object known
    obtain ⟨t, found⟩ := task_of_contains sound known
    exact ⟨t, found, hasChildren_iff sound found⟩
  · intro object t _
    exact ⟨t.hasParents_iff, t.parents_firstSeen⟩

/-- Contacts refer to accounts twice, in two spellings, and to users, who are not among the
    tasks. -/
def contactsOfAccounts : Config :=
  { source := {}
    target := {}
    requests :=
      [{ query := "SELECT Name, ParentId FROM Account" },
        { query := "SELECT AccountId, OwnerId, BillingId FROM Contact" }] }

def contactsJob : Job :=
  { config := contactsOfAccounts,
    tasks := contactsOfAccounts.requests.map fun request => { request } }

def accountFields : List Field :=
  [.ofType "Id" .id, .ofType "Name" .string, (Field.ofType "ParentId" .string).lookupTo "Account",
    (Field.ofType "AccountId" .string).lookupTo "ACCOUNT",
    (Field.ofType "OwnerId" .string).lookupTo "User",
    (Field.ofType "BillingId" .string).lookupTo "account"]

def accountSystems : Systems :=
  let system : System :=
    { name := "org", describe := fun object => .ok ((Snapshot.ofName object).addAll accountFields) }
  ⟨system, system⟩

theorem edges_agree_contacts :
    ofConfig contactsOfAccounts = .ok contactsJob ∧
      (let k := contactsJob.run [.prepare accountSystems]
       (k.edges.filter fun e => e.child = "Contact" ∧ e.kind = .lookup).map Edge.parent =
         ["Account"] ∧
         ∃ t, k.task? "account" = some t ∧
           (k.hasChildren "account" = true ↔ ∃ e ∈ k.edges, e.parent = t.object)) := by
  have valid : ofConfig contactsOfAccounts = .ok contactsJob := by
    have checked : contactsOfAccounts.validate = .ok () := by decide +kernel
    unfold ofConfig
    rw [checked]
    rfl
  obtain ⟨_, parents, _, children, _⟩ := edges_agree valid [.prepare accountSystems]
  generalize reached : contactsJob.run [.prepare accountSystems] = k at parents children
  have facts :
      k.tasks[1]?.map (fun t => (t.object, t.parents .lookup)) =
        some ("Contact", ["ACCOUNT", "User"]) ∧
      k.hasFailed 1 = false ∧ k.registry.indexOf? "Contact" = some 1 ∧
        k.registry.contains "account" = true ∧
      ((["ACCOUNT", "User"].filterMap k.task?).map Task.object).filter (fun object =>
        !sameName object "Contact") =
        ["Account"] := by
    rw [← reached]
    decide +kernel
  obtain ⟨task, healthy, known, account, listed⟩ := facts
  refine ⟨valid, ?_, children "account" account⟩
  obtain ⟨t, at_, facts⟩ := Option.map_eq_some_iff.mp task
  obtain ⟨object, names⟩ := Prod.mk.inj facts
  have agree := parents 1 t .lookup at_ healthy (by rw [object]; exact known)
  rw [object, names, listed] at agree
  exact agree

end Job

end MigrationPlan
