import MigrationPlan.Proofs.Task.Denial
import MigrationPlan.Proofs.Task.Ownership

/- What a described task shows of its fields. Where fields are checked, the snapshot of each side
   has all plain names of the select list when a description ends, so that the views, which leave
   out what they do not find, leave out nothing. -/
namespace MigrationPlan
open Text SelectList

/-- The side whose answer a side has: its own, or that of the other side where it is one of flat
    files. -/
def Context.answering (c : Context) : Side → Side
  | .source => if c.source.isDescribable then .source else .target
  | .target => if c.target.isDescribable then .target else .source

def Query.plainNames (q : Query) : List String := q.entries.filterMap Entry.plainName?

theorem validateSelection_present {l kept : List Entry} {s : Snapshot} {scope : ValidationScope}
    {warnings : List Warning} (nodup : (names l).Nodup) (checked : scope.isChecked = true)
    (ok : validateSelection l s scope = .ok (kept, warnings)) : ∀ e ∈ kept, s.keeps e = true := by
  have nonempty : l ≠ [] := by
    rintro rfl
    simp [validateSelection] at ok
  rw [validateSelection_checked scope nodup nonempty checked] at ok
  cases missing : missingCritical? scope.critical l s with
  | some name => simp [missing] at ok
  | none =>
    simp only [missing, Except.ok.injEq, Prod.mk.injEq] at ok
    intro e member
    rw [← ok.1] at member
    exact (List.mem_filter.mp member).2

namespace Work
variable {c : Context} {systems : Systems} {v w : Work} {s u : Snapshot}

def Present (w : Work) (s : Snapshot) : Prop := ∀ e ∈ w.query.entries, s.keeps e = true

theorem settle_present {side : Side} {counterpart : Option Snapshot}
    (h : w.brief.WellSelected w.query.entries) (ordinary : isSpecialObject w.brief.object = false)
    (ok : (w.settle c false side s counterpart).result = .ok ()) :
    (w.settle c false side s counterpart).state.Present s := by
  obtain ⟨kept, warnings, valid, state⟩ := settle_ok c false side counterpart ok
  have checked :
      ({ object := w.brief.object, side,
         critical := w.brief.critical } : ValidationScope).isChecked = true := by
    simp [ValidationScope.isChecked, ordinary]
  rw [state]
  exact validateSelection_present (h.expanded c s counterpart).nodup checked valid

/-- What is present at the counterpart stays so: only fields that it has too are added. -/
theorem settle_counterpart {unchecked : Bool} {side : Side} (present : w.Present u) :
    (w.settle c unchecked side s (some u)).state.Present u := by
  intro e member
  rcases Brief.mem_expanded (mem_settled member) with old | ⟨f, joins, rfl⟩
  · exact present e old
  · have has := (Brief.mem_joining.mp joins).2.2.2.2
    simpa [Snapshot.keeps, Entry.plainName?] using has

theorem take_present {side : Side} {counterpart : Option Snapshot}
    (h : w.brief.WellSelected w.query.entries) (ordinary : isSpecialObject w.brief.object = false)
    (ok : (w.take c systems false side counterpart).result = .ok s) :
    w.fetch systems side = .ok s ∧ (w.take c systems false side counterpart).state.Present s := by
  obtain ⟨read, settled, state⟩ := take_eq_ok ok
  rw [state]
  exact ⟨read, settle_present h ordinary settled⟩

theorem describe_present (h : w.brief.WellSelected w.query.entries)
    (ordinary : isSpecialObject w.brief.object = false)
    (ok : (w.describe c systems false).result = .ok ()) :
    ∃ s u, w.fetch systems (c.answering .source) = .ok s ∧
      w.fetch systems (c.answering .target) = .ok u ∧
      (w.describe c systems false).state.schemas = (if c.isTwoSided then .pair s u else .shared s) ∧
      (w.describe c systems false).state.Present s ∧
        (w.describe c systems false).state.Present u := by
  unfold describe at ok ⊢
  cases source : c.source.isDescribable <;> cases target : c.target.isDescribable <;>
    simp only [Context.answering, Context.isTwoSided, source, target, Bool.false_eq_true,
      ↓reduceIte, Bool.and_false, Bool.and_true] at ok ⊢
  · cases ok
  · obtain ⟨s, taken, state⟩ := keep_ok ok
    obtain ⟨read, present⟩ := take_present h ordinary taken
    rw [state]
    exact ⟨s, s, read, read, rfl, present, present⟩
  · obtain ⟨s, taken, state⟩ := keep_ok ok
    obtain ⟨read, present⟩ := take_present h ordinary taken
    rw [state]
    exact ⟨s, s, read, read, rfl, present, present⟩
  · obtain ⟨s, taken, later, past⟩ := Outcome.andThen_eq_ok ok
    obtain ⟨u, taken', state⟩ := keep_ok later
    obtain ⟨read, settled, first⟩ := take_eq_ok taken
    have brief : (w.take c systems false .source none).state.brief = w.brief :=
      take_brief w c systems false .source none
    have selected := settle_wellSelected h c false .source s none
    have presentFirst := settle_present h ordinary settled
    rw [← first] at selected presentFirst
    obtain ⟨read', present⟩ := take_present (brief.symm ▸ selected) (brief.symm ▸ ordinary) taken'
    have second := (take_eq_ok taken').2.2
    rw [past, state]
    refine ⟨s, u, read, ?_, rfl, ?_, present⟩
    · rw [← read']
      exact (fetch_congr brief).symm
    · rw [second]
      exact settle_counterpart presentFirst

end Work

theorem plainNames_nodup {q : Query} (nodup : (names q.entries).Nodup) :
    (q.plainNames.map fold).Nodup := by
  have plain : q.plainNames.map fold = names (q.entries.filter fun e => e.plainName?.isSome) := by
    unfold Query.plainNames
    induction q.entries with
    | nil => rfl
    | cons e l ih =>
      cases e with
      | plain name => simpa [names, Entry.plainName?, Entry.key] using ih
      | path _ | composite _ | expression _ =>
        simpa [List.filterMap_cons, Entry.plainName?] using ih
  rw [plain]
  exact names_nodup_of_sublist List.filter_sublist nodup

theorem Snapshot.fields_found {s : Snapshot} {l : List String}
    (present : ∀ name ∈ l, s.hasField name = true) :
    List.Forall₂ (fun name f => f ∈ s.fields ∧ sameName f.name name = true) l
      (l.filterMap s.field?) := by
  induction l with
  | nil => exact .nil
  | cons name l ih =>
    have has := present name List.mem_cons_self
    rw [s.hasField_eq_isSome, Option.isSome_iff_exists] at has
    obtain ⟨f, found⟩ := has
    rw [List.filterMap_cons_some found]
    exact .cons (field_found found) (ih fun n member =>
      present n (List.mem_cons_of_mem name member))

theorem foldedNames_of_named {l : List String} {fields : List Field}
    (named : List.Forall₂ (fun name f => sameName f.name name = true) l fields) :
    foldedNames fields = l.map fold := by
  induction named with
  | nil => rfl
  | cons same _ ih =>
    rw [foldedNames, List.map_cons, List.map_cons, ← foldedNames, ih, (sameName_iff _ _).mp same]

namespace Task

theorem setUp_not_described {c : Context} {t : Task} (waiting : t.progress ≠ .described) :
    (t.setUp c).state.progress ≠ .described := by
  by_cases stage : t.stage = .unconfigured
  · rw [setUp_progress c stage]
    split <;> simp
  · rwa [(setUp_of_work c stage).1]

theorem run_described_by (r : Request) (calls : List Call)
    (described : (run { request := r } calls).progress = .described) :
    ∃ before c systems after w, calls = before ++ .describe c systems :: after ∧
      (run { request := r } before).stage = .configured w ∧
        (w.describe c systems r.isExtraObject).result = .ok () ∧
      run { request := r } calls =
        { request := r, stage := .described (w.describe c systems r.isExtraObject).state } := by
  induction calls using List.reverseRecOn with
  | nil => cases described
  | append_singleton calls call ih =>
    by_cases already : (run { request := r } calls).progress = .described
    · obtain ⟨before, c, systems, after, w, parts, stage, ok, same⟩ := ih already
      refine ⟨before, c, systems, after ++ [call], w, by simp [parts], stage, ok, ?_⟩
      rw [run_append, run_described already, same]
    · rw [run_append] at described ⊢
      cases call with
      | setUp c => exact absurd described (setUp_not_described already)
      | describe c systems =>
        have request : (run { request := r } calls).request = r := run_request _ calls
        cases stage : (run { request := r } calls).stage with
        | unconfigured =>
          have same := describe_unconfigured c systems stage
          exact absurd (same ▸ described) already
        | described w => exact absurd (progress_described.mpr ⟨w, stage⟩) already
        | configured w =>
          have succeeded : ((run { request := r } calls).describe c systems).isOk = true := by
            have progress := describe_progress c systems (run { request := r } calls)
            cases isOk : ((run { request := r } calls).describe c systems).isOk with
            | true => rfl
            | false =>
              rw [isOk] at progress
              exact absurd (progress.symm.trans described) already
          have ok := (describe_succeeded stage succeeded).1
          have state := (describe_ok stage ok).1
          rw [request] at ok state
          exact ⟨calls, c, systems, [], w, rfl, stage, ok, state⟩

/-- The views of a task leave nothing out: its plain names have a field each, which the source
    describes and the target has too. -/
structure CompleteViews (t : Task) (source target : Snapshot) : Prop where
  fields :
    List.Forall₂ (fun name f => f ∈ source.fields ∧ sameName f.name name = true ∧
      f.owner = some t.object)
    t.query.plainNames t.describedFields
  nodup : (foldedNames t.describedFields).Nodup
  size : t.fieldMap.size = t.query.plainNames.length
  bearing : ∀ name f, t.fieldMap[name]? = some f ↔ f ∈ t.describedFields ∧ f.name = name
  onTarget : ∀ name ∈ t.query.plainNames, target.hasField name = true

section FieldMap
variable {t : Task} (nodup : (foldedNames t.describedFields).Nodup)
include nodup

theorem keys_apart :
    (t.describedFields.map fun f => (f.name, f)).Pairwise fun a b => (a.1 == b.1) = false := by
  rw [List.pairwise_map]
  refine (List.pairwise_map.mp nodup).imp fun {f g} apart => ?_
  rw [beq_eq_false_iff_ne]
  exact fun same => apart (congrArg fold same)

theorem fieldMap_size : t.fieldMap.size = t.describedFields.length := by
  rw [fieldMap, Std.HashMap.size_ofList (keys_apart nodup), List.length_map]

theorem fieldMap_bearing (name : String) (f : Field) :
    t.fieldMap[name]? = some f ↔ f ∈ t.describedFields ∧ f.name = name := by
  have found : ∀ g ∈ t.describedFields, t.fieldMap[g.name]? = some g := fun g member =>
    Std.HashMap.getElem?_ofList_of_mem (beq_self_eq_true g.name) (keys_apart nodup)
      (List.mem_map.mpr ⟨g, member, rfl⟩)
  constructor
  · intro held
    by_cases borne : ∃ g ∈ t.describedFields, g.name = name
    · obtain ⟨g, member, rfl⟩ := borne
      obtain rfl : g = f := Option.some.inj ((found g member).symm.trans held)
      exact ⟨member, rfl⟩
    · have none : t.fieldMap[name]? = none := by
        refine Std.HashMap.getElem?_ofList_of_contains_eq_false ?_
        rw [List.map_map, ← Bool.not_eq_true, List.contains_iff_mem, List.mem_map]
        exact fun ⟨g, member, same⟩ => borne ⟨g, member, same⟩
      rw [none] at held
      cases held
  · rintro ⟨member, rfl⟩
    exact found f member

end FieldMap

theorem completeViews_of_present {t : Task} {source target : Snapshot}
    (selected : t.brief.WellSelected t.query.entries)
    (lookedUp : t.schemas.source? = some source) (owned : source.OwnedBy t.object)
    (onSource : t.work.Present source) (onTarget : t.work.Present target) :
    t.CompleteViews source target := by
  have has : ∀ {s : Snapshot}, t.work.Present s →
      ∀ name ∈ t.query.plainNames, s.hasField name = true := by
    intro s present name member
    simpa [Snapshot.keeps, Entry.plainName?] using present _ (mem_plainNames.mp member)
  have views : t.describedFields = t.query.plainNames.filterMap source.field? := by
    rw [describedFields, lookedUp]
    rfl
  have found := Snapshot.fields_found (has onSource)
  rw [← views] at found
  have folded := foldedNames_of_named (found.imp fun _ _ both => both.2)
  have nodup : (foldedNames t.describedFields).Nodup := folded ▸ plainNames_nodup selected.nodup
  exact
    { fields := found.imp fun _ _ both => ⟨both.1, both.2, owned _ both.1⟩
      nodup
      size := by rw [fieldMap_size nodup, found.length_eq]
      bearing := fieldMap_bearing nodup
      onTarget := has onTarget }

/-- A task that is described, by whatever calls, and whose fields are checked: the call that
    described it had an answer for each side, which is shared where a side is of flat files, and the
    views leave nothing of the query out. -/
theorem views_complete (r : Request) (calls : List Call)
    (described : (run { request := r } calls).progress = .described)
    (checked : r.isExtraObject = false)
    (ordinary : isSpecialObject (run { request := r } calls).object = false) :
    let t := run { request := r } calls
    ∃ before c systems after, calls = before ++ .describe c systems :: after ∧
      (run { request := r } before).progress = .configured ∧
      ∃ s u, (systems.on (c.answering .source)).describe t.object = .ok s ∧
        (systems.on (c.answering .target)).describe t.object = .ok u ∧
        t.schemas = (if c.isTwoSided then .pair (s.ownedBy t.object) (u.ownedBy t.object)
          else .shared (s.ownedBy t.object)) ∧
        t.CompleteViews (s.ownedBy t.object) (u.ownedBy t.object) := by
  intro t
  obtain ⟨before, c, systems, after, w, parts, stage, ok, state⟩ :=
    run_described_by r calls described
  have formed : w.WellFormed r := by
    have knows := run_keeps (t := { request := r }) (Work.wellFormed_kept r) trivial before
    rwa [stage] at knows
  have work : t.work = (w.describe c systems r.isExtraObject).state := congrArg Task.work state
  have brief : t.brief = w.brief := by rw [Task.brief, work, w.describe_brief]
  have selected : t.brief.WellSelected t.query.entries := by
    rw [Task.brief, Task.query, work]
    exact ((Work.wellFormed_kept r).describe c systems w formed).selection
  have object : t.object = w.brief.object := congrArg Brief.object brief
  rw [checked] at ok work
  obtain ⟨_, _, read, read', schemas, onSource, onTarget⟩ :=
    Work.describe_present formed.selection (object ▸ ordinary) ok
  obtain ⟨s, answer, rfl⟩ := Work.fetch_eq_ok.mp read
  obtain ⟨u, answer', rfl⟩ := Work.fetch_eq_ok.mp read'
  rw [← object] at answer answer' schemas onSource onTarget
  rw [← work] at schemas onSource onTarget
  have lookedUp : t.schemas.source? = some (s.ownedBy t.object) := by
    rw [Task.schemas, schemas]
    split <;> rfl
  refine ⟨before, c, systems, after, parts, progress_configured.mpr ⟨w, stage⟩,
    s, u, answer, answer', schemas, ?_⟩
  exact completeViews_of_present selected lookedUp (s.ownedBy_ownedBy t.object) onSource onTarget

def driftedCalls : List Call :=
  [.describe betweenOrgs driftedContacts, .setUp betweenOrgs, .describe betweenOrgs driftedContacts]

theorem views_complete_contacts :
    let t := run { request := contactsByName } driftedCalls
    t.progress = .described ∧ isSpecialObject t.object = false ∧
      t.query.plainNames = ["Id", "LastName", "Email"] ∧
      t.fieldMap.size = 3 ∧ ∃ source target, t.CompleteViews source target := by
  have described : (run { request := contactsByName } driftedCalls).progress = .described := by
    decide +kernel
  have ordinary :
      isSpecialObject (run { request := contactsByName } driftedCalls).object = false := by
        decide +kernel
  have names :
      (run { request := contactsByName } driftedCalls).query.plainNames =
        ["Id", "LastName", "Email"] := by
    decide +kernel
  obtain ⟨_, _, _, _, _, _, source, target, _, _, _, complete⟩ :=
    views_complete contactsByName driftedCalls described rfl ordinary
  have size := complete.size
  rw [names] at size
  exact ⟨described, ordinary, names, size, _, _, complete⟩

end Task

end MigrationPlan
