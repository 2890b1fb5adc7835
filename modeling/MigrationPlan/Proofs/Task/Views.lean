import Mathlib.Data.List.Induction
import MigrationPlan.Proofs.Task.Attempts
import MigrationPlan.Proofs.Task.Selection

/- What can be seen of a task before it is described. The views read the source snapshot, and an
   attempt that settles the query by the source and fails on the target leaves that snapshot behind:
   nothing is to be seen as long as no attempt has come so far, and something is from then on. -/
namespace MigrationPlan
open Text SelectList

namespace Work

theorem PassesSource.hasRecordId {c : Context} {systems : Systems} {w : Work} {s : Snapshot}
    (passes : w.PassesSource c systems false s) (h : w.brief.WellSelected w.query.entries)
    (ordinary : isSpecialObject w.brief.object = false) : s.hasField recordId = true := by
  obtain ⟨kept, warnings, valid, _⟩ := settle_ok c false .source none passes.settled
  have expanded := h.expanded c s none
  rw [validateSelection_checked _ expanded.nodup expanded.ne_nil
    (by simp [ValidationScope.isChecked, ordinary])] at valid
  cases missing :
    missingCritical? w.brief.critical (w.brief.expanded c w.query.entries s none) s with
  | some name =>
    rw [missing] at valid
    cases valid
  | none =>
    have first : .plain recordId ∈ w.brief.expanded c w.query.entries s none :=
      List.mem_of_mem_head? expanded.recordIdFirst
    exact missingCritical_none.mp missing recordId first w.brief.recordId_critical

/-- The invariant behind the views: a snapshot that is left behind has the record id, where fields
    are checked. -/
structure KeepsRecordId (r : Request) (w : Work) : Prop where
  formed : w.WellFormed r
  recordId : ∀ s, w.schemas = .sourceOnly s → r.isExtraObject = false →
    isSpecialObject w.brief.object = false →
    s.hasField recordId = true

theorem keepsRecordId_kept (r : Request) : Task.Kept r (KeepsRecordId r) where
  setUp c w made := by
    have formed := (wellFormed_kept r).setUp c w made
    obtain ⟨x, operation, configuredId, _, _, _, rfl⟩ := Request.setUp_eq_ok.mp made
    exact ⟨formed, fun s left => by cases left⟩
  describe c systems w h := by
    have formed := (wellFormed_kept r).describe c systems w h.formed
    have brief := describe_brief w c systems r.isExtraObject
    refine ⟨formed, fun s left checked ordinary => ?_⟩
    rw [brief] at ordinary
    cases result : (w.describe c systems r.isExtraObject).result with
    | ok u => exact absurd left (describe_whole result s)
    | error f =>
      by_cases behind : c.isTwoSided = true ∧ ∃ t, w.PassesSource c systems r.isExtraObject t
      · obtain ⟨both, t, passes⟩ := behind
        rw [describe_behind both passes result] at left
        cases left
        rw [checked] at passes
        exact passes.hasRecordId h.formed.selection ordinary
      · have short := describe_short (fun both t passes => behind ⟨both, t, passes⟩) result
        exact h.recordId s (short ▸ left) checked ordinary

end Work

namespace Task

structure HasNoViews (t : Task) : Prop where
  describedFields : t.describedFields = []
  fieldMap : t.fieldMap.isEmpty = true
  parents : ∀ kind, t.parents kind = []
  hasParents : t.hasParents = false
  references : ∀ object, t.references object = false

theorem isEmpty_fieldMap (t : Task) : t.fieldMap.isEmpty = t.describedFields.isEmpty := by
  rw [fieldMap, Std.HashMap.isEmpty_ofList, List.isEmpty_map]

theorem hasNoViews_iff (t : Task) : t.HasNoViews ↔ t.describedFields = [] := by
  constructor
  · exact HasNoViews.describedFields
  · intro none
    exact
      { describedFields := none
        fieldMap := by rw [isEmpty_fieldMap, none]; rfl
        parents := fun kind => by rw [parents, none]; rfl
        hasParents := by rw [hasParents, none]; rfl
        references := fun object => by rw [references, none]; rfl }

/-- An attempt at both sides that settles the query by the source, whose snapshot it is, and then
    fails. -/
inductive StopsBehindSource (t : Task) : Call → Snapshot → Prop where
  | describe (c : Context) (systems : Systems) (w : Work) (s : Snapshot)
      (stage : t.stage = .configured w)
      (both : c.isTwoSided = true) (passes : w.PassesSource c systems t.request.isExtraObject s)
      (fails : (t.describe c systems).isOk = false) : StopsBehindSource t (.describe c systems) s

def HasStopped (t : Task) (calls : List Call) (s : Snapshot) : Prop :=
  ∃ before call after, calls = before ++ call :: after ∧ (t.run before).StopsBehindSource call s

theorem not_hasStopped_nil (t : Task) (s : Snapshot) : ¬ t.HasStopped [] s := by
  rintro ⟨before, call, after, split, _⟩
  simp at split

theorem hasStopped_concat (t : Task) (calls : List Call) (call : Call) (s : Snapshot) :
    t.HasStopped (calls ++ [call]) s ↔
      t.HasStopped calls s ∨ (t.run calls).StopsBehindSource call s := by
  constructor
  · rintro ⟨before, stopping, after, split, stops⟩
    rcases List.eq_nil_or_concat after with rfl | ⟨after, last, rfl⟩
    · obtain ⟨rfl, same⟩ := List.append_inj' split rfl
      simp only [List.cons.injEq, and_true] at same
      exact Or.inr (same ▸ stops)
    · rw [List.concat_eq_append, ← List.cons_append, ← List.append_assoc] at split
      obtain ⟨rfl, _⟩ := List.append_inj' split rfl
      exact Or.inl ⟨before, stopping, after, rfl, stops⟩
  · rintro (⟨before, stopping, after, rfl, stops⟩ | stops)
    · exact ⟨before, stopping, after ++ [call], by simp, stops⟩
    · exact ⟨calls, call, [], rfl, stops⟩

theorem describe_schemas {t : Task} {w : Work} {f : Fault} (c : Context) (systems : Systems)
    (stage : t.stage = .configured w)
    (error : (w.describe c systems t.request.isExtraObject).result = .error f) :
    (∃ s, t.StopsBehindSource (.describe c systems) s ∧
      (t.describe c systems).state.schemas = .sourceOnly s) ∨
      (∀ s, ¬ t.StopsBehindSource (.describe c systems) s) ∧
        (t.describe c systems).state.schemas = t.schemas := by
  obtain ⟨state, result⟩ := Task.describe_error stage error
  have fails := Outcome.isOk_error result
  have schemas :
      (t.describe c systems).state.schemas =
        (w.describe c systems t.request.isExtraObject).state.schemas := by
    rw [state]
    rfl
  rw [schemas]
  by_cases behind : c.isTwoSided = true ∧ ∃ s, w.PassesSource c systems t.request.isExtraObject s
  · obtain ⟨both, s, passes⟩ := behind
    exact Or.inl ⟨s, .describe c systems w s stage both passes fails,
      Work.describe_behind both passes error⟩
  · refine Or.inr ⟨fun s stops => ?_, ?_⟩
    · cases stops with
      | describe _ _ v s configured both passes _ =>
        rw [stage] at configured
        cases configured
        exact behind ⟨both, s, passes⟩
    · rw [Work.describe_short (fun both s passes => behind ⟨both, s, passes⟩) error,
        Task.schemas, work, stage]
      rfl

theorem call_schemas {t : Task} {call : Call} (waiting : (t.call call).progress ≠ .described) :
    (∃ s, t.StopsBehindSource call s ∧ (t.call call).schemas = .sourceOnly s) ∨
      (∀ s, ¬ t.StopsBehindSource call s) ∧ (t.call call).schemas = t.schemas := by
  cases call with
  | setUp c =>
    refine Or.inr ⟨fun s stops => (by cases stops), ?_⟩
    cases stage : t.stage with
    | unconfigured =>
      cases made : t.request.setUp c with
      | error f => exact congrArg Task.schemas (setUp_error c stage made).1
      | ok w =>
        obtain ⟨x, operation, configuredId, _, _, _, rfl⟩ := Request.setUp_eq_ok.mp made
        have state : (t.call (.setUp c)).schemas = .none :=
          congrArg Task.schemas (setUp_ok c stage made).1
        rw [state, Task.schemas, work, stage]
        rfl
    | configured w => exact congrArg Task.schemas (setUp_of_work c (by simp [stage])).1
    | described w => exact congrArg Task.schemas (setUp_of_work c (by simp [stage])).1
  | describe c systems =>
    cases stage : t.stage with
    | unconfigured =>
      refine Or.inr ⟨fun s stops => ?_,
        congrArg Task.schemas (describe_unconfigured c systems stage)⟩
      cases stops with
      | describe _ _ w s configured _ _ _ =>
        rw [stage] at configured
        cases configured
    | described w =>
      refine absurd ?_ waiting
      rw [call, (describe_described c systems stage).1, progress, stage]
      rfl
    | configured w =>
      cases result : (w.describe c systems t.request.isExtraObject).result with
      | error f => exact describe_schemas c systems stage result
      | ok u =>
        refine absurd ?_ waiting
        rw [call, (describe_ok stage result).1]
        rfl

theorem progress_before {t : Task} {call : Call} (waiting : (t.call call).progress ≠ .described) :
    t.progress ≠ .described := by
  intro described
  cases stage : t.stage with
  | unconfigured => simp [progress, stage, Stage.progress] at described
  | configured w => simp [progress, stage, Stage.progress] at described
  | described w =>
    apply waiting
    cases call with
    | setUp c => rw [call, (setUp_of_work c (by simp [stage])).1, described]
    | describe c systems => rw [call, (describe_described c systems stage).1, described]

theorem run_schemas (r : Request) (calls : List Call)
    (waiting : (run { request := r } calls).progress ≠ .described) :
    (∃ s, HasStopped { request := r } calls s ∧
      (run { request := r } calls).schemas = .sourceOnly s) ∨
      (∀ s, ¬ HasStopped { request := r } calls s) ∧
        (run { request := r } calls).schemas = .none := by
  induction calls using List.reverseRecOn with
  | nil => exact Or.inr ⟨not_hasStopped_nil _, rfl⟩
  | append_singleton calls call ih =>
    rw [run_append] at waiting ⊢
    simp only [hasStopped_concat]
    rcases call_schemas waiting with ⟨s, stops, left⟩ | ⟨none, same⟩
    · exact Or.inl ⟨s, Or.inr stops, left⟩
    · have schemas :
          (run (run { request := r } calls) [call]).schemas =
            (run { request := r } calls).schemas := same
      rw [schemas]
      rcases ih (progress_before waiting) with ⟨s, stopped, left⟩ | ⟨never, nothing⟩
      · exact Or.inl ⟨s, Or.inl stopped, left⟩
      · exact Or.inr ⟨fun s stops => stops.elim (never s) (none s), nothing⟩

theorem hasNoViews_of_schemas {t : Task} (none : t.schemas = .none) : t.HasNoViews := by
  rw [hasNoViews_iff, describedFields, none]
  rfl

theorem recordId_described {t : Task} {s : Snapshot} (left : t.schemas = .sourceOnly s)
    (first : t.query.entries.head? = some (.plain recordId))
    (present : s.hasField recordId = true) :
    ∃ f ∈ t.describedFields, sameName f.name recordId = true := by
  rw [s.hasField_eq_isSome, Option.isSome_iff_exists] at present
  obtain ⟨f, found⟩ := present
  refine ⟨f, ?_, (Snapshot.field_found found).2⟩
  rw [describedFields, left]
  exact List.mem_filterMap.mpr ⟨recordId, mem_plainNames.mpr (List.mem_of_mem_head? first), found⟩

/-- Until a task is described, nothing is to be seen of it unless an attempt stopped behind the
    source. From then on the views are those of the snapshot of such an attempt, and where fields
    are checked the record id is seen. -/
theorem views_until_described (r : Request) (calls : List Call)
    (waiting : (run { request := r } calls).progress ≠ .described) :
    let t := run { request := r } calls
    ((∀ s, ¬ HasStopped { request := r } calls s) → t.HasNoViews) ∧
      ((∃ s, HasStopped { request := r } calls s) →
        ∃ s, HasStopped { request := r } calls s ∧ t.schemas = .sourceOnly s ∧
          (r.isExtraObject = false → isSpecialObject t.object = false →
            ∃ f ∈ t.describedFields, sameName f.name recordId = true)) := by
  intro t
  rcases run_schemas r calls waiting with ⟨s, stopped, left⟩ | ⟨never, nothing⟩
  · refine ⟨fun none => absurd stopped (none s),
      fun _ => ⟨s, stopped, left, fun checked ordinary => ?_⟩⟩
    have knows := run_keeps (t := { request := r }) (Work.keepsRecordId_kept r) trivial calls
    have kept : t.work.KeepsRecordId r := by
      rw [work]
      cases stage : t.stage with
      | unconfigured =>
        have none : t.schemas = .none := by rw [Task.schemas, work, stage]; rfl
        rw [none] at left
        cases left
      | configured w => rwa [stage] at knows
      | described w => rwa [stage] at knows
    exact recordId_described left kept.formed.selection.recordIdFirst
      (kept.recordId s left checked ordinary)
  · exact ⟨fun _ => hasNoViews_of_schemas nothing, fun ⟨s, stopped⟩ => absurd stopped (never s)⟩

def contactsOfAccounts : Request := { query := "SELECT LastName, AccountId FROM Contact" }

def contactSchema : Snapshot where
  name := "Contact"
  label := "Contact"
  fields :=
    [.ofType "Id" .id, .ofType "LastName" .string,
      (Field.ofType "AccountId" .id).lookupTo "Account"]
  nodup := by decide +kernel

def targetDown : Systems :=
  { source := { name := "old", describe := fun _ => .ok contactSchema }
    target :=
      { name := "new", describe := fun _ => .error (.describe (.reported "session expired")) } }

def stoppedCalls : List Call := [.setUp betweenOrgs, .describe betweenOrgs targetDown]

def contactsOfAccountsWork : Work :=
  { brief := { object := "Contact" }
    query :=
      { object := "Contact"
        entries := [.plain "Id", .plain "LastName", .plain "AccountId", .plain "IsPersonAccount"] }
    queryText := "SELECT Id, LastName, AccountId, IsPersonAccount FROM Contact" }

def stoppedTask : Task :=
  { request := contactsOfAccounts
    stage := .configured
      { brief := { object := "Contact" }
        query :=
          { object := "Contact", entries := [.plain "Id", .plain "LastName", .plain "AccountId"] }
        queryText := "SELECT Id, LastName, AccountId FROM Contact"
        schemas := .sourceOnly (contactSchema.ownedBy "Contact")
        warnings := [{ object := "Contact", field := "IsPersonAccount", side := .source }] } }

theorem contactsOfAccounts_setUp : run { request := contactsOfAccounts } [.setUp betweenOrgs] =
    { request := contactsOfAccounts, stage := .configured contactsOfAccountsWork } := by
      decide +kernel

theorem run_stoppedCalls : run { request := contactsOfAccounts } stoppedCalls = stoppedTask := by
  decide +kernel

theorem contactsOfAccounts_stopped :
    HasStopped
      { request := contactsOfAccounts } stoppedCalls (contactSchema.ownedBy "Contact") := by
  refine ⟨[.setUp betweenOrgs], .describe betweenOrgs targetDown, [], rfl, ?_⟩
  rw [contactsOfAccounts_setUp]
  refine .describe betweenOrgs targetDown contactsOfAccountsWork _ rfl rfl ⟨rfl, ?_⟩ ?_
  · decide +kernel
  · decide +kernel

theorem views_until_described_contacts :
    (run { request := contactsOfAccounts } stoppedCalls).progress ≠ .described ∧
      ∃ f ∈ (run { request := contactsOfAccounts } stoppedCalls).describedFields,
        sameName f.name recordId = true := by
  have waiting : (run { request := contactsOfAccounts } stoppedCalls).progress ≠ .described := by
    rw [run_stoppedCalls]
    decide
  have ordinary :
      isSpecialObject (run { request := contactsOfAccounts } stoppedCalls).object = false := by
    rw [run_stoppedCalls]
    decide +kernel
  obtain ⟨s, _, _, seen⟩ :=
    (views_until_described contactsOfAccounts stoppedCalls waiting).2 ⟨_,
      contactsOfAccounts_stopped⟩
  exact ⟨waiting, seen rfl ordinary⟩

/-- A task that is not described shows fields, a parent and references. -/
theorem views_before_description :
    let t := run { request := contactsOfAccounts } stoppedCalls
    t.progress = .configured ∧ t.describedFields.map Field.name = ["Id", "LastName", "AccountId"] ∧
      t.fieldMap.isEmpty = false ∧ t.parents .lookup = ["Account"] ∧ t.hasParents = true ∧
      t.references "Account" = true := by
  rw [run_stoppedCalls]
  refine ⟨rfl, ?_, ?_, ?_, ?_, ?_⟩
  · decide +kernel
  · rw [isEmpty_fieldMap]
    decide +kernel
  · decide +kernel
  · decide +kernel
  · decide +kernel

end Task

end MigrationPlan
