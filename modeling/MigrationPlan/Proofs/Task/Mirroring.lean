import MigrationPlan.Proofs.Task.Reconciliation
import MigrationPlan.Proofs.Task.Settling
import MigrationPlan.Proofs.Task.Views

/- One schema for both sides. Where a side of flat files mirrors the other, the query is settled
   once; where both sides answer with the same schema, it is settled twice, and the second time
   changes nothing. So the three ways to have the schema on both sides agree in all but the side
   that is named in warnings. -/
namespace MigrationPlan
open Text SelectList

def Warning.onSide (side : Side) (w : Warning) : Warning := { w with side }

/-- The side of a scope is only named: it decides neither success nor what is dropped. -/
theorem validateSelection_onSide (l : List Entry) (s : Snapshot)
    (scope : ValidationScope) (side : Side) :
    (validateSelection l s { scope with side }).toOption =
      (validateSelection l s scope).toOption.map fun p => (p.1, p.2.map (Warning.onSide side)) := by
  unfold validateSelection
  by_cases empty : l.isEmpty = true
  · simp [empty, Except.toOption]
  · simp only [empty, Bool.false_eq_true, ↓reduceIte]
    cases checked : scope.isChecked with
    | false =>
      have checked' : ({ scope with side } : ValidationScope).isChecked = false := checked
      simp [checked', Except.toOption]
    | true =>
      have checked' : ({ scope with side } : ValidationScope).isChecked = true := checked
      simp only [checked', Bool.not_true, Bool.false_eq_true, ↓reduceIte]
      cases (missingNames l s).find? scope.critical.contains with
      | some name => rfl
      | none => simp [Except.toOption, Warning.onSide]

namespace Work
variable {c : Context} {systems : Systems} {unchecked : Bool} {w : Work} {s : Snapshot}

theorem settle_onSide {side : Side} (fresh : w.warnings = [])
    (ok : (w.settle c unchecked side s none).result = .ok ()) (side' : Side) :
    (w.settle c unchecked side' s none).result = .ok () ∧
      (w.settle c unchecked side' s none).state =
        { (w.settle c unchecked side s none).state with
          warnings :=
            (w.settle c unchecked side s none).state.warnings.map (Warning.onSide side') } := by
  obtain ⟨kept, warnings, valid, state⟩ := settle_ok c unchecked side none ok
  have other := validateSelection_onSide (w.brief.expanded c w.query.entries s none) s
    { object := w.brief.object, side, critical := w.brief.critical, unchecked } side'
  rw [valid] at other
  have valid' : validateSelection (w.brief.expanded c w.query.entries s none) s
      { object := w.brief.object, side := side', critical := w.brief.critical, unchecked } =
        .ok (kept, warnings.map (Warning.onSide side')) := by
    generalize validateSelection _ _ _ = validated at other ⊢
    cases validated with
    | error f => cases other
    | ok p => exact congrArg _ (Option.some.inj other)
  obtain ⟨ok', state'⟩ := settle_valid c unchecked side' none valid'
  refine ⟨ok', ?_⟩
  rw [state', state, fresh]
  rfl

theorem settle_isOk (c : Context) (unchecked : Bool) (s : Snapshot) (fresh : w.warnings = [])
    (side side' : Side) :
    (w.settle c unchecked side' s none).isOk = (w.settle c unchecked side s none).isOk := by
  have carried : ∀ {a b : Side},
      (w.settle c unchecked a s none).isOk = true → (w.settle c unchecked b s none).isOk = true :=
    fun ok => Outcome.isOk_ok (settle_onSide fresh (Outcome.result_of_isOk ok) _).1
  rw [Bool.eq_iff_iff]
  exact ⟨carried, carried⟩

section Attempts
variable (c systems)

theorem describe_both (selected : w.brief.WellSelected w.query.entries) (both : c.isTwoSided = true)
    (source : w.fetch systems .source = .ok s) (target : w.fetch systems .target = .ok s) :
    (w.describe c systems unchecked).Same
      ((w.settle c unchecked .source s none).andThen fun v _ => v.keep (.pair s s)) := by
  obtain ⟨onSource, onTarget⟩ := Context.sides_of_isTwoSided both
  simp only [describe, onSource, onTarget]
  refine (take_read_andThen c systems unchecked .source none source _).trans
    (.andThen ⟨rfl, rfl⟩ fun _ settled => ?_)
  obtain ⟨again, ok⟩ := settle_again selected settled (.sourceOnly s) .target (some s)
  have read : (w.betweenSides c unchecked s).fetch systems .target = .ok s :=
    (fetch_congr (settle_brief w c unchecked .source s none)).trans target
  have finished :=
    (take_read_andThen c systems unchecked .target (some s) read fun v t =>
      v.keep (.pair s t)).trans
    (Outcome.andThen_same ok fun v _ => v.keep (.pair s s))
  rw [betweenSides, again] at finished
  exact finished

theorem describe_alone (side : Side) (alone : (c.medium side).isDescribable = true)
    (notBoth : c.isTwoSided = false)
    (fresh : w.schemas = .none) (read : w.fetch systems side = .ok s) :
    (w.describe c systems unchecked).Same
      ((w.settle c unchecked side s none).andThen fun v _ => v.keep (.shared s)) := by
  have taken : (w.describe c systems unchecked) =
      (w.take c systems unchecked side none).andThen fun v t => v.keep (.shared t) := by
    cases side with
    | source =>
      have onSource : c.source.isDescribable = true := alone
      have onTarget : c.target.isDescribable = false := by
        simpa [Context.isTwoSided, onSource] using notBoth
      simp only [describe, onSource, onTarget]
    | target =>
      have onTarget : c.target.isDescribable = true := alone
      have onSource : c.source.isDescribable = false := by
        simpa [Context.isTwoSided, onTarget] using notBoth
      simp only [describe, onSource, onTarget, fresh, Schemas.source?]
  rw [taken]
  exact take_read_andThen c systems unchecked side none read _

end Attempts

end Work

def Context.between (c : Context) (source target : Medium) : Context := { c with source, target }

namespace Task

/-- Two described tasks that agree in all but how they hold their snapshots and which side their
    warnings name. -/
structure Mirrors (t u : Task) : Prop where
  brief : t.brief = u.brief
  query : t.query = u.query
  queryText : t.queryText = u.queryText
  describedFields : t.describedFields = u.describedFields
  warnings :
    t.warnings.map (fun w => (w.object, w.field)) = u.warnings.map fun w => (w.object, w.field)

def settled (r : Request) (v : Work) (schemas : Schemas) (warnings : List Warning) : Task :=
  { request := r, stage := .described { v with schemas, warnings } }

theorem settled_mirrors (r : Request) (v : Work) {s : Snapshot} {schemas schemas' : Schemas}
    {warnings warnings' : List Warning} (source : schemas.source? = some s)
    (source' : schemas'.source? = some s)
    (same : warnings.map (fun w => (w.object, w.field)) =
      warnings'.map fun w => (w.object, w.field)) :
    (settled r v schemas warnings).Mirrors (settled r v schemas' warnings') where
  brief := rfl
  query := rfl
  queryText := rfl
  describedFields := by
    have held : (settled r v schemas warnings).schemas.source? = some s := source
    have held' : (settled r v schemas' warnings').schemas.source? = some s := source'
    rw [describedFields, describedFields, held, held']
    rfl
  warnings := same

theorem describe_settled {c : Context} {systems : Systems} {r : Request} {w : Work}
    {o : Outcome Work Unit} {schemas : Schemas}
    (same : (w.describe c systems r.isExtraObject).Same (o.andThen fun v _ => v.keep schemas)) :
    ((describe c systems { request := r, stage := .configured w }).isOk = o.isOk) ∧
      (o.isOk = true → (describe c systems { request := r, stage := .configured w }).state =
        settled r o.state schemas o.state.warnings) := by
  cases result : o.result with
  | error f =>
    obtain ⟨_, fails⟩ := Outcome.andThen_error result fun v _ => v.keep schemas
    obtain ⟨_, error⟩ :=
      describe_error (t := { request := r, stage := .configured w }) rfl (same.result.trans fails)
    rw [Outcome.isOk_error error, Outcome.isOk_error result]
    exact ⟨rfl, fun ok => by cases ok⟩
  | ok u =>
    obtain ⟨stored, ends⟩ := Outcome.andThen_ok result fun v _ => v.keep schemas
    obtain ⟨state, ok⟩ :=
      describe_ok (t := { request := r, stage := .configured w }) rfl (same.result.trans ends)
    rw [Outcome.isOk_ok ok, Outcome.isOk_ok result]
    refine ⟨rfl, fun _ => ?_⟩
    rw [state, same.state, stored]
    rfl

/-- A task that is set up is described with one schema for both sides: by both sides, by the source
    alone and by the target alone. All three fail, or all three succeed with the same query, texts,
    pattern and described fields and with warnings for the same fields; the snapshot is shared
    exactly where one side is of flat files. -/
theorem mirrored_description (r : Request) (c₀ c : Context) (w : Work) (s : Snapshot)
    (both onSource onTarget : Systems)
    (setUp : (Task.setUp c₀ { request := r }).state.stage = .configured w)
    (bothAnswer : both.source.describe w.brief.object = .ok s ∧
      both.target.describe w.brief.object = .ok s)
    (sourceAnswers : onSource.source.describe w.brief.object = .ok s)
    (targetAnswers : onTarget.target.describe w.brief.object = .ok s) :
    let t := (Task.setUp c₀ { request := r }).state
    let twice := t.describe (c.between .org .org) both
    let first := t.describe (c.between .org .csvFile) onSource
    let second := t.describe (c.between .csvFile .org) onTarget
    (first.isOk = twice.isOk ∧ second.isOk = twice.isOk) ∧
      (twice.isOk = true →
        (first.state.Mirrors twice.state ∧ second.state.Mirrors twice.state) ∧
          (twice.state.schemas.isShared = false ∧ first.state.schemas.isShared = true ∧
            second.state.schemas.isShared = true)) := by
  obtain ⟨state, made⟩ := configured_of_setUp setUp
  have selected : w.brief.WellSelected w.query.entries :=
    ((Work.wellFormed_kept r).setUp c₀ w made).selection
  obtain ⟨noSchemas, noWarnings⟩ : w.schemas = .none ∧ w.warnings = [] := by
    obtain ⟨x, operation, configuredId, _, _, _, rfl⟩ := Request.setUp_eq_ok.mp made
    exact ⟨rfl, rfl⟩
  have owned :
      ∀ {systems : Systems} {side : Side}, (systems.on side).describe w.brief.object = .ok s →
      w.fetch systems side = .ok (s.ownedBy w.brief.object) :=
        fun answers => Work.fetch_eq_ok.mpr ⟨s, answers, rfl⟩
  rw [state]
  generalize s.ownedBy w.brief.object = s' at owned
  -- every attempt comes down to one settling, on the source or on the target
  have twice :=
    describe_settled (r := r) (Work.describe_both (c.between .org .org) both selected rfl
    (owned bothAnswer.1) (owned bothAnswer.2))
  have first :=
    describe_settled (r := r)
      (Work.describe_alone (c.between .org .csvFile) onSource .source rfl rfl noSchemas
    (owned sourceAnswers))
  have second :=
    describe_settled (r := r)
      (Work.describe_alone (c.between .csvFile .org) onTarget .target rfl rfl noSchemas
    (owned targetAnswers))
  have sameContext :
      ∀ source target side, w.settle (c.between source target) r.isExtraObject side s' none =
      w.settle c r.isExtraObject side s' none := fun _ _ _ => rfl
  rw [sameContext] at twice first second
  have sides := Work.settle_isOk c r.isExtraObject s' noWarnings .source .target
  refine ⟨⟨first.1.trans twice.1.symm, second.1.trans (sides.trans twice.1.symm)⟩, fun ok => ?_⟩
  rw [twice.1] at ok
  rw [twice.2 ok, first.2 ok, second.2 (sides.trans ok)]
  have onTarget := (Work.settle_onSide noWarnings (Outcome.result_of_isOk ok) .target).2
  rw [onTarget]
  refine ⟨⟨settled_mirrors r _ rfl rfl rfl, settled_mirrors r _ rfl rfl ?_⟩, rfl, rfl, rfl⟩
  rw [List.map_map]
  rfl

def contactsOn (source target : Bool) : Systems :=
  let answer (up : Bool) : Except Fault Snapshot :=
    if up then .ok contactSchema else .error (.describe (.reported "session expired"))
  { source := { name := "old", describe := fun _ => answer source }
    target := { name := "new", describe := fun _ => answer target } }

theorem mirrored_description_contacts :
    let t := (Task.setUp betweenOrgs { request := contactsOfAccounts }).state
    let twice := t.describe (betweenOrgs.between .org .org) (contactsOn true true)
    let second := t.describe (betweenOrgs.between .csvFile .org) (contactsOn false true)
    twice.isOk = true ∧ second.isOk = true ∧ twice.state.warnings.map Warning.side = [.source] ∧
      second.state.warnings.map Warning.side = [.target] ∧ second.state.Mirrors twice.state := by
  obtain ⟨⟨_, second⟩, mirrored⟩ := mirrored_description contactsOfAccounts betweenOrgs betweenOrgs
    contactsOfAccountsWork contactSchema (contactsOn true true) (contactsOn true false)
      (contactsOn false true)
    (congrArg Task.stage contactsOfAccounts_setUp) ⟨rfl, rfl⟩ rfl rfl
  have ok : (((Task.setUp betweenOrgs { request := contactsOfAccounts }).state).describe
      (betweenOrgs.between .org .org) (contactsOn true true)).isOk = true := by decide +kernel
  exact ⟨ok, second.trans ok, by decide +kernel, by decide +kernel, (mirrored ok).1.2⟩

end Task

end MigrationPlan
