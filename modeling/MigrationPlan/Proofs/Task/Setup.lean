import MigrationPlan.Proofs.Selection.SelectList
import MigrationPlan.Task.Setup

/- What a successful set-up has read and made, and which names a brief holds by its external ids. -/
namespace MigrationPlan
open Text

namespace Brief

/-- Whether records cannot be matched without the name: the record id and what the external id is
    made of. -/
def IsCritical (b : Brief) (name : String) : Prop :=
  sameName name recordId = true ∨ ∃ e ∈ b.externalId.required, sameName e.key name = true

/-- Whether exclusions spare the name: critical names and those of the external id as configured. -/
def IsMandatory (b : Brief) (name : String) : Prop :=
  b.IsCritical name ∨ ∃ e ∈ b.configuredId.required, sameName e.key name = true

theorem contains_recordId (name : String) :
    (NameSet.ofList [recordId]).contains name = true ↔ sameName name recordId = true := by
  have names : (NameSet.ofList [recordId]).names = [fold recordId] := by decide +kernel
  rw [NameSet.contains_iff, names, sameName_iff, List.mem_singleton]

theorem exists_keysOf {l : List Entry} {P : String → Prop} :
    (∃ a ∈ keysOf l, P a) ↔ ∃ e ∈ l, P e.key := by
  simp only [keysOf, List.mem_map]
  constructor
  · rintro ⟨_, ⟨e, member, rfl⟩, h⟩
    exact ⟨e, member, h⟩
  · rintro ⟨e, member, h⟩
    exact ⟨_, ⟨e, member, rfl⟩, h⟩

theorem contains_critical (b : Brief) (name : String) :
    b.critical.contains name = true ↔ b.IsCritical name := by
  rw [critical, NameSet.contains_insertAll, contains_recordId, exists_keysOf, IsCritical]

theorem contains_mandatory (b : Brief) (name : String) :
    b.mandatory.contains name = true ↔ b.IsMandatory name := by
  rw [mandatory, NameSet.contains_insertAll, contains_critical, exists_keysOf, IsMandatory]

theorem critical_mandatory {b : Brief} {name : String}
    (critical : b.critical.contains name = true) :
    b.mandatory.contains name = true :=
  (b.contains_mandatory name).mpr (Or.inl ((b.contains_critical name).mp critical))

theorem recordId_critical (b : Brief) : b.critical.contains recordId = true :=
  (b.contains_critical _).mpr (Or.inl (sameName_self _))

theorem required_critical {b : Brief} {e : Entry} (member : e ∈ b.externalId.required) :
    b.critical.contains e.key = true :=
  (b.contains_critical _).mpr (Or.inr ⟨e, member, sameName_self _⟩)

end Brief

namespace Request

def workOf (r : Request) (c : Context) (x : Resolution) (operation : Operation)
    (configuredId : ExternalId) : Work :=
  let b := r.brief x operation configuredId
  let query := { x.query with entries := b.selection c x.query.entries }
  { brief := b, query, queryText := query.compose }

theorem setUp_bind (r : Request) (c : Context) :
    r.setUp c =
      (Resolution.ofText r.query).bind fun x =>
        (r.operation.operationFor x.query.object).bind fun operation =>
        (r.configuredId x.query.object operation).bind fun configuredId =>
          .ok (r.workOf c x operation configuredId) :=
  rfl

theorem setUp_eq_ok {r : Request} {c : Context} {w : Work} :
    r.setUp c = .ok w ↔
      ∃ x operation configuredId, Resolution.ofText r.query = .ok x ∧
        r.operation.operationFor x.query.object = .ok operation ∧
        r.configuredId x.query.object operation = .ok configuredId ∧
        r.workOf c x operation configuredId = w := by
  unfold setUp
  cases resolved : Resolution.ofText r.query with
  | error f => simp [bind, Except.bind]
  | ok x =>
    cases meant : r.operation.operationFor x.query.object with
    | error f => simp [bind, Except.bind, meant]
    | ok operation =>
      cases named : r.configuredId x.query.object operation with
      | error f => simp [bind, Except.bind, meant, named]
      | ok configuredId => simp [bind, Except.bind, pure, Except.pure, meant, named, workOf]

end Request

namespace Resolution

theorem ofText_eq_ok {s : String} {x : Resolution} :
    ofText s = .ok x ↔ ∃ q, Query.parse s = .ok q ∧ ofQuery q = x := by
  unfold ofText
  cases Query.parse s with
  | error e => simp
  | ok q => simp

theorem head_resolved (l : List Entry) : (resolved l).head? = some (.plain recordId) :=
  SelectList.head_distinct _ _

end Resolution

end MigrationPlan
