import MigrationPlan.Proofs.Task.Attempts
import MigrationPlan.Proofs.Task.Setup

/- The fields that a task shows belong to the object of the task: a snapshot is marked with the
   object that it was fetched for before anything is read from it. -/
namespace MigrationPlan

def Snapshot.OwnedBy (s : Snapshot) (object : String) : Prop :=
  ∀ f ∈ s.fields, f.owner = some object

theorem Snapshot.ownedBy_ownedBy (s : Snapshot) (object : String) :
    (s.ownedBy object).OwnedBy object := by
  intro f member
  obtain ⟨g, _, rfl⟩ := List.mem_map.mp member
  rfl

namespace Work
variable {c : Context} {systems : Systems} {unchecked : Bool} {side : Side}
  {counterpart : Option Snapshot} {v w : Work}

def Owned (w : Work) : Prop := ∀ s, w.schemas.source? = some s → s.OwnedBy w.brief.object

theorem Owned.kept (h : w.Owned) (brief : v.brief = w.brief)
    (schemas : v.schemas = w.schemas) : v.Owned := by
  intro s stored
  rw [brief]
  exact h s (schemas ▸ stored)

theorem Owned.take (h : w.Owned) : (w.take c systems unchecked side counterpart).state.Owned :=
  h.kept (take_brief w c systems unchecked side counterpart)
    (take_schemas c systems unchecked side counterpart w)

theorem take_ownedBy {s : Snapshot}
    (ok : (w.take c systems unchecked side counterpart).result = .ok s) :
    s.OwnedBy w.brief.object := by
  obtain ⟨answer, _, rfl⟩ := fetch_eq_ok.mp (take_eq_ok ok).1
  exact answer.ownedBy_ownedBy w.brief.object

theorem Owned.store {schemas : Schemas} {s : Snapshot} (first : schemas.source? = some s)
    (owned : s.OwnedBy w.brief.object) : ({ w with schemas } : Work).Owned := by
  intro t stored
  have same : s = t := Option.some.inj (first.symm.trans stored)
  exact same ▸ owned

theorem Owned.describe (h : w.Owned) : (w.describe c systems unchecked).state.Owned := by
  -- what is stored in the end was fetched for the brief's object, and no step changes the brief
  have stored : ∀ {side counterpart s} {schemas : Schemas}, schemas.source? = some s →
      (w.take c systems unchecked side counterpart).result = .ok s →
        ({ (w.take c systems unchecked side counterpart).state with schemas } : Work).Owned := by
    intro side counterpart s schemas first ok
    refine Owned.store first ?_
    rw [take_brief]
    exact take_ownedBy ok
  unfold Work.describe
  cases c.source.isDescribable <;> cases c.target.isDescribable
  · exact h
  · exact Outcome.andThen_keeps h.take fun s ok => stored rfl ok
  · exact Outcome.andThen_keeps h.take fun s ok => stored rfl ok
  · apply Outcome.andThen_keeps h.take
    intro s ok
    have between :
        Work.Owned
          { (w.take c systems unchecked .source none).state with schemas := .sourceOnly s } :=
      stored rfl ok
    apply Outcome.andThen_keeps between.take
    intro t _
    have first : (Schemas.pair s t).source? = some s := rfl
    refine Owned.store first ?_
    rw [take_brief]
    exact between s rfl

theorem owned_kept (r : Request) : Task.Kept r Owned where
  setUp c w made := by
    obtain ⟨x, operation, configuredId, _, _, _, rfl⟩ := Request.setUp_eq_ok.mp made
    intro s stored
    cases stored
  describe c systems w h := h.describe

end Work

namespace Task

theorem describedFields_owner {t : Task} (owned : t.work.Owned) {f : Field}
    (described : f ∈ t.describedFields) :
    f.owner = some t.object := by
  unfold describedFields at described
  cases stored : t.schemas.source? with
  | none => simp [stored] at described
  | some s =>
    simp only [stored] at described
    obtain ⟨name, _, found⟩ := List.mem_filterMap.mp described
    exact owned s stored f (List.mem_of_find?_eq_some found)

theorem run_owned (r : Request) (calls : List Call) : (run { request := r } calls).work.Owned := by
  have knows := run_keeps (t := { request := r }) (Work.owned_kept r) trivial calls
  by_cases stage : (run { request := r } calls).stage = .unconfigured
  · intro s stored
    rw [work, stage] at stored
    cases stored
  · exact knows.work stage

end Task

end MigrationPlan
