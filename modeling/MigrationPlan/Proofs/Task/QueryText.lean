import MigrationPlan.Proofs.Task.Attempts
import MigrationPlan.Proofs.Task.Lifecycle

/- The text of a task's query. A step that fails may leave the text behind the query; the steps that
   succeed write it anew. -/
namespace MigrationPlan

namespace Work
variable {c : Context} {systems : Systems} {unchecked : Bool} {w : Work}

theorem take_text {side : Side} {counterpart : Option Snapshot} {s : Snapshot}
    (ok : (w.take c systems unchecked side counterpart).result = .ok s) :
    (w.take c systems unchecked side counterpart).state.queryText =
      (w.take c systems unchecked side counterpart).state.query.compose := by
  obtain ⟨_, settled, state⟩ := take_eq_ok ok
  obtain ⟨kept, warnings, _, composed⟩ := settle_ok c unchecked side counterpart settled
  rw [state, composed]

theorem describe_text (ok : (w.describe c systems unchecked).result = .ok ()) :
    (w.describe c systems unchecked).state.queryText =
      (w.describe c systems unchecked).state.query.compose := by
  obtain ⟨v, side, counterpart, schemas, _, _, same⟩ := describe_last (w := w) (describe_asks ok)
  obtain ⟨s, taken, state⟩ := keep_ok (same.result.symm.trans ok)
  rw [same.state, state]
  exact take_text taken

end Work

namespace Task

def TextComposed (t : Task) : Prop := t.progress ≠ .unconfigured → t.queryText = t.query.compose

theorem setUp_composed (c : Context) (t : Task) (before : t.TextComposed)
    (ok : (t.setUp c).isOk = true) :
    (t.setUp c).state.TextComposed := by
  cases stage : t.stage with
  | unconfigured =>
    cases made : t.request.setUp c with
    | error f =>
      rw [Outcome.isOk_error (setUp_error c stage made).2] at ok
      cases ok
    | ok w =>
      obtain ⟨x, operation, configuredId, _, _, _, rfl⟩ := Request.setUp_eq_ok.mp made
      rw [(setUp_ok c stage made).1]
      intro _
      rfl
  | configured w => rwa [(setUp_of_work c (t := t) (by simp [stage])).1]
  | described w => rwa [(setUp_of_work c (t := t) (by simp [stage])).1]

theorem describe_composed (c : Context) (systems : Systems) (t : Task) (before : t.TextComposed)
    (ok : (t.describe c systems).isOk = true) : (t.describe c systems).state.TextComposed := by
  cases stage : t.stage with
  | unconfigured => rwa [describe_unconfigured c systems stage]
  | described w => rwa [(describe_described c systems stage).1]
  | configured w =>
    obtain ⟨succeeded, described⟩ := describe_succeeded stage ok
    intro _
    rw [queryText, query, described]
    exact Work.describe_text succeeded

end Task

end MigrationPlan
