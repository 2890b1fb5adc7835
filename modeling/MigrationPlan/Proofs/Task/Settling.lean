import MigrationPlan.Proofs.Task.Attempts
import MigrationPlan.Proofs.Task.Selection

/- Settling a query by a snapshot that it is settled by already. All that the snapshot could add is
   selected, and all that it lacks is gone, so that nothing changes: whatever the side, and whatever
   the counterpart. -/
namespace MigrationPlan
open Text SelectList

namespace Brief.WellSelected
variable {b : Brief} {l kept : List Entry} {s : Snapshot} {scope : ValidationScope}
  {warnings : List Warning}

theorem selects_expanded (h : b.WellSelected l) (c : Context)
    (keeps : b.operation ≠ .delete) {f : Field}
    {counterpart : Option Snapshot} (member : f ∈ s.fields)
    (matched : b.pattern.any (·.isMatch f) = true)
    (admitted : (b.rules c).admits counterpart f = true) :
    selects (b.expanded c l s none) f.name = true := by
  rw [h.expanded_eq, selects_iff, names_append, List.mem_append]
  by_cases old : fold f.name ∈ names l
  · exact Or.inl old
  · have joins : f ∈ b.joining c l s none := by
      simp only [Brief.joining, beq_iff_eq, keeps, ↓reduceIte]
      refine mem_joiningFields.mpr ⟨member, matched, old, ?_⟩
      -- without a counterpart no field is refused for it
      simp only [ExpansionRules.admits, Bool.and_eq_true] at admitted ⊢
      exact ⟨admitted.1, rfl⟩
    exact Or.inr (key_mem_names (mem_plainEntries.mpr ⟨f, joins, rfl⟩))

theorem joining_again (h : b.WellSelected l) (c : Context)
    (ok : validateSelection (b.expanded c l s none) s scope = .ok (kept, warnings))
    (counterpart : Option Snapshot) :
    b.joining c kept s counterpart = [] := by
  by_cases deletes : b.operation = .delete
  · simp [Brief.joining, deletes]
  · simp only [Brief.joining, beq_iff_eq, deletes, ↓reduceIte]
    rw [List.eq_nil_iff_forall_not_mem]
    intro f joins
    obtain ⟨member, matched, fresh, admitted⟩ := mem_joiningFields.mp joins
    have selected := h.selects_expanded c deletes member matched admitted
    rcases validateSelection_ok (h.expanded c s none).nodup ok with rfl | ⟨rfl, _⟩
    · exact fresh ((selects_iff _ _).mp selected)
    · rw [← selects_kept _ (Snapshot.hasField_of_mem member)] at selected
      exact fresh ((selects_iff _ _).mp selected)

end Brief.WellSelected

namespace Work
variable {c : Context} {unchecked : Bool} {side : Side} {w : Work} {s : Snapshot}

/-- What was settled by a snapshot is settled by it: a second time changes nothing and reports
    nothing. -/
theorem settle_again (h : w.brief.WellSelected w.query.entries)
    (ok : (w.settle c unchecked side s none).result = .ok ()) (schemas : Schemas) (side' : Side)
    (counterpart : Option Snapshot) :
    let v := { (w.settle c unchecked side s none).state with schemas }
    (v.settle c unchecked side' s counterpart).state = v ∧
      (v.settle c unchecked side' s counterpart).result = .ok () := by
  obtain ⟨kept, warnings, valid, state⟩ := settle_ok c unchecked side none ok
  have wellKept : w.brief.WellSelected kept := (h.expanded c s none).validated rfl valid
  have expanded : w.brief.expanded c kept s counterpart = kept := by
    rw [wellKept.expanded_eq, h.joining_again c valid]
    exact List.append_nil kept
  have again := validateSelection_again (h.expanded c s none).nodup valid wellKept.ne_nil
    { object := w.brief.object, side := side', critical := w.brief.critical, unchecked } rfl
  rw [state]
  simp only [settle, expanded, again, List.append_nil, and_self]

end Work

end MigrationPlan
