import MigrationPlan.Proofs.Selection.Expansion
import MigrationPlan.Selection.Validation

/- Validation of a list whose names are distinct: dropping by name drops exactly the plain names
   that the snapshot lacks, and no entry that records are matched by. -/
namespace MigrationPlan
open Text SelectList

/-- Whether the snapshot has no reason to drop an entry: only plain names are looked up. -/
def Snapshot.keeps (s : Snapshot) (e : Entry) : Bool := e.plainName?.all s.hasField

theorem Entry.eq_plain_of_plainName {e : Entry} {name : String} (plain : e.plainName? = some name) :
    e = .plain name := by
  cases e <;> simp_all [Entry.plainName?]

theorem mem_plainNames {l : List Entry} {name : String} :
    name ∈ l.filterMap Entry.plainName? ↔ .plain name ∈ l := by
  rw [List.mem_filterMap]
  constructor
  · rintro ⟨e, member, plain⟩
    exact Entry.eq_plain_of_plainName plain ▸ member
  · intro member
    exact ⟨_, member, rfl⟩

theorem mem_missingNames {l : List Entry} {s : Snapshot} {name : String} :
    name ∈ missingNames l s ↔ .plain name ∈ l ∧ s.hasField name = false := by
  rw [missingNames, List.mem_filter, mem_plainNames, Bool.not_eq_true']

theorem dropNamed_missing {l : List Entry} (nodup : (names l).Nodup) (s : Snapshot) :
    dropNamed (missingNames l s) l = l.filter s.keeps := by
  apply List.filter_congr
  intro e member
  rw [Bool.eq_iff_iff, Bool.not_eq_true', ← Bool.not_eq_true, List.any_eq_true]
  constructor
  · intro kept
    cases plain : e.plainName? with
    | none => simp [Snapshot.keeps, plain]
    | some name =>
      have entry := Entry.eq_plain_of_plainName plain
      subst e
      by_cases present : s.hasField name = true
      · simp [Snapshot.keeps, Entry.plainName?, present]
      · refine absurd ⟨name, mem_missingNames.mpr ⟨member, by simpa using present⟩, ?_⟩ kept
        exact sameName_self _
  · rintro keeps ⟨name, missing, named⟩
    obtain ⟨inList, absent⟩ := mem_missingNames.mp missing
    have entry : e = .plain name := entry_unique nodup member inList ((sameName_iff _ _).mp named)
    simp [entry, Snapshot.keeps, Entry.plainName?, absent] at keeps

theorem selects_kept (l : List Entry) {s : Snapshot} {name : String}
    (present : s.hasField name = true) :
    selects (l.filter s.keeps) name = selects l name := by
  rw [Bool.eq_iff_iff, selects_iff, selects_iff]
  refine ⟨fun h => (List.filter_sublist.map _).mem h, fun h => ?_⟩
  obtain ⟨e, member, key⟩ := mem_names.mp h
  refine mem_names.mpr ⟨e, List.mem_filter.mpr ⟨member, ?_⟩, key⟩
  cases e with
  | plain n =>
    rw [Snapshot.hasField_iff] at present
    simpa [Snapshot.keeps, Entry.plainName?, Snapshot.hasField_iff] using key ▸ present
  | path _ => rfl
  | composite _ => rfl
  | expression _ => rfl

theorem missingNames_kept (l : List Entry) (s : Snapshot) :
    missingNames (l.filter s.keeps) s = [] := by
  rw [missingNames, List.filter_eq_nil_iff]
  intro name member
  have kept := (List.mem_filter.mp (mem_plainNames.mp member)).2
  simpa [Snapshot.keeps, Entry.plainName?] using kept

def missingCritical? (critical : NameSet) (l : List Entry) (s : Snapshot) : Option String :=
  (l.filterMap Entry.plainName?).find? fun name => critical.contains name && !s.hasField name

theorem find_missingNames (critical : NameSet) (l : List Entry) (s : Snapshot) :
    (missingNames l s).find? critical.contains = missingCritical? critical l s := by
  rw [missingNames, missingCritical?, List.find?_filter]
  congr 1
  funext name
  cases critical.contains name <;> simp

theorem missingCritical_none {critical : NameSet} {l : List Entry} {s : Snapshot} :
    missingCritical? critical l s = none ↔
      ∀ name, .plain name ∈ l → critical.contains name = true → s.hasField name = true := by
  simp only [missingCritical?, List.find?_eq_none, mem_plainNames, Bool.and_eq_true,
    Bool.not_eq_true', not_and, Bool.not_eq_false]

def warningsOf (object : String) (side : Side) (l : List Entry) (s : Snapshot) : List Warning :=
  (missingNames l s).map fun field => { object, field, side }

section Validate
variable {l kept : List Entry} {s : Snapshot} {scope : ValidationScope} {warnings : List Warning}

theorem validateSelection_checked (scope : ValidationScope) (nodup : (names l).Nodup)
    (nonempty : l ≠ []) (checked : scope.isChecked = true) :
    validateSelection l s scope =
      match missingCritical? scope.critical l s with
      | some name => .error (scope.missing name)
      | none => .ok (l.filter s.keeps, warningsOf scope.object scope.side l s) := by
  unfold validateSelection
  rw [if_neg (by simpa using nonempty), if_neg (by simp [checked])]
  simp only [dropNamed_missing nodup, find_missingNames]
  rfl

/-- What a successful validation leaves: everything where fields are not checked, and else what the
    snapshot keeps, all critical plain names being there. -/
theorem validateSelection_ok (nodup : (names l).Nodup)
    (ok : validateSelection l s scope = .ok (kept, warnings)) :
    kept = l ∨ kept = l.filter s.keeps ∧ missingCritical? scope.critical l s = none := by
  by_cases empty : l = []
  · simp [validateSelection, empty] at ok
  · by_cases checked : scope.isChecked = true
    · rw [validateSelection_checked scope nodup empty checked] at ok
      cases found : missingCritical? scope.critical l s with
      | some name => simp [found] at ok
      | none =>
        simp only [found, Except.ok.injEq, Prod.mk.injEq] at ok
        exact Or.inr ⟨ok.1.symm, rfl⟩
    · simp only [validateSelection, List.isEmpty_iff, empty, ↓reduceIte, checked, Bool.not_false,
        Except.ok.injEq, Prod.mk.injEq] at ok
      exact Or.inl ok.1.symm

theorem validateSelection_complete (scope : ValidationScope) (nonempty : l ≠ [])
    (complete : missingNames l s = []) :
    validateSelection l s scope = .ok (l, []) := by
  have all : dropNamed [] l = l := by simp [dropNamed]
  simp [validateSelection, nonempty, complete, all]

/-- A list that was validated is valid by the same snapshot, and nothing more is to be reported of
    it. -/
theorem validateSelection_again (nodup : (names l).Nodup)
    (ok : validateSelection l s scope = .ok (kept, warnings))
    (nonempty : kept ≠ []) (scope' : ValidationScope) (same : scope'.isChecked = scope.isChecked) :
    validateSelection kept s scope' = .ok (kept, []) := by
  cases checked : scope.isChecked with
  | false => simp [validateSelection, nonempty, same, checked]
  | true =>
    have filled : l ≠ [] := by
      intro empty
      simp [validateSelection, empty] at ok
    rw [validateSelection_checked scope nodup filled checked] at ok
    cases missing : missingCritical? scope.critical l s with
    | some name => simp [missing] at ok
    | none =>
      simp only [missing, Except.ok.injEq, Prod.mk.injEq] at ok
      exact validateSelection_complete scope' nonempty (ok.1 ▸ missingNames_kept l s)

theorem validateSelection_sublist (nodup : (names l).Nodup)
    (ok : validateSelection l s scope = .ok (kept, warnings)) : kept.Sublist l := by
  rcases validateSelection_ok nodup ok with rfl | ⟨rfl, _⟩
  · exact List.Sublist.refl _
  · exact List.filter_sublist

theorem keeps_critical (complete : missingCritical? scope.critical l s = none) {e : Entry}
    (member : e ∈ l) (critical : scope.critical.contains e.key = true) : s.keeps e = true := by
  cases plain : e.plainName? with
  | none => simp [Snapshot.keeps, plain]
  | some name =>
    have entry := Entry.eq_plain_of_plainName plain
    subst e
    simpa [Snapshot.keeps, Entry.plainName?] using missingCritical_none.mp complete name
      member critical

theorem critical_stays (nodup : (names l).Nodup)
    (ok : validateSelection l s scope = .ok (kept, warnings))
    {e : Entry} (member : e ∈ l) (critical : scope.critical.contains e.key = true) : e ∈ kept := by
  rcases validateSelection_ok nodup ok with rfl | ⟨rfl, complete⟩
  · exact member
  · exact List.mem_filter.mpr ⟨member, keeps_critical complete member critical⟩

end Validate

end MigrationPlan
