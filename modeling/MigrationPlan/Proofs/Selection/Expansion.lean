import MigrationPlan.Proofs.Selection.SelectList

/- Expansion of a list whose names are distinct and whose excluded entries are mandatory: the
   joining fields stand behind the list, and neither the exclusion nor the removal of repetitions
   takes anything away. -/
namespace MigrationPlan
open Text SelectList

theorem Snapshot.hasField_iff (s : Snapshot) (name : String) :
    s.hasField name = true ↔ fold name ∈ foldedNames s.fields := by
  simp [Snapshot.hasField, foldedNames, sameName_iff]

theorem Snapshot.hasField_eq_isSome (s : Snapshot) (name : String) :
    s.hasField name = (s.field? name).isSome := by
  rw [Bool.eq_iff_iff, hasField, field?, List.find?_isSome, List.any_eq_true]

theorem Snapshot.field_found {s : Snapshot} {name : String} {f : Field}
    (found : s.field? name = some f) :
    f ∈ s.fields ∧ sameName f.name name = true :=
  ⟨List.mem_of_find?_eq_some found, by simpa using List.find?_some found⟩

theorem Snapshot.hasField_of_mem {s : Snapshot} {f : Field} (member : f ∈ s.fields) :
    s.hasField f.name = true :=
  List.any_eq_true.mpr ⟨f, member, sameName_self _⟩

def plainEntries (fields : List Field) : List Entry := fields.map fun f => .plain f.name

theorem names_plainEntries (fields : List Field) :
    names (plainEntries fields) = foldedNames fields := by
  simp [names, plainEntries, foldedNames, Entry.key]

theorem mem_plainEntries {fields : List Field} {e : Entry} :
    e ∈ plainEntries fields ↔ ∃ f ∈ fields, .plain f.name = e := List.mem_map

theorem mem_joiningFields {l : List Entry} {pattern : Option Pattern} {snapshot : Snapshot}
    {counterpart : Option Snapshot} {rules : ExpansionRules} {f : Field} :
    f ∈ joiningFields l pattern snapshot counterpart rules ↔
      f ∈ snapshot.fields ∧ pattern.any (·.isMatch f) = true ∧ fold f.name ∉ names l ∧
        rules.admits counterpart f = true := by
  simp [joiningFields, selects_iff, ← Bool.not_eq_true, and_assoc]

section Expand
variable {l : List Entry} (pattern : Option Pattern) (snapshot : Snapshot)
  (counterpart : Option Snapshot) (rules : ExpansionRules)

theorem names_joining_nodup :
    (names (plainEntries (joiningFields l pattern snapshot counterpart rules))).Nodup := by
  rw [names_plainEntries]
  exact (List.filter_sublist.map _).nodup snapshot.nodup

theorem joining_fresh :
    ∀ e ∈ plainEntries (joiningFields l pattern snapshot counterpart rules),
      fold e.key ∉ names l := by
  intro e member
  obtain ⟨f, joins, rfl⟩ := mem_plainEntries.mp member
  exact (mem_joiningFields.mp joins).2.2.1

theorem joining_notExcluded :
    ∀ e ∈ plainEntries (joiningFields l pattern snapshot counterpart rules),
      rules.excluded.contains e.key = false := by
  intro e member
  obtain ⟨f, joins, rfl⟩ := mem_plainEntries.mp member
  have admitted := (mem_joiningFields.mp joins).2.2.2
  simp only [ExpansionRules.admits, Bool.and_eq_true, Bool.not_eq_true'] at admitted
  exact admitted.1.1

theorem names_joined_nodup (nodup : (names l).Nodup) :
    (names (l ++ plainEntries (joiningFields l pattern snapshot counterpart rules))).Nodup := by
  rw [names_append]
  refine List.nodup_append.mpr ⟨nodup, names_joining_nodup pattern snapshot counterpart rules, ?_⟩
  intro a inList b joining same
  obtain ⟨e, member, rfl⟩ := mem_names.mp joining
  exact joining_fresh pattern snapshot counterpart rules e member (same ▸ inList)

theorem joined_spared
    (spared : ∀ e ∈ l, rules.excluded.contains e.key = true →
      rules.mandatory.contains e.key = true) :
    ∀ e ∈ l ++ plainEntries (joiningFields l pattern snapshot counterpart rules),
      rules.excluded.contains e.key = true → rules.mandatory.contains e.key = true := by
  intro e member excluded
  rcases List.mem_append.mp member with old | new
  · exact spared e old excluded
  · rw [joining_notExcluded pattern snapshot counterpart rules e new] at excluded
    contradiction

theorem expand_eq_append (nodup : (names l).Nodup)
    (spared : ∀ e ∈ l, rules.excluded.contains e.key = true →
      rules.mandatory.contains e.key = true) :
    expand l pattern snapshot counterpart rules =
      l ++ plainEntries (joiningFields l pattern snapshot counterpart rules) := by
  have joined := joined_spared pattern snapshot counterpart rules spared
  have distinctNames := names_joined_nodup pattern snapshot counterpart rules nodup
  change distinct (exclude rules.excluded rules.mandatory (l ++ plainEntries _)) = _
  rw [exclude_of_all joined, distinct_of_nodup distinctNames]

end Expand

end MigrationPlan
