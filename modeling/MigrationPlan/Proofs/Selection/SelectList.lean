import MigrationPlan.Selection.Expansion

/- Select lists by the names of their entries. What each operation does to the names is said once
   here, and all later invariants of select lists are read off it. -/
namespace MigrationPlan
open Text

namespace Text

theorem sameName_iff (a b : String) : sameName a b = true ↔ fold a = fold b := by simp [sameName]

theorem sameName_self (a : String) : sameName a a = true := (sameName_iff a a).mpr rfl

theorem sameName_eq_false (a b : String) : sameName a b = false ↔ fold a ≠ fold b := by
  simp [sameName]

end Text

namespace NameSet

theorem contains_iff (s : NameSet) (name : String) :
    s.contains name = true ↔ fold name ∈ s.names := by
  simp [contains]

theorem contains_congr (s : NameSet) {a b : String} (same : fold a = fold b) :
    s.contains a = s.contains b := by
  simp [contains, same]

theorem contains_insertAll (s : NameSet) (l : List String) (name : String) :
    (s.insertAll l).contains name = true ↔
      s.contains name = true ∨ ∃ a ∈ l, sameName a name = true := by
  induction l generalizing s with
  | nil => simp [insertAll]
  | cons a l ih =>
    have first : (s.insert a).contains name = true ↔
        sameName a name = true ∨ s.contains name = true := by
      rw [contains_iff, contains_iff, sameName_iff, insert, List.mem_cons, eq_comm]
    rw [insertAll, List.foldl_cons, ← insertAll, ih, first]
    simp only [List.mem_cons, exists_eq_or_imp]
    rw [or_comm (a := sameName a name = true), or_assoc]

end NameSet

namespace SelectList

def names (l : List Entry) : List String := l.map fun e => fold e.key

theorem names_nodup_cons (e : Entry) (l : List Entry) :
    (names (e :: l)).Nodup ↔ fold e.key ∉ names l ∧ (names l).Nodup := List.nodup_cons

theorem names_append (l m : List Entry) : names (l ++ m) = names l ++ names m := by simp [names]

theorem mem_names {l : List Entry} {name : String} :
    name ∈ names l ↔ ∃ e ∈ l, fold e.key = name := by
  simp [names]

theorem key_mem_names {l : List Entry} {e : Entry} (member : e ∈ l) : fold e.key ∈ names l :=
  mem_names.mpr ⟨e, member, rfl⟩

theorem selects_iff (l : List Entry) (name : String) :
    selects l name = true ↔ fold name ∈ names l := by
  simp [selects, mem_names, Entry.isNamed, sameName_iff]

theorem names_nodup_of_sublist {l m : List Entry} (sub : l.Sublist m) (nodup : (names m).Nodup) :
    (names l).Nodup := List.Sublist.nodup (sub.map _) nodup

theorem entry_unique {l : List Entry} (nodup : (names l).Nodup) {e d : Entry}
    (me : e ∈ l) (md : d ∈ l) (same : fold e.key = fold d.key) : e = d := by
  induction l with
  | nil => simp at me
  | cons a l ih =>
    obtain ⟨fresh, rest⟩ := (names_nodup_cons _ _).mp nodup
    rcases List.mem_cons.mp me with ea | me
    · rcases List.mem_cons.mp md with ed | md
      · rw [ea, ed]
      · rw [← ea, same] at fresh
        exact absurd (key_mem_names md) fresh
    · rcases List.mem_cons.mp md with ed | md
      · rw [← ed, ← same] at fresh
        exact absurd (key_mem_names me) fresh
      · exact ih rest me md

/-! Only the first entry of each name stays. -/

theorem distinct_cons (e : Entry) (l : List Entry) :
    distinct (e :: l) = e :: distinct (l.filter fun d => !sameName d.key e.key) := by
  simp [distinct, List.eraseDupsBy_cons]

/-- Induction along the entries that stay: each takes the later entries of its name with it. -/
theorem distinct_induction {P : List Entry → Prop} (nil : P [])
    (cons : ∀ e l, P (l.filter fun d => !sameName d.key e.key) → P (e :: l))
    (l : List Entry) : P l := by
  induction h : l.length using Nat.strongRecOn generalizing l with
  | ind n ih =>
    cases l with
    | nil => exact nil
    | cons e l =>
      have short := List.length_filter_le (fun d : Entry => !sameName d.key e.key) l
      simp only [List.length_cons] at h
      exact cons e l (ih _ (by omega) _ rfl)

theorem distinct_sublist (l : List Entry) : (distinct l).Sublist l := by
  induction l using distinct_induction with
  | nil => exact List.nil_sublist _
  | cons e l ih =>
    rw [distinct_cons]
    exact (ih.trans List.filter_sublist).cons_cons e

theorem mem_names_distinct (l : List Entry) (name : String) :
    name ∈ names (distinct l) ↔ name ∈ names l := by
  induction l using distinct_induction with
  | nil => rfl
  | cons e l ih =>
    rw [distinct_cons]
    simp only [names, List.map_cons, List.mem_cons] at ih ⊢
    rw [ih]
    by_cases first : name = fold e.key
    · simp [first]
    · simp only [first, false_or, List.mem_map, List.mem_filter, Bool.not_eq_true', and_assoc]
      constructor
      · rintro ⟨d, member, _, key⟩
        exact ⟨d, member, key⟩
      · rintro ⟨d, member, key⟩
        refine ⟨d, member, ?_, key⟩
        rw [← Bool.not_eq_true, sameName_iff, key]
        exact first

theorem names_distinct_nodup (l : List Entry) : (names (distinct l)).Nodup := by
  induction l using distinct_induction with
  | nil => exact List.nodup_nil
  | cons e l ih =>
    rw [distinct_cons]
    refine (names_nodup_cons _ _).mpr ⟨?_, ih⟩
    intro again
    obtain ⟨d, member, key⟩ := mem_names.mp ((mem_names_distinct _ _).mp again)
    simp [key, sameName] at member

theorem distinct_of_nodup {l : List Entry} (nodup : (names l).Nodup) : distinct l = l := by
  induction l with
  | nil => rfl
  | cons e l ih =>
    obtain ⟨fresh, rest⟩ := (names_nodup_cons _ _).mp nodup
    have all : l.filter (fun d => !sameName d.key e.key) = l := by
      apply List.filter_eq_self.mpr
      intro d member
      rw [Bool.not_eq_true', ← Bool.not_eq_true, sameName_iff]
      exact fun same => fresh (same ▸ key_mem_names member)
    rw [distinct_cons, all, ih rest]

theorem head_distinct (e : Entry) (l : List Entry) : (distinct (e :: l)).head? = some e := by
  rw [distinct_cons]
  rfl

/-! Exclusion drops by name and spares mandatory names. -/

theorem mem_exclude {excluded mandatory : NameSet} {l : List Entry} {e : Entry} :
    e ∈ exclude excluded mandatory l ↔
      e ∈ l ∧ (excluded.contains e.key = true → mandatory.contains e.key = true) := by
  simp only [exclude, List.mem_filter, Bool.or_eq_true, Bool.not_eq_true']
  cases excluded.contains e.key <;> simp

theorem exclude_of_all {excluded mandatory : NameSet} {l : List Entry}
    (spared : ∀ e ∈ l, excluded.contains e.key = true → mandatory.contains e.key = true) :
    exclude excluded mandatory l = l := by
  apply List.filter_eq_self.mpr
  intro e member
  exact (List.mem_filter.mp (mem_exclude.mpr ⟨member, spared e member⟩)).2

theorem name_survives_exclude {excluded mandatory : NameSet} {l : List Entry} {name : String}
    (selected : fold name ∈ names l) (spared : mandatory.contains name = true) :
    fold name ∈ names (exclude excluded mandatory l) := by
  obtain ⟨e, member, key⟩ := mem_names.mp selected
  refine mem_names.mpr ⟨e, mem_exclude.mpr ⟨member, fun _ => ?_⟩, key⟩
  rw [mandatory.contains_congr key]
  exact spared

/-! Insertion appends, so that what stood in the list stays in front. -/

theorem insert_extends (l : List Entry) (e : Entry) : l <+: insert l e := by
  unfold insert
  split
  · exact List.prefix_rfl
  · exact List.prefix_append _ _

theorem insertAll_extends (l more : List Entry) : l <+: insertAll l more := by
  induction more generalizing l with
  | nil => exact List.prefix_rfl
  | cons e more ih => exact (insert_extends l e).trans (ih (insert l e))

theorem name_mem_insert (l : List Entry) (e : Entry) : fold e.key ∈ names (insert l e) := by
  unfold insert
  split
  next selected => exact (selects_iff _ _).mp selected
  next => simp [names]

theorem name_mem_insertAll {l more : List Entry} {e : Entry} (member : e ∈ more) :
    fold e.key ∈ names (insertAll l more) := by
  induction more generalizing l with
  | nil => simp at member
  | cons d more ih =>
    rcases List.mem_cons.mp member with first | later
    · subst d
      exact ((insertAll_extends (insert l e) more).sublist.map _).mem (name_mem_insert l e)
    · exact ih later

theorem insertAll_append (l a b : List Entry) :
    insertAll l (a ++ b) = insertAll (insertAll l a) b := List.foldl_append

theorem insertAll_of_selected {l more : List Entry} (selected : ∀ e ∈ more, fold e.key ∈ names l) :
    insertAll l more = l := by
  induction more with
  | nil => rfl
  | cons e more ih =>
    have first : SelectList.insert l e = l := by
      rw [SelectList.insert, if_pos ((selects_iff l e.key).mpr (selected e List.mem_cons_self))]
    rw [insertAll, List.foldl_cons, first]
    exact ih fun d member => selected d (List.mem_cons_of_mem e member)

end SelectList

end MigrationPlan
