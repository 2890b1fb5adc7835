import MigrationPlan.Proofs.Text.Trim

/- Cutting a text at a separator. Of the parts those that are not blank are kept, trimmed, and what
   was kept can be joined and cut again. -/
namespace MigrationPlan.Text

def pieces (sep : Char) (s : List Char) : List (List Char) :=
  ((s.splitOn sep).map trim).filter (! ·.isEmpty)

variable {sep : Char} {s : List Char}

theorem splitOn_without {piece : List Char} (member : piece ∈ s.splitOn sep) : sep ∉ piece := by
  induction s generalizing piece with
  | nil =>
    rw [List.splitOn_nil, List.mem_singleton] at member
    simp [member]
  | cons d s ih =>
    rw [List.splitOn_cons_eq_if_modifyHead] at member
    by_cases same : (d == sep) = true
    · rw [if_pos same, List.mem_cons] at member
      rcases member with rfl | later
      · simp
      · exact ih later
    · rw [if_neg same] at member
      cases pieces : s.splitOn sep with
      | nil => exact absurd pieces (List.splitOn_ne_nil sep s)
      | cons first rest =>
        rw [pieces] at member ih
        rw [List.modifyHead_cons, List.mem_cons] at member
        rcases member with rfl | later
        · have other : sep ≠ d := by
            intro eq
            exact same (by simp [eq])
          simp [other, ih (List.mem_cons_self)]
        · exact ih (List.mem_cons_of_mem _ later)

theorem forall_splitOn {P : Char → Prop} :
    (∀ part ∈ s.splitOn sep, ∀ c ∈ part, P c) ↔ ∀ c ∈ s, c = sep ∨ P c := by
  induction s with
  | nil => simp
  | cons c s ih =>
    rw [List.splitOn_cons_eq_if_modifyHead]
    by_cases same : (c == sep) = true
    · rw [if_pos same]
      simp [ih, beq_iff_eq.mp same]
    · have other : c ≠ sep := fun eq => same (by simp [eq])
      rw [if_neg same]
      cases parts : s.splitOn sep with
      | nil => exact absurd parts (List.splitOn_ne_nil sep s)
      | cons first rest =>
        rw [parts] at ih
        simp only [List.modifyHead_cons, List.forall_mem_cons, and_assoc, other, false_or, ← ih]

theorem splitOn_subset {part : List Char} (member : part ∈ s.splitOn sep) : ∀ c ∈ part, c ∈ s :=
  forall_splitOn.mpr (fun _ inText => Or.inr inText) part member

theorem splitOn_intercalate_flatMap {parts : List (List Char)} (some : parts ≠ []) :
    ([sep].intercalate parts).splitOn sep = parts.flatMap (·.splitOn sep) := by
  induction parts with
  | nil => exact absurd rfl some
  | cons part parts ih =>
    cases parts with
    | nil => simp
    | cons next parts =>
      rw [List.intercalate_cons_cons, List.append_assoc, List.singleton_append,
        List.splitOn_append_cons_self, ih (by simp)]
      exact List.flatMap_cons.symm

theorem one_lt_length_splitOn : 1 < (s.splitOn sep).length ↔ sep ∈ s := by
  constructor
  · intro long
    by_contra absent
    rw [List.splitOn_eq_singleton absent] at long
    simp at long
  · intro member
    obtain ⟨before, after, rfl⟩ := List.append_of_mem member
    rw [List.splitOn_append_cons_self, List.length_append]
    have first := List.length_pos_iff.mpr (List.splitOn_ne_nil sep before)
    have second := List.length_pos_iff.mpr (List.splitOn_ne_nil sep after)
    omega

theorem mem_pieces {part : List Char} (member : part ∈ pieces sep s) :
    part ≠ [] ∧ Trimmed part ∧ sep ∉ part := by
  obtain ⟨inMap, kept⟩ := List.mem_filter.mp member
  obtain ⟨raw, inSplit, rfl⟩ := List.mem_map.mp inMap
  refine ⟨by simpa using kept, trim_trimmed raw, ?_⟩
  intro inPart
  obtain ⟨a, b, _, _, cut⟩ := trim_parts raw
  have inRaw : sep ∈ raw := by
    rw [cut]
    simp [inPart]
  exact splitOn_without inSplit inRaw

theorem pieces_intercalate {parts : List (List Char)}
    (kept : ∀ part ∈ parts, part ≠ [] ∧ Trimmed part ∧ sep ∉ part) :
    pieces sep ([sep].intercalate parts) = parts := by
  by_cases empty : parts = []
  · subst empty
    rfl
  · have split := List.splitOn_intercalate sep (fun part member => (kept part member).2.2) empty
    rw [pieces, split]
    have same : parts.map trim = parts := by
      refine (List.map_congr_left fun part member => ?_).trans (List.map_id parts)
      exact trim_of_trimmed (kept part member).2.1
    rw [same, List.filter_eq_self]
    intro part member
    simpa using (kept part member).1

theorem pieces_eq_nil : pieces sep s = [] ↔ ∀ c ∈ s, c = sep ∨ isBlank c = true := by
  have none : pieces sep s = [] ↔ ∀ part ∈ s.splitOn sep, Blank part := by
    simp [pieces, List.filter_eq_nil_iff, trim_eq_nil]
  exact none.trans forall_splitOn

theorem intercalate_eq_nil {parts : List (List Char)} (filled : ∀ part ∈ parts, part ≠ []) :
    [sep].intercalate parts = [] ↔ parts = [] := by
  cases parts with
  | nil => simp
  | cons part parts =>
    have head := filled part List.mem_cons_self
    cases parts <;> simp [List.intercalate_cons_cons, head]

theorem trimmed_intercalate {parts : List (List Char)} (some : parts ≠ [])
    (kept : ∀ part ∈ parts, part ≠ [] ∧ Trimmed part) : Trimmed ([sep].intercalate parts) := by
  induction parts with
  | nil => exact absurd rfl some
  | cons part parts ih =>
    obtain ⟨nonempty, trimmed⟩ := kept part List.mem_cons_self
    cases parts with
    | nil => simpa using trimmed
    | cons next parts =>
      have rest := ih (by simp) fun part member => kept part (List.mem_cons_of_mem _ member)
      have filled : [sep].intercalate (next :: parts) ≠ [] := by
        rw [Ne, intercalate_eq_nil fun part member => (kept part (List.mem_cons_of_mem _ member)).1]
        simp
      rw [List.intercalate_cons_cons, List.append_assoc]
      refine trimmed_append trimmed.first ?_ nonempty (by simp)
      intro c last
      rw [List.getLast?_append_of_ne_nil _ filled] at last
      exact rest.last c last

end MigrationPlan.Text
