import MigrationPlan.Proofs.Query.Entry
import MigrationPlan.Task.ExternalId

/- The canonical text of an external id. The pieces of a text are cut at dollar signs behind the
   mark of a composite, and else at semicolons; they are joined by semicolons in both cases. The
   text that comes out is canonical exactly if the pieces of the one syntax do not show the
   other. -/
namespace MigrationPlan.ExternalId
open Text

/-- What a component is that names one field: neither syntax would cut it. -/
structure IsComponent (part : List Char) : Prop where
  nonempty : part ≠ []
  trimmed : Trimmed part
  undivided : ';' ∉ part
  unmarked : ∀ rest, part ≠ '$' :: '$' :: rest

/-- The id names no field, or each of its components names one. -/
def Canonical (x : ExternalId) : Prop := x.text = "" ∨ ∀ part ∈ x.components, IsComponent part

/-- Between dollar signs semicolons separate names without blanks around them, and between
    semicolons stands no mark. -/
def Unmixed : List Char → Prop
  | '$' :: '$' :: rest =>
      ∀ piece ∈ pieces '$' rest, ∀ part ∈ piece.splitOn ';', part ≠ [] ∧ Trimmed part
  | s => ∀ piece ∈ pieces ';' s, ∀ rest, piece ≠ '$' :: '$' :: rest

theorem readComponents_unmarked {s : List Char} (unmarked : ∀ rest, s ≠ '$' :: '$' :: rest) :
    readComponents s = pieces ';' s := by
  unfold readComponents
  split
  next rest => exact absurd rfl (unmarked rest)
  next => rfl

theorem unmixed_unmarked {s : List Char} (unmarked : ∀ rest, s ≠ '$' :: '$' :: rest) :
    Unmixed s ↔ ∀ piece ∈ pieces ';' s, ∀ rest, piece ≠ '$' :: '$' :: rest := by
  unfold Unmixed
  split
  next rest => exact absurd rfl (unmarked rest)
  next => rfl

theorem readComponents_filled {s piece : List Char} (member : piece ∈ readComponents s) :
    piece ≠ [] ∧ Trimmed piece := by
  by_cases mark : ∃ rest, s = '$' :: '$' :: rest
  · obtain ⟨rest, rfl⟩ := mark
    have member : piece ∈ pieces '$' rest := member
    obtain ⟨filled, trimmed, _⟩ := mem_pieces member
    exact ⟨filled, trimmed⟩
  · rw [not_exists] at mark
    rw [readComponents_unmarked mark] at member
    obtain ⟨filled, trimmed, _⟩ := mem_pieces member
    exact ⟨filled, trimmed⟩

theorem toList_ofText (s : String) :
    (ofText s).text.toList = [';'].intercalate (readComponents (trim s.toList)) :=
  String.toList_ofList

theorem text_eq_empty {s : String} :
    (ofText s).text = "" ↔ readComponents (trim s.toList) = [] := by
  rw [← String.toList_eq_nil_iff, toList_ofText, intercalate_eq_nil fun piece member =>
    (readComponents_filled member).1]

theorem components_ofText {s : String} (some : (ofText s).text ≠ "") :
    (ofText s).components = (readComponents (trim s.toList)).flatMap (·.splitOn ';') := by
  rw [components, toList_ofText]
  exact splitOn_intercalate_flatMap fun none => some (text_eq_empty.mpr none)

theorem pieces_unmixed (s : List Char) :
    (∀ piece ∈ readComponents s, ∀ part ∈ piece.splitOn ';', IsComponent part) ↔ Unmixed s := by
  by_cases mark : ∃ rest, s = '$' :: '$' :: rest
  · obtain ⟨rest, rfl⟩ := mark
    constructor
    · intro components piece member part inPiece
      have h := components piece member part inPiece
      exact ⟨h.nonempty, h.trimmed⟩
    · intro unmixed piece member part inPiece
      obtain ⟨nonempty, trimmed⟩ := unmixed piece member part inPiece
      refine ⟨nonempty, trimmed, splitOn_without inPiece, fun more marked => ?_⟩
      -- pieces between dollar signs have none
      have member : piece ∈ pieces '$' rest := member
      exact (mem_pieces member).2.2 (splitOn_subset inPiece '$' (by simp [marked]))
  · rw [not_exists] at mark
    rw [readComponents_unmarked mark, unmixed_unmarked mark]
    refine forall₂_congr fun piece member => ?_
    obtain ⟨nonempty, trimmed, undivided⟩ := mem_pieces member
    rw [List.splitOn_eq_singleton undivided]
    constructor
    · intro components
      exact (components piece (List.mem_singleton.mpr rfl)).unmarked
    · intro unmarked part single
      rw [List.mem_singleton.mp single]
      exact ⟨nonempty, trimmed, undivided, unmarked⟩

theorem canonical_ofText (s : String) : (ofText s).Canonical ↔ Unmixed (trim s.toList) := by
  rw [← pieces_unmixed, Canonical]
  by_cases empty : (ofText s).text = ""
  · simp [empty, text_eq_empty.mp empty]
  · simp only [empty, false_or, components_ofText empty, List.mem_flatMap]
    constructor
    · intro components piece member part inPiece
      exact components part ⟨piece, member, inPiece⟩
    · rintro components part ⟨piece, member, inPiece⟩
      exact components piece member part inPiece

section Canonical
variable {x : ExternalId}

theorem text_of_components (x : ExternalId) : x.text.toList = [';'].intercalate x.components :=
  (List.intercalate_splitOn ';').symm

theorem unmarked_of_canonical (canonical : x.Canonical) :
    ∀ rest, x.text.toList ≠ '$' :: '$' :: rest := by
  intro rest marked
  rcases canonical with empty | isComponent
  · simp [empty] at marked
  · -- the first component would bear the mark
    obtain ⟨first, more, parts⟩ := List.exists_cons_of_ne_nil (List.splitOn_ne_nil ';' rest)
    have components : x.components = ('$' :: '$' :: first) :: more := by
      simp [components, marked, List.splitOn_cons_eq_if_modifyHead, parts]
    exact (isComponent ('$' :: '$' :: first) (by simp [components])).unmarked first rfl

theorem trimmed_of_canonical (canonical : x.Canonical) : Trimmed x.text.toList := by
  rcases canonical with empty | components
  · rw [empty]
    decide
  · rw [text_of_components]
    exact trimmed_intercalate (List.splitOn_ne_nil _ _) fun part member =>
      ⟨(components part member).nonempty, (components part member).trimmed⟩

theorem ofText_of_canonical (canonical : x.Canonical) : ofText x.text = x := by
  have text : (ofText x.text).text.toList = x.text.toList := by
    rw [toList_ofText, trim_of_trimmed (trimmed_of_canonical canonical),
      readComponents_unmarked (unmarked_of_canonical canonical)]
    rcases canonical with empty | isComponent
    · rw [empty]
      rfl
    · rw [text_of_components, pieces_intercalate]
      intro part member
      exact ⟨(isComponent part member).nonempty, (isComponent part member).trimmed,
        (isComponent part member).undivided⟩
  exact congrArg ExternalId.mk (String.toList_injective text)

theorem isComposite_iff (x : ExternalId) : x.isComposite = true ↔ 2 ≤ x.components.length := by
  rw [isComposite, List.contains_iff_mem]
  exact one_lt_length_splitOn.symm

theorem entry_of_canonical (canonical : x.Canonical) :
    (∃ parts, x.entry = .composite parts) ↔ 2 ≤ x.components.length := by
  rw [← isComposite_iff, entry]
  cases composite : x.isComposite with
  | true => simp
  | false =>
    simp only [Bool.false_eq_true, ↓reduceIte, iff_false]
    rintro ⟨parts, read⟩
    obtain ⟨rest, marked⟩ := Entry.marked_of_read read
    rw [trim_of_trimmed (trimmed_of_canonical canonical)] at marked
    exact unmarked_of_canonical canonical rest marked

end Canonical

def NamesNothing (s : List Char) : Prop :=
  ¬ Blank s ∧
    match trim s with
    | '$' :: '$' :: rest => ∀ c ∈ rest, c = '$' ∨ isBlank c = true
    | s => ∀ c ∈ s, c = ';' ∨ isBlank c = true

theorem namesNothing_iff (s : List Char) :
    NamesNothing s ↔ ¬ Blank s ∧ readComponents (trim s) = [] := by
  unfold NamesNothing
  refine and_congr_right fun _ => ?_
  split
  next rest marked =>
    rw [marked]
    exact pieces_eq_nil.symm
  next unmarked =>
    rw [readComponents_unmarked unmarked]
    exact pieces_eq_nil.symm

end MigrationPlan.ExternalId
