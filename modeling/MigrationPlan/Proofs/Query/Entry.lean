import MigrationPlan.Proofs.Text.Pieces
import MigrationPlan.Query.Entry

/- The key of an entry is its canonical text: it is trimmed, and reading it gives the entry back. -/
namespace MigrationPlan.Entry
open Text

def keptParts (s : List Char) : List (List Char) := ((s.splitOn '$').map trim).filter (! ·.isEmpty)

def keyText (s : List Char) : List Char :=
  match trim s with
  | '$' :: '$' :: rest => '$' :: '$' :: ['$'].intercalate (keptParts rest)
  | text => text

theorem key_composite (parts : List (List Char)) :
    (composite (parts.map String.ofList)).key.toList = '$' :: '$' :: ['$'].intercalate parts := by
  simp only [key, String.toList_append, String.toList_intercalate, List.map_map, Function.comp_def,
    String.toList_ofList, List.map_id']
  rfl

theorem keyText_marked {s rest : List Char} (marked : trim s = '$' :: '$' :: rest) :
    keyText s = '$' :: '$' :: ['$'].intercalate (keptParts rest) := by
  unfold keyText
  rw [marked]
  rfl

theorem keyText_unmarked {s : List Char} (unmarked : ∀ rest, trim s ≠ '$' :: '$' :: rest) :
    keyText s = trim s := by
  unfold keyText
  split
  · next rest marked => exact absurd marked (unmarked rest)
  · rfl

theorem read_marked {s rest : List Char} (marked : trim s = '$' :: '$' :: rest) :
    read s = composite ((keptParts rest).map String.ofList) := by
  unfold read
  rw [marked]
  rfl

theorem marked_of_read {s : List Char} {parts : List String} (composed : read s = composite parts) :
    ∃ rest, trim s = '$' :: '$' :: rest := by
  unfold read at composed
  split at composed
  next rest marked => exact ⟨rest, marked⟩
  next => split_ifs at composed

theorem key_read (s : List Char) : (read s).key.toList = keyText s := by
  by_cases mark : ∃ rest, trim s = '$' :: '$' :: rest
  · obtain ⟨rest, marked⟩ := mark
    rw [read_marked marked, keyText_marked marked, key_composite]
  · rw [not_exists] at mark
    rw [keyText_unmarked mark]
    unfold read
    split
    · next rest marked => exact absurd marked (mark rest)
    · split
      · exact String.toList_ofList
      · split
        · exact String.toList_ofList
        · exact String.toList_ofList

theorem mem_keptParts {s part : List Char} (member : part ∈ keptParts s) :
    part ≠ [] ∧ Trimmed part ∧ '$' ∉ part := mem_pieces member

theorem keptParts_intercalate {parts : List (List Char)}
    (kept : ∀ part ∈ parts, part ≠ [] ∧ Trimmed part ∧ '$' ∉ part) :
    keptParts (['$'].intercalate parts) = parts := pieces_intercalate kept

theorem last_intercalate {parts : List (List Char)}
    (kept : ∀ part ∈ parts, part ≠ [] ∧ Trimmed part ∧ '$' ∉ part) :
    ∀ c ∈ ('$' :: ['$'].intercalate parts).getLast?, isBlank c = false := by
  induction parts with
  | nil =>
    intro c member
    have dollar : c = '$' := by simpa [List.intercalate] using member.symm
    rw [dollar]
    decide
  | cons part parts ih =>
    intro c member
    have first := kept part (List.mem_cons_self)
    cases parts with
    | nil =>
      rw [List.intercalate_singleton, List.getLast?_cons_of_ne_nil first.1] at member
      exact first.2.1.last c member
    | cons next parts =>
      refine ih (fun part member => kept part (List.mem_cons_of_mem _ member)) c ?_
      rw [List.intercalate_cons_cons, List.append_assoc, ← List.cons_append,
        List.getLast?_append_of_ne_nil _ (by simp)] at member
      exact member

theorem keyText_trimmed (s : List Char) : Trimmed (keyText s) := by
  by_cases mark : ∃ rest, trim s = '$' :: '$' :: rest
  · obtain ⟨rest, marked⟩ := mark
    rw [keyText_marked marked]
    constructor
    · intro c member
      have dollar : c = '$' := by simpa using member.symm
      rw [dollar]
      decide
    · intro c member
      rw [List.getLast?_cons_cons] at member
      exact last_intercalate (fun part inParts => mem_keptParts inParts) c member
  · rw [not_exists] at mark
    rw [keyText_unmarked mark]
    exact trim_trimmed s

theorem keyText_ne_nil {s : List Char} (nonempty : trim s ≠ []) : keyText s ≠ [] := by
  unfold keyText
  split
  · simp
  · exact nonempty

theorem read_trim (s : List Char) : read (trim s) = read s := by
  unfold read
  rw [trim_trim]

theorem read_keyText (s : List Char) : read (keyText s) = read s := by
  by_cases mark : ∃ rest, trim s = '$' :: '$' :: rest
  · obtain ⟨rest, marked⟩ := mark
    have again : trim (keyText s) = '$' :: '$' :: ['$'].intercalate (keptParts rest) := by
      rw [trim_of_trimmed (keyText_trimmed s), keyText_marked marked]
    rw [read_marked again, read_marked marked, keptParts_intercalate fun part member =>
      mem_keptParts member]
  · rw [not_exists] at mark
    rw [keyText_unmarked mark, read_trim]

/-- Reading the key of an entry that was read gives the entry back. -/
theorem read_key (s : List Char) : read (read s).key.toList = read s := by
  rw [key_read, read_keyText]

end MigrationPlan.Entry
