import Mathlib.Data.List.DropRight
import Mathlib.Data.List.TakeWhile
import MigrationPlan.Text.Blank

/- Trimming cuts blanks off both ends and nothing else, so that trimmed texts are the ones that
   neither start nor end with a blank. -/
namespace MigrationPlan.Text

theorem ne_of_test {test : Char → Bool} {c d : Char} (yes : test c = true)
    (no : test d = false) : c ≠ d := by
  intro same
  rw [same, no] at yes
  cases yes

def Blank (s : List Char) : Prop := ∀ c ∈ s, isBlank c = true

structure Trimmed (s : List Char) : Prop where
  first : ∀ c ∈ s.head?, isBlank c = false
  last : ∀ c ∈ s.getLast?, isBlank c = false

instance (s : List Char) : Decidable (Trimmed s) :=
  -- the characters are tested where they stand, and not all that there are
  decidable_of_iff (s.head?.all (! isBlank ·) = true ∧ s.getLast?.all (! isBlank ·) = true) <| by
    simp only [Option.all_eq_true, Bool.not_eq_true']
    exact ⟨fun h => ⟨h.1, h.2⟩, fun h => ⟨h.first, h.last⟩⟩

theorem blank_nil : Blank [] := by
  intro c member
  cases member

theorem blank_space : Blank [' '] := by
  intro c member
  rw [List.mem_singleton.mp member]
  decide

theorem trimEnd_eq (s : List Char) : trimEnd s = s.rdropWhile isBlank := rfl

theorem trimStart_parts (s : List Char) : ∃ a, Blank a ∧ s = a ++ trimStart s := by
  refine ⟨s.takeWhile isBlank, ?_, List.takeWhile_append_dropWhile.symm⟩
  intro c member
  exact List.mem_takeWhile_imp member

theorem trimEnd_parts (s : List Char) : ∃ b, Blank b ∧ s = trimEnd s ++ b := by
  refine ⟨s.rtakeWhile isBlank, ?_, (List.rdropWhile_append_rtakeWhile).symm⟩
  intro c member
  exact List.mem_rtakeWhile_imp member

theorem trim_parts (s : List Char) : ∃ a b, Blank a ∧ Blank b ∧ s = a ++ trim s ++ b := by
  obtain ⟨a, blankA, cutA⟩ := trimStart_parts s
  obtain ⟨b, blankB, cutB⟩ := trimEnd_parts (trimStart s)
  refine ⟨a, b, blankA, blankB, ?_⟩
  rw [List.append_assoc]
  exact cutA.trans (congrArg (a ++ ·) cutB)

theorem trim_trimmed (s : List Char) : Trimmed (trim s) := by
  constructor
  · intro c first
    obtain ⟨b, _, cut⟩ := trimEnd_parts (trimStart s)
    have inStart : c ∈ (trimStart s).head? := by
      rw [cut, List.head?_append]
      exact Option.mem_def.mpr (by rw [show (trimEnd (trimStart s)).head? = some c from first]; rfl)
    have nonempty : s.dropWhile isBlank ≠ [] := by
      intro empty
      rw [trimStart, empty] at inStart
      cases inStart
    have head : (s.dropWhile isBlank).head nonempty = c := by
      have eq := List.head?_eq_some_head nonempty
      have first : (s.dropWhile isBlank).head? = some c := inStart
      exact (Option.some.inj (first.symm.trans eq)).symm
    rw [← head]
    exact Bool.eq_false_iff.mpr (by simpa using List.head_dropWhile_not isBlank nonempty)
  · intro c last
    have nonempty : (trimStart s).rdropWhile isBlank ≠ [] := by
      intro empty
      rw [trim, trimEnd_eq, empty] at last
      cases last
    have value : ((trimStart s).rdropWhile isBlank).getLast nonempty = c := by
      have eq := List.getLast?_eq_some_getLast nonempty
      rw [trim, trimEnd_eq, Option.mem_def] at last
      exact (Option.some.inj (last.symm.trans eq)).symm
    rw [← value]
    exact Bool.eq_false_iff.mpr
      (by simpa using List.rdropWhile_last_not isBlank (trimStart s) nonempty)

theorem trim_of_trimmed {s : List Char} (h : Trimmed s) : trim s = s := by
  have start : trimStart s = s := by
    cases s with
    | nil => rfl
    | cons c s => exact List.dropWhile_cons_of_neg (by simp [h.first c rfl])
  rw [trim, start, trimEnd_eq, List.rdropWhile_eq_self_iff]
  intro nonempty
  have last := h.last _ (List.getLast?_eq_some_getLast nonempty)
  simp [last]

theorem trim_trim (s : List Char) : trim (trim s) = trim s := trim_of_trimmed (trim_trimmed s)

theorem trimEnd_append_blank (s : List Char) {b : List Char} (blank : Blank b) :
    trimEnd (s ++ b) = trimEnd s := by
  have gone : b.reverse.dropWhile isBlank = [] := by
    rw [List.dropWhile_eq_nil_iff]
    intro c member
    exact blank c (List.mem_reverse.mp member)
  rw [trimEnd, List.reverse_append, List.dropWhile_append, gone]
  rfl

theorem trim_around {a b : List Char} (s : List Char) (blankA : Blank a) (blankB : Blank b) :
    trim (a ++ s ++ b) = trim s := by
  have start : trimStart (a ++ (s ++ b)) = trimStart (s ++ b) := List.dropWhile_append_of_pos blankA
  rw [List.append_assoc, trim, start, trim, trimStart, List.dropWhile_append]
  cases gone : (s.dropWhile isBlank).isEmpty with
  | false => exact trimEnd_append_blank _ blankB
  | true =>
    rw [trimStart, List.isEmpty_iff.mp gone]
    have none : b.dropWhile isBlank = [] := List.dropWhile_eq_nil_iff.mpr blankB
    simp [none]

theorem trim_space (s : List Char) : trim (' ' :: s) = trim s := by
  have around := trim_around s blank_space blank_nil
  rwa [List.append_nil, List.singleton_append] at around

theorem trim_eq_nil {s : List Char} : trim s = [] ↔ Blank s := by
  constructor
  · intro empty
    obtain ⟨a, b, blankA, blankB, cut⟩ := trim_parts s
    rw [cut, empty]
    intro c member
    rcases List.mem_append.mp member with left | right
    · exact blankA c (by simpa using left)
    · exact blankB c right
  · intro blank
    have around := trim_around (a := s) (b := []) [] blank blank_nil
    have empty : trim [] = [] := rfl
    rwa [List.append_nil, List.append_nil, empty] at around

theorem trimmed_append {s t : List Char} (first : ∀ c ∈ s.head?, isBlank c = false)
    (last : ∀ c ∈ t.getLast?, isBlank c = false) (left : s ≠ []) (right : t ≠ []) :
    Trimmed (s ++ t) := by
  constructor
  · intro c member
    rw [List.head?_append_of_ne_nil _ left] at member
    exact first c member
  · intro c member
    rw [List.getLast?_append_of_ne_nil _ right] at member
    exact last c member

end MigrationPlan.Text
