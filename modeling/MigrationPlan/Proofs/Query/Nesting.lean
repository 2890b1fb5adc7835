import Mathlib.Data.List.Induction
import Mathlib.Tactic.SplitIfs
import MigrationPlan.Query.Clause

/- Where parentheses and literals leave a text, said without the scanner: a text is nested when it
   is built of whole literals, parentheses and other characters. -/
namespace MigrationPlan.Query

/-- What can stand within a literal: each backslash has the character that it takes with it, and no
    other character is a quote. -/
inductive Quoted : List Char → Prop
  | nil : Quoted []
  | plain {s : List Char} {c : Char} : Quoted s → c ≠ '\'' → c ≠ '\\' → Quoted (s ++ [c])
  | escaped {s : List Char} (c : Char) : Quoted s → Quoted (s ++ ['\\', c])

/-- A text with its literals closed and `depth` of its parentheses open, where none is closed that
    is not open. -/
inductive Nested : List Char → Nat → Prop
  | nil : Nested [] 0
  | plain {s : List Char} {depth : Nat} {c : Char} :
      Nested s depth → c ∉ ['\'', '(', ')'] → Nested (s ++ [c]) depth
  | opening {s : List Char} {depth : Nat} : Nested s depth → Nested (s ++ ['(']) (depth + 1)
  | closing {s : List Char} {depth : Nat} : Nested s (depth + 1) → Nested (s ++ [')']) depth
  | literal {s body : List Char} {depth : Nat} :
      Nested s depth → Quoted body → Nested (s ++ '\'' :: body ++ ['\'']) depth

def Place.after? (place : Place) (s : List Char) : Option Place := s.foldlM Place.next? place

theorem after_nil (place : Place) : place.after? [] = some place := rfl

theorem after_cons (place : Place) (c : Char) (s : List Char) :
    place.after? (c :: s) = (place.next? c).bind fun place' => place'.after? s := rfl

theorem after_append (place : Place) (s t : List Char) :
    place.after? (s ++ t) = (place.after? s).bind fun place' => place'.after? t :=
      List.foldlM_append

theorem after_last (place : Place) (s : List Char) (c : Char) :
    place.after? (s ++ [c]) = (place.after? s).bind fun place' => place'.next? c := by
  rw [after_append]
  congr 1
  funext place'
  rw [after_cons]
  cases place'.next? c with
  | none => rfl
  | some place'' => rfl

theorem after_quoted {body : List Char} (quoted : Quoted body) (depth : Nat) :
    (Place.literal depth).after? body = some (.literal depth) := by
  induction quoted with
  | nil => rfl
  | plain _ noQuote noBackslash ih => simp [after_last, ih, Place.next?, noQuote, noBackslash]
  | escaped c _ ih => rw [after_append, ih]; rfl

theorem after_nested {s : List Char} {depth : Nat} (nested : Nested s depth) :
    (Place.outside 0).after? s = some (.outside depth) := by
  induction nested with
  | nil => rfl
  | plain _ other ih =>
    simp only [List.mem_cons, List.not_mem_nil, or_false, not_or] at other
    simp [after_last, ih, Place.next?, other]
  | opening _ ih => rw [after_last, ih]; rfl
  | closing _ ih => rw [after_last, ih]; rfl
  | @literal s body depth _ quoted ih =>
    have opened : (Place.outside depth).after? ('\'' :: body) = some (.literal depth) :=
      after_quoted quoted depth
    rw [after_last, after_append, ih, Option.bind_some, opened]
    rfl

def LeadsTo (s : List Char) : Place → Prop
  | .outside depth => Nested s depth
  | .literal depth => ∃ before body, s = before ++ '\'' :: body ∧ Nested before depth ∧ Quoted body
  | .escaped depth =>
    ∃ before body, s = before ++ '\'' :: body ++ ['\\'] ∧ Nested before depth ∧ Quoted body

theorem leadsTo_next {s : List Char} {place place' : Place} {c : Char} (leads : LeadsTo s place)
    (entered : place.next? c = some place') : LeadsTo (s ++ [c]) place' := by
  cases place with
  | outside depth =>
    simp only [Place.next?] at entered
    split_ifs at entered with quote opening closing
    · cases entered
      exact ⟨s, [], by rw [quote], leads, .nil⟩
    · cases entered
      exact opening ▸ .opening leads
    · cases depth with
      | zero => cases entered
      | succ depth =>
        cases entered
        exact closing ▸ .closing leads
    · cases entered
      exact .plain leads (by simp [quote, opening, closing])
  | literal depth =>
    obtain ⟨before, body, rfl, nested, quoted⟩ := leads
    simp only [Place.next?] at entered
    split_ifs at entered with backslash quote
    · cases entered
      exact ⟨before, body, by rw [backslash], nested, quoted⟩
    · cases entered
      exact quote ▸ .literal nested quoted
    · cases entered
      exact ⟨before, body ++ [c], by simp, nested, .plain quoted quote backslash⟩
  | escaped depth =>
    obtain ⟨before, body, rfl, nested, quoted⟩ := leads
    cases entered
    exact ⟨before, body ++ ['\\', c], by simp, nested, .escaped c quoted⟩

theorem leadsTo_of_after {s : List Char} {place : Place}
    (after : (Place.outside 0).after? s = some place) :
    LeadsTo s place := by
  induction s using List.reverseRecOn generalizing place with
  | nil =>
    cases after
    exact .nil
  | append_singleton s c ih =>
    rw [after_last] at after
    obtain ⟨place', reached, entered⟩ := Option.bind_eq_some_iff.mp after
    exact leadsTo_next (ih reached) entered

/-- The scanner is outside literals, at a depth, exactly behind the texts that are nested so
    deep. -/
theorem nested_iff {s : List Char} {depth : Nat} :
    Nested s depth ↔ (Place.outside 0).after? s = some (.outside depth) := by
  constructor
  · exact after_nested
  · exact leadsTo_of_after

end MigrationPlan.Query
