import MigrationPlan.Proofs.Text.Trim
import MigrationPlan.Query.Clause

/- Keywords are whole words: what follows a text decides about its keywords only where a word runs
   on across the seam, or where an ORDER at the end waits for its BY. -/
namespace MigrationPlan.Query
open Text

/-- No word runs on from one text into the next. -/
def Apart (s after : List Char) : Prop :=
  ∀ c d, s.getLast? = some c → after.head? = some d → isWordChar c = false ∨ isWordChar d = false

/-- The first word behind blanks is not the second word of a keyword. -/
def NotBy (after : List Char) : Prop :=
  (((after.dropWhile isBlank).takeWhile isWordChar).map Char.toLower == "by".toList) = false

/-- The text does not start within a word. -/
def Opens (after : List Char) : Prop := ∀ d ∈ after.head?, isWordChar d = false

theorem opens_nil : Opens [] := by
  intro d first
  cases first

theorem opens_cons {c : Char} (noWord : isWordChar c = false) (s : List Char) : Opens (c :: s) := by
  intro d first
  exact Option.some.inj first ▸ noWord

theorem opens_apart {after : List Char} (opens : Opens after) (s : List Char) : Apart s after := by
  intro c d _ first
  exact Or.inr (opens d first)

theorem apart_suffix {a s after : List Char} (apart : Apart (a ++ s) after)
    (nonempty : s ≠ []) : Apart s after := by
  intro c d last first
  exact apart c d (by rw [List.getLast?_append_of_ne_nil _ nonempty, last]) first

section Word
variable {s after : List Char} (apart : Apart s after) (nonempty : s ≠ [])
include apart nonempty

theorem opens_of_word (word : ∀ c ∈ s, isWordChar c = true) : Opens after := by
  intro d first
  have last := List.getLast?_eq_some_getLast nonempty
  rcases apart _ d last first with outside | outside
  · have inside := word _ (List.getLast_mem nonempty)
    rw [outside] at inside
    cases inside
  · exact outside

theorem word_append : (s ++ after).takeWhile isWordChar = s.takeWhile isWordChar := by
  rw [List.takeWhile_append]
  split
  · next whole =>
    have same : s.takeWhile isWordChar = s := (List.takeWhile_prefix isWordChar).eq_of_length whole
    have word := List.takeWhile_eq_self_iff.mp same
    have opens := opens_of_word apart nonempty word
    have none : after.takeWhile isWordChar = [] := by
      cases after with
      | nil => rfl
      | cons d after => exact List.takeWhile_cons_of_neg (by simp [opens d rfl])
    rw [none, List.append_nil, same]
  · rfl

theorem behind_word_append :
    (s ++ after).dropWhile isWordChar = s.dropWhile isWordChar ++ after := by
  have whole := List.takeWhile_append_dropWhile (p := isWordChar) (l := s ++ after)
  rw [word_append apart nonempty] at whole
  have split : s.takeWhile isWordChar ++ (s.dropWhile isWordChar ++ after) = s ++ after := by
    rw [← List.append_assoc, List.takeWhile_append_dropWhile]
  exact List.append_cancel_left (whole.trans split.symm)

end Word

def isOrder (word : List Char) : Bool := word.map Char.toLower == "order".toList

def orderBy? (word rest : List Char) : Option (Clause × Nat) :=
  let gap := rest.takeWhile isBlank
  let second := (rest.dropWhile isBlank).takeWhile isWordChar
  if !gap.isEmpty && second.map Char.toLower == "by".toList then
    some (.ordering, word.length + gap.length + second.length)
  else none

theorem drop_takeWhile (p : Char → Bool) (s : List Char) :
    s.drop (s.takeWhile p).length = s.dropWhile p := by
  have whole := List.takeWhile_append_dropWhile (p := p) (l := s)
  calc s.drop (s.takeWhile p).length
      = (s.takeWhile p ++ s.dropWhile p).drop (s.takeWhile p).length := by rw [whole]
    _ = s.dropWhile p := List.drop_left

theorem keyword_eq (s : List Char) :
    Clause.keyword? s =
      if isOrder (s.takeWhile isWordChar) then
        orderBy? (s.takeWhile isWordChar) (s.dropWhile isWordChar)
      else (Clause.ofWord? (s.takeWhile isWordChar)).map fun c =>
        (c, (s.takeWhile isWordChar).length) := by
  unfold Clause.keyword? orderBy? isOrder
  simp only [← List.drop_drop, drop_takeWhile]

theorem orderBy_by {word rest : List Char} {k : Clause × Nat}
    (found : orderBy? word rest = some k) :
    rest.dropWhile isBlank ≠ [] := by
  intro empty
  simp [orderBy?, empty] at found

theorem orderBy_append {word rest after : List Char} (apart : Apart rest after)
    (further : rest.dropWhile isBlank ≠ []) :
    orderBy? word (rest ++ after) = orderBy? word rest := by
  have gap : (rest ++ after).takeWhile isBlank = rest.takeWhile isBlank := by
    rw [List.takeWhile_append, if_neg]
    intro whole
    have same := (List.takeWhile_prefix isBlank (l := rest)).eq_of_length whole
    exact further (List.dropWhile_eq_nil_iff.mpr (List.takeWhile_eq_self_iff.mp same))
  have behind : (rest ++ after).dropWhile isBlank = rest.dropWhile isBlank ++ after := by
    rw [List.dropWhile_append, if_neg (by simpa using further)]
  have inner : Apart (rest.dropWhile isBlank) after := by
    rw [← List.takeWhile_append_dropWhile (p := isBlank) (l := rest)] at apart
    exact apart_suffix apart further
  simp only [orderBy?, gap, behind, word_append inner further]

theorem orderBy_none {word rest after : List Char} (blank : rest.dropWhile isBlank = [])
    (notBy : NotBy after) :
    orderBy? word (rest ++ after) = orderBy? word rest := by
  have behind : (rest ++ after).dropWhile isBlank = after.dropWhile isBlank := by
    rw [List.dropWhile_append, if_pos (by simp [blank])]
  simp only [orderBy?, behind, blank, List.takeWhile_nil]
  rw [if_neg, if_neg]
  · simp
  · simp [NotBy] at notBy
    simp [notBy]

theorem behind_word_apart {s after : List Char} (apart : Apart s after) :
    s.dropWhile isWordChar = [] ∨ Apart (s.dropWhile isWordChar) after := by
  by_cases empty : s.dropWhile isWordChar = []
  · exact Or.inl empty
  · rw [← List.takeWhile_append_dropWhile (p := isWordChar) (l := s)] at apart
    exact Or.inr (apart_suffix apart empty)

section Seam
variable {s after : List Char} (apart : Apart s after) (nonempty : s ≠ [])
include apart nonempty

theorem keyword_stays {k : Clause × Nat} (found : Clause.keyword? s = some k) :
    Clause.keyword? (s ++ after) = some k := by
  rw [keyword_eq, word_append apart nonempty, behind_word_append apart nonempty]
  rw [keyword_eq] at found
  by_cases order : isOrder (s.takeWhile isWordChar) = true
  · rw [if_pos order] at found ⊢
    have further := orderBy_by found
    rcases behind_word_apart apart with empty | inner
    · simp [empty] at further
    · rw [orderBy_append inner further, found]
  · rw [if_neg order] at found ⊢
    exact found

/-- Where no `BY` follows, a text has a keyword only if it has it by itself. -/
theorem keyword_seam (notBy : NotBy after) : Clause.keyword? (s ++ after) = Clause.keyword? s := by
  rw [keyword_eq, word_append apart nonempty, behind_word_append apart nonempty, keyword_eq s]
  by_cases order : isOrder (s.takeWhile isWordChar) = true
  · rw [if_pos order, if_pos order]
    by_cases blank : (s.dropWhile isWordChar).dropWhile isBlank = []
    · exact orderBy_none blank notBy
    · rcases behind_word_apart apart with empty | inner
      · simp [empty] at blank
      · exact orderBy_append inner blank
  · rw [if_neg order, if_neg order]

end Seam

theorem keyword_opens {s : List Char} (opens : Opens s) : Clause.keyword? s = none := by
  have word : s.takeWhile isWordChar = [] := by
    cases s with
    | nil => rfl
    | cons c s => exact List.takeWhile_cons_of_neg (by simp [opens c rfl])
  rw [keyword_eq, word]
  rfl

theorem blank_range {c : Char} (blank : isBlank c = true) : c.toNat ≤ 32 ∨ 133 ≤ c.toNat := by
  simp only [isBlank, blankRanges, List.any_cons, List.any_nil, Bool.or_false, Bool.or_eq_true,
    Bool.and_eq_true, decide_eq_true_eq] at blank
  omega

theorem word_range {c : Char} (word : isWordChar c = true) : 48 ≤ c.toNat ∧ c.toNat ≤ 122 := by
  have kinds :
      (((decide (c.val ≥ 'A'.val ∧ c.val ≤ 'Z'.val) ||
        (decide (c.val ≥ 'a'.val) && decide (c.val ≤ 'z'.val))) ||
      (decide (c.val ≥ '0'.val) && decide (c.val ≤ '9'.val))) || c == '_') = true := word
  simp only [Bool.or_eq_true, Bool.and_eq_true, decide_eq_true_eq, beq_iff_eq,
    UInt32.le_iff_toNat_le, ge_iff_le] at kinds
  rcases kinds with ((upper | lower) | digit) | underscore
  · exact ⟨Nat.le_trans (by decide) upper.1, Nat.le_trans upper.2 (by decide)⟩
  · exact ⟨Nat.le_trans (by decide) lower.1, Nat.le_trans lower.2 (by decide)⟩
  · exact ⟨Nat.le_trans (by decide) digit.1, Nat.le_trans digit.2 (by decide)⟩
  · rw [underscore]
    decide

theorem word_not_blank {c : Char} (word : isWordChar c = true) : isBlank c = false := by
  have range := word_range word
  cases blank : isBlank c with
  | false => rfl
  | true =>
    have outside := blank_range blank
    omega

theorem blank_not_word {c : Char} (blank : isBlank c = true) : isWordChar c = false := by
  cases word : isWordChar c with
  | false => rfl
  | true => rw [word_not_blank word] at blank; cases blank

theorem word_not_boundary {c : Char} (word : isWordChar c = true) : isBoundary c = false := by
  have comma := ne_of_test word (d := ',') (by decide)
  have closing := ne_of_test word (d := ')') (by decide)
  simp [isBoundary, word_not_blank word, comma, closing]

theorem boundary_not_word {c : Char} (boundary : isBoundary c = true) : isWordChar c = false := by
  cases word : isWordChar c with
  | false => rfl
  | true => rw [word_not_boundary word] at boundary; cases boundary

theorem keyword_head {s : List Char} {k : Clause × Nat} (found : Clause.keyword? s = some k) :
    ∃ c t, s = c :: t ∧ isWordChar c = true := by
  cases s with
  | nil =>
    exact absurd (keyword_opens (s := []) (by intro d member; cases member)) (by simp [found])
  | cons c t =>
    refine ⟨c, t, rfl, ?_⟩
    cases word : isWordChar c with
    | true => rfl
    | false =>
      have opens : Opens (c :: t) := by
        intro d member
        rwa [← Option.some.inj (Option.mem_def.mp member)]
      rw [keyword_opens opens] at found
      cases found

theorem ofWord_by {word : List Char} (spelt : word.map Char.toLower = "by".toList) :
    Clause.ofWord? word = none := by
  unfold Clause.ofWord?
  rw [spelt]
  decide

theorem keyword_notBy {s : List Char} {k : Clause × Nat}
    (found : Clause.keyword? s = some k) : NotBy s := by
  obtain ⟨c, t, rfl, word⟩ := keyword_head found
  have start : (c :: t).dropWhile isBlank = c :: t :=
    List.dropWhile_cons_of_neg (by simp [word_not_blank word])
  unfold NotBy
  rw [start, beq_eq_false_iff_ne]
  intro spelt
  rw [keyword_eq] at found
  have order : isOrder ((c :: t).takeWhile isWordChar) = false := by
    unfold isOrder
    rw [spelt]
    decide
  rw [order, ofWord_by spelt] at found
  cases found

theorem keyword_label (clause : Clause) {after : List Char} (opens : Opens after) :
    Clause.keyword? (clause.label.toList ++ after) = some (clause, clause.label.length) := by
  have alone : Clause.keyword? clause.label.toList = some (clause, clause.label.length) := by
    cases clause <;> decide
  exact keyword_stays (opens_apart opens _) (by cases clause <;> decide) alone

end MigrationPlan.Query
