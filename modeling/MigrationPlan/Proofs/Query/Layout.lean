import MigrationPlan.Proofs.Query.Headings
import MigrationPlan.Proofs.Query.Spacing

/- Clauses written one behind the other, with one blank between keyword, body and next clause. Clear
   bodies are found again where they were written. -/
namespace MigrationPlan.Query
open Text

/-- A text that is read as it is where it is the body of a clause. -/
structure Sound (body : List Char) : Prop where
  nonempty : body ≠ []
  trimmed : Trimmed body
  clear : Clear body

def written (b : Clause × List Char) : List Char := b.1.label.toList ++ ' ' :: b.2

def gapBefore : List (Clause × List Char) → List Char
  | [] => []
  | _ :: _ => [' ']

def layout : List (Clause × List Char) → List Piece
  | [] => []
  | b :: rest => ⟨b.1, b.1.label.length, written b ++ gapBefore rest⟩ :: layout rest

theorem textOf_layout (b : Clause × List Char) (bs : List (Clause × List Char)) :
    textOf (layout (b :: bs)) = written b ++ bs.flatMap fun b => ' ' :: written b := by
  induction bs generalizing b with
  | nil => simp [textOf, layout, gapBefore]
  | cons next bs ih =>
    have rest := ih next
    simp only [textOf, layout, gapBefore, List.flatMap_cons] at rest ⊢
    simp [rest]

theorem clauses_layout (bs : List (Clause × List Char)) :
    (layout bs).map Piece.clause = bs.map Prod.fst := by
  induction bs with
  | nil => rfl
  | cons b bs ih => simp [layout, ih]

theorem opens_blank (s : List Char) : Opens (' ' :: s) := opens_cons (by decide) s

theorem scan_word {after s : List Char} {depth : Nat} (word : ∀ c ∈ s, isWordChar c = true) :
    scan after false (.outside depth) s = some (.outside depth) := by
  induction s with
  | nil => rfl
  | cons c s ih =>
    have isWord := word c (List.mem_cons_self)
    have none : topKeyword? false (.outside depth) (c :: s ++ after) = none := by simp [topKeyword?]
    rw [scan_step none (next_outside (Or.inl isWord) depth), word_not_boundary isWord]
    exact ih fun d member => word d (List.mem_cons_of_mem _ member)

theorem clear_word {s : List Char} (word : ∀ c ∈ s, isWordChar c = true)
    (none : Clause.keyword? s = none) :
    Clear s := by
  cases s with
  | nil => rfl
  | cons c t =>
    have first := word c (List.mem_cons_self)
    have noKeyword : topKeyword? true (.outside 0) (c :: t ++ []) = .none := by
      simpa [topKeyword?] using none
    unfold Clear
    rw [scan_step noKeyword (next_outside (Or.inl first) 0), word_not_boundary first]
    exact scan_word fun d member => word d (List.mem_cons_of_mem _ member)

theorem endsOpen_word {s : List Char} (word : ∀ c ∈ s, isWordChar c = true) :
    endsOpen false s = false := by
  induction s with
  | nil => rfl
  | cons c s ih =>
    have onward := ih fun d member => word d (List.mem_cons_of_mem _ member)
    have step : endsOpen false (c :: s) = endsOpen (isBoundary c) s := rfl
    rw [step, word_not_boundary (word c (List.mem_cons_self)), onward]

theorem scan_blank_one (after : List Char) (boundary : Bool) (depth : Nat) :
    scan after boundary (.outside depth) [' '] = some (.outside depth) :=
  scan_spacers_settled (spacers_blank blank_space) rfl

theorem word_scans {c : Char} {t : List Char} (word : ∀ d ∈ c :: t, isWordChar d = true)
    (after : List Char) :
    scan after (isBoundary c) (.outside 0) t = some (.outside 0) ∧
      endsOpen (isBoundary c) t = false := by
  obtain ⟨first, rest⟩ := List.forall_mem_cons.mp word
  rw [word_not_boundary first]
  exact ⟨scan_word rest, endsOpen_word rest⟩

theorem endsOpen_blank {gap : List Char} (some : gap ≠ []) (blank : Blank gap) (boundary : Bool) :
    endsOpen boundary gap = true := by
  rw [endsOpen_last (List.getLast?_eq_some_getLast some), isBoundary,
    blank _ (List.getLast_mem some)]
  rfl

theorem spelt_scans {clause : Clause} {c : Char} {t after : List Char}
    (spelt : Spelt clause (c :: t)) (opens : Opens after) :
    scan after (isBoundary c) (.outside 0) t = some (.outside 0) ∧
      endsOpen (isBoundary c) t = false := by
  by_cases ordering : clause = .ordering
  · subst ordering
    obtain ⟨first, gap, second, whole, order, some, blank, by_⟩ := spelt
    cases first with
    | nil => exact absurd order (by decide)
    | cons d first =>
      cases second with
      | nil => exact absurd by_ (by decide)
      | cons e second =>
        obtain ⟨rfl, rfl⟩ : c = d ∧ t = first ++ gap ++ e :: second := List.cons.inj whole
        obtain ⟨scannedFirst, inFirst⟩ :=
          word_scans (alike_all caseBlind_word order (by decide)) (gap ++ (e :: second ++ after))
        have secondWord := alike_all caseBlind_word by_ (by decide)
        obtain ⟨scannedSecond, inSecond⟩ := word_scans secondWord after
        -- the gap opens a boundary, and the word behind it is no keyword by itself
        have opened := endsOpen_blank some blank
        have scannedGap : scan (e :: second ++ after) false (.outside 0) gap = .some (.outside 0) :=
          scan_spacers_settled (spacers_blank blank) rfl
        have noKeyword : topKeyword? true (.outside 0) (e :: second ++ after) = none :=
          keyword_by by_ opens
        constructor
        · rw [scan_append, scan_append, scannedFirst, Option.bind_some, inFirst, scannedGap,
            Option.bind_some, endsOpen_append, opened,
            scan_step noKeyword (next_outside (Or.inl (secondWord e List.mem_cons_self)) 0)]
          exact scannedSecond
        · rw [endsOpen_append]
          exact inSecond
  · have word : ∀ d ∈ c :: t, isWordChar d = true := by
      cases clause with
      | ordering => exact absurd rfl ordering
      | _ => exact alike_all caseBlind_word spelt (by decide)
    exact word_scans word after

theorem spelt_label (clause : Clause) : Spelt clause clause.label.toList := by
  cases clause with
  | ordering => exact ⟨"ORDER".toList, [' '], "BY".toList, rfl, rfl, by simp, blank_space, rfl⟩
  | _ => rfl

theorem label_head (clause : Clause) :
    ∃ c t, clause.label.toList = c :: t ∧ isWordChar c = true := by
  cases clause <;> exact ⟨_, _, rfl, by decide⟩

theorem layout_notBy (bs : List (Clause × List Char)) :
    NotBy (gapBefore bs ++ textOf (layout bs)) := by
  cases bs with
  | nil => unfold NotBy; decide
  | cons b bs =>
    apply notBy_blank blank_space
    rw [textOf_layout, written, List.append_assoc, List.cons_append]
    exact keyword_notBy (keyword_label b.1 (opens_blank _))

theorem layout_standing {bs : List (Clause × List Char)} (clear : ∀ b ∈ bs, Clear b.2) :
    Standing (layout bs) := by
  induction bs with
  | nil => trivial
  | cons b bs ih =>
    refine ⟨?_, ih fun d member => clear d (List.mem_cons_of_mem _ member)⟩
    obtain ⟨clause, body⟩ := b
    obtain ⟨c, t, label, word⟩ := label_head clause
    have scannedBody :
        scan (gapBefore bs ++ textOf (layout bs)) true (.outside 0) body = some (.outside 0) := by
      have opens : Opens (gapBefore bs ++ textOf (layout bs)) := by
        cases bs with
        | nil => exact opens_nil
        | cons b bs => exact opens_blank _
      rw [scan_seam (opens_apart opens body) (layout_notBy bs)]
      exact clear _ (List.mem_cons_self)
    have scannedGap : ∀ boundary,
        scan (textOf (layout bs)) boundary (.outside 0) (gapBefore bs) = some (.outside 0) := by
      intro boundary
      cases bs with
      | nil => rfl
      | cons b bs => exact scan_blank_one _ boundary 0
    obtain ⟨scannedLabel, inWord⟩ :=
      spelt_scans (label ▸ spelt_label clause)
        (opens_blank (body ++ (gapBefore bs ++ textOf (layout bs))))
    refine ⟨c, t ++ [' '] ++ body ++ gapBefore bs, .outside 0, ?_⟩
    exact
      { text := by simp [written, label]
        keyword := by
          have found :=
            keyword_label clause (opens_blank (body ++ (gapBefore bs ++ textOf (layout bs))))
          rw [label] at found
          simpa using found
        entered := next_outside (Or.inl word) 0
        closed := by
          have boundary : endsOpen (isBoundary c) (t ++ [' ']) = true := by
            rw [endsOpen_append]
            rfl
          rw [scan_append, scan_append, scan_append, boundary, inWord]
          simp only [List.append_assoc, List.cons_append, List.nil_append, scannedLabel,
            Option.bind_some, scan_blank_one, scannedBody, scannedGap]
        seam := by
          intro later
          cases bs with
          | nil => exact absurd rfl later
          | cons b bs =>
            rw [endsOpen_append]
            rfl }

theorem layout_trimmed {bs : List (Clause × List Char)} (sound : ∀ b ∈ bs, b.2 ≠ [] ∧ Trimmed b.2) :
    Trimmed (textOf (layout bs)) := by
  induction bs with
  | nil =>
    constructor
    · intro c member; cases member
    · intro c member; cases member
  | cons b bs ih =>
    have rest := ih fun d member => sound d (List.mem_cons_of_mem _ member)
    obtain ⟨c, t, label, word⟩ := label_head b.1
    have first : ∀ d ∈ b.1.label.toList.head?, isBlank d = false := by
      intro d member
      rw [label] at member
      have same : c = d := Option.some.inj member
      exact same ▸ word_not_blank word
    have last : ∀ d ∈ (' ' :: b.2 ++ gapBefore bs ++ textOf (layout bs)).getLast?,
        isBlank d = false := by
      intro d member
      cases bs with
      | nil =>
        have inBody :
            (' ' :: b.2 ++ gapBefore [] ++ textOf (layout [])).getLast? = b.2.getLast? := by
          simp [gapBefore, layout, textOf,
            List.getLast?_cons_of_ne_nil (sound b (List.mem_cons_self)).1]
        rw [inBody] at member
        exact (sound b (List.mem_cons_self)).2.last d member
      | cons next bs =>
        have nonempty : textOf (layout (next :: bs)) ≠ [] := by
          simp [textOf_layout, written]
        rw [List.getLast?_append_of_ne_nil _ nonempty] at member
        exact rest.last d member
    have whole :
        textOf (layout (b :: bs)) =
          b.1.label.toList ++ (' ' :: b.2 ++ gapBefore bs ++ textOf (layout bs)) := by
      simp [layout, textOf, written]
    rw [whole]
    exact trimmed_append first last (by simp [label]) (by simp)

theorem layout_bodies {bs : List (Clause × List Char)} (sound : ∀ b ∈ bs, Trimmed b.2) :
    (layout bs).map (fun q => (q.clause, q.body)) = bs := by
  induction bs with
  | nil => rfl
  | cons b bs ih =>
    have rest := ih fun d member => sound d (List.mem_cons_of_mem _ member)
    have blank : Blank (gapBefore bs) := by
      cases bs with
      | nil => exact blank_nil
      | cons b bs => exact blank_space
    have body : trim ((written b ++ gapBefore bs).drop b.1.label.length) = b.2 := by
      have cut :
          (written b ++ gapBefore bs).drop b.1.label.toList.length =
            [' '] ++ b.2 ++ gapBefore bs := by
        rw [written, List.append_assoc, List.drop_left]
        simp
      have around := trim_around b.2 blank_space blank
      rw [← String.length_toList, cut, around, trim_of_trimmed (sound b (List.mem_cons_self))]
    have entry : (⟨b.1, b.1.label.length, written b ++ gapBefore bs⟩ : Piece).body = b.2 := body
    simp only [layout, List.map_cons, rest, entry]

end MigrationPlan.Query
