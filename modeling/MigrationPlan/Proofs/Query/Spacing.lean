import MigrationPlan.Proofs.Query.Body
import MigrationPlan.Proofs.Query.Entry

/- Keys are scanned as the entries that they were read from. Between words only blanks, dollar signs
   and commas are taken away or added. They leave the scan where it was, but for one that a
   backslash takes with it: that is why places are compared by how the next character settles
   them. -/
namespace MigrationPlan.Query
open Text

def Place.settled : Place → Place
  | .escaped depth => .literal depth
  | place => place

theorem settled_settled (place : Place) : place.settled.settled = place.settled := by
  cases place <;> rfl

theorem settled_outside {place : Place} {depth : Nat} (h : place.settled = .outside depth) :
    place = .outside depth := by
  cases place with
  | outside d => exact h
  | literal d => cases h
  | escaped d => cases h

def isSpacer (c : Char) : Bool := isBlank c || c == '$' || c == ','

def Spacers (w : List Char) : Prop := ∀ c ∈ w, isSpacer c = true

theorem spacers_blank {w : List Char} (blank : Blank w) : Spacers w := by
  intro c member
  simp [isSpacer, blank c member]

theorem spacers_dollar : Spacers ['$'] := by
  intro c member
  rw [List.mem_singleton.mp member]
  decide

theorem spacer_not_word {c : Char} (spacer : isSpacer c = true) : isWordChar c = false := by
  simp only [isSpacer, Bool.or_eq_true, beq_iff_eq] at spacer
  rcases spacer with (blank | rfl) | rfl
  · exact blank_not_word blank
  · decide
  · decide

theorem next_spacer {c : Char} (spacer : isSpacer c = true) (place : Place) :
    place.next? c = some place.settled := by
  have quote := ne_of_test spacer (d := '\'') (by decide)
  have opening := ne_of_test spacer (d := '(') (by decide)
  have closing := ne_of_test spacer (d := ')') (by decide)
  have backslash := ne_of_test spacer (d := '\\') (by decide)
  cases place with
  | outside depth => simp [Place.next?, quote, opening, closing, Place.settled]
  | literal depth => simp [Place.next?, quote, backslash, Place.settled]
  | escaped depth => rfl

theorem scan_spacer {after s : List Char} {boundary : Bool} {place : Place} {c : Char}
    (spacer : isSpacer c = true) :
    scan after boundary place (c :: s) = scan after (isBoundary c) place.settled s := by
  have opens : Opens (c :: s ++ after) := opens_cons (spacer_not_word spacer) _
  exact scan_step (topKeyword_opens boundary place opens) (next_spacer spacer place)

theorem scan_spacers {w : List Char} (spacers : Spacers w) (after : List Char) (boundary : Bool)
    (place : Place) :
    ∃ place', scan after boundary place w = some place' ∧ place'.settled = place.settled := by
  induction w generalizing boundary place with
  | nil => exact ⟨place, rfl, rfl⟩
  | cons c w ih =>
    rw [scan_spacer (spacers c (List.mem_cons_self))]
    obtain ⟨place', scanned, same⟩ :=
      ih (fun d member => spacers d (List.mem_cons_of_mem _ member)) (isBoundary c) place.settled
    exact ⟨place', scanned, same.trans (settled_settled place)⟩

theorem scan_spacers_settled {after w : List Char} {boundary : Bool} {place : Place}
    (spacers : Spacers w)
    (settled : place.settled = place) : scan after boundary place w = some place := by
  induction w generalizing boundary with
  | nil => rfl
  | cons c w ih =>
    rw [scan_spacer (spacers c (List.mem_cons_self)), settled]
    exact ih fun d member => spacers d (List.mem_cons_of_mem _ member)

/-- Neither a word nor the gap within a keyword runs on into the text. -/
def Quiet (after : List Char) : Prop := ∀ d ∈ after.head?, isWordChar d = false ∧ isBlank d = false

theorem quiet_nil : Quiet [] := by
  intro d first
  cases first

theorem quiet_cons {c : Char} (noWord : isWordChar c = false) (noBlank : isBlank c = false)
    (s : List Char) :
    Quiet (c :: s) := by
  intro d first
  exact Option.some.inj first ▸ ⟨noWord, noBlank⟩

theorem quiet_opens {after : List Char} (quiet : Quiet after) : Opens after :=
  fun d first => (quiet d first).1

theorem quiet_notBy {after : List Char} (quiet : Quiet after) : NotBy after := by
  cases after with
  | nil => unfold NotBy; decide
  | cons c t =>
    obtain ⟨noWord, noBlank⟩ := quiet c rfl
    have start : (c :: t).dropWhile isBlank = c :: t :=
      List.dropWhile_cons_of_neg (by simp [noBlank])
    have none : (c :: t).takeWhile isWordChar = [] := List.takeWhile_cons_of_neg (by simp [noWord])
    unfold NotBy
    rw [start, none]
    decide

theorem opens_append {s t : List Char} (first : Opens s) (last : Opens t) : Opens (s ++ t) := by
  cases s with
  | nil => exact last
  | cons c s => exact first

theorem quiet_append {s t : List Char} (first : Quiet s) (last : Quiet t) : Quiet (s ++ t) := by
  cases s with
  | nil => exact last
  | cons c s => exact first

theorem opens_spacers {w : List Char} (spacers : Spacers w) : Opens w := by
  cases w with
  | nil => exact opens_nil
  | cons c w => exact opens_cons (spacer_not_word (spacers c (List.mem_cons_self))) w

theorem scan_weaken {after after' x : List Char} {boundary boundary' : Bool} {place place' : Place}
    (opens : Opens after) (quiet : Quiet after') (weaker : boundary' = true → boundary = true)
    (scanned : scan after boundary place x = some place') :
    scan after' boundary' place x = some place' := by
  induction x generalizing boundary boundary' place with
  | nil => exact scanned
  | cons c x ih =>
    unfold scan at scanned
    split at scanned
    · cases scanned
    · next noKeyword =>
      obtain ⟨next, entered, rest⟩ := Option.bind_eq_some_iff.mp scanned
      have none : topKeyword? boundary' place (c :: x ++ after') = none := by
        unfold topKeyword? at noKeyword ⊢
        split
        · next top =>
          rw [Bool.and_eq_true] at top
          rw [if_pos (by simp [weaker top.1, top.2]), Bool.not_eq_true, Option.isSome_eq_false_iff,
            Option.isNone_iff_eq_none] at noKeyword
          -- a keyword of the text alone would have been one before what followed it
          rw [keyword_seam (opens_apart (quiet_opens quiet) _) (by simp) (quiet_notBy quiet)]
          cases alone : Clause.keyword? (c :: x) with
          | none => rfl
          | some k =>
            rw [keyword_stays (opens_apart opens _) (by simp) alone] at noKeyword
            cases noKeyword
        · rfl
      rw [scan_step none entered]
      exact ih (fun same => same) rest

def dollars (l : List (List Char)) : List Char := l.flatMap fun u => '$' :: u

def kept (l : List (List Char)) : List (List Char) := (l.map trim).filter (! ·.isEmpty)

theorem dollars_intercalate {l : List (List Char)} (some : l ≠ []) :
    '$' :: ['$'].intercalate l = dollars l := by
  induction l with
  | nil => exact absurd rfl some
  | cons u l ih =>
    cases l with
    | nil => simp [dollars]
    | cons v rest =>
      have later := ih (by simp)
      rw [List.intercalate_cons_cons, List.append_assoc, List.singleton_append, later]
      rfl

theorem quiet_dollars (l : List (List Char)) : Quiet (dollars l) := by
  cases l with
  | nil => exact quiet_nil
  | cons u l => exact quiet_cons (by decide) (by decide) _

theorem scan_core {after u : List Char} {boundary : Bool} {place place' : Place}
    (opens : Opens after)
    (settled : place.settled = place) (scanned : scan after boundary place u = some place') :
    ∃ after' boundary' inner, Opens after' ∧ (boundary = true → boundary' = true) ∧
      scan after' boundary' place (trim u) = some inner ∧ inner.settled = place'.settled := by
  obtain ⟨a, b, blankA, blankB, split⟩ := trim_parts u
  rw [split, scan_append, scan_append] at scanned
  obtain ⟨inner, front, tail⟩ := Option.bind_eq_some_iff.mp scanned
  obtain ⟨start, lead, core⟩ := Option.bind_eq_some_iff.mp front
  rw [scan_spacers_settled (spacers_blank blankA) settled] at lead
  have atStart := Option.some.inj lead
  subst atStart
  obtain ⟨behind, reached, same⟩ :=
    scan_spacers (spacers_blank blankB) after (endsOpen boundary (a ++ trim u)) inner
  rw [tail] at reached
  have ends := Option.some.inj reached
  subst ends
  have entered : boundary = true → endsOpen boundary a = true := by
    intro isTrue
    cases last : a.getLast? with
    | none => rw [List.getLast?_eq_none_iff.mp last]; exact isTrue
    | some c =>
      rw [endsOpen_last last, isBoundary, blankA c (List.mem_of_getLast? last)]
      rfl
  exact ⟨_, _, inner, opens_append (opens_spacers (spacers_blank blankB)) opens, entered,
    core, same.symm⟩

/-- A text and the same text trimmed lead to places that the next character settles alike. -/
theorem scan_trim {after after' u : List Char} {boundary : Bool} (boundary' : Bool)
    {place place' : Place}
    (opens : Opens after) (quiet : Quiet after') (settled : place.settled = place)
    (weaker : boundary' = true → boundary = true)
    (scanned : scan after boundary place u = some place') :
    ∃ behind, scan after' boundary' place (trim u) = some behind ∧
      behind.settled = place'.settled := by
  obtain ⟨_, _, inner, opensCore, entered, core, same⟩ := scan_core opens settled scanned
  exact ⟨inner, scan_weaken opensCore quiet (fun isTrue => entered (weaker isTrue)) core, same⟩

theorem scan_kept {after after' : List Char} {boundary : Bool} (boundary' : Bool)
    {place place' behind : Place}
    {l : List (List Char)} (opens : Opens after) (quiet : Quiet after')
    (same : place'.settled = place.settled)
    (scanned : scan after boundary place (dollars l) = some behind) :
    ∃ behind', scan after' boundary' place' (dollars (kept l)) = some behind' ∧
      behind'.settled = behind.settled := by
  induction l generalizing boundary boundary' place place' with
  | nil =>
    have atEnd := Option.some.inj scanned
    subst atEnd
    exact ⟨place', rfl, same⟩
  | cons u l ih =>
    have whole : dollars (u :: l) = '$' :: (u ++ dollars l) := rfl
    rw [whole, scan_spacer (by decide), scan_append] at scanned
    obtain ⟨middle, first, rest⟩ := Option.bind_eq_some_iff.mp scanned
    cases empty : (trim u).isEmpty with
    | true =>
      -- the part is blank and dropped, and so is the dollar sign before it
      have dropped : kept (u :: l) = kept l := by
        rw [kept, List.map_cons, List.filter_cons_of_neg (by simp [empty])]
        rfl
      have blank := trim_eq_nil.mp (List.isEmpty_iff.mp empty)
      rw [scan_spacers_settled (spacers_blank blank) (settled_settled place)] at first
      have atMiddle := Option.some.inj first
      subst atMiddle
      rw [dropped]
      exact ih boundary' (same.trans (settled_settled place).symm) rest
    | false =>
      have stays : kept (u :: l) = trim u :: kept l := by
        rw [kept, List.map_cons, List.filter_cons_of_pos (by simp [empty])]
        rfl
      have whole' : dollars (trim u :: kept l) = '$' :: (trim u ++ dollars (kept l)) := rfl
      obtain ⟨middle', first', same'⟩ :=
        scan_trim false (opens_append (quiet_opens (quiet_dollars l)) opens)
          (quiet_append (quiet_dollars (kept l)) quiet) (settled_settled place) (by simp) first
      obtain ⟨behind', rest', sameEnd⟩ := ih (endsOpen (isBoundary '$') (trim u)) same' rest
      refine ⟨behind', ?_, sameEnd⟩
      have noBoundary : isBoundary '$' = false := by decide
      rw [stays, whole', scan_spacer (by decide), same, scan_append, noBoundary, first']
      rw [noBoundary] at rest'
      exact rest'

theorem scan_keyText {after after' u : List Char} {place place' : Place} (opens : Opens after)
    (quiet : Quiet after')
    (settled : place.settled = place) (scanned : scan after true place u = some place') :
    ∃ behind, scan after' true place (Entry.keyText u) = some behind ∧
      behind.settled = place'.settled := by
  by_cases mark : ∃ rest, trim u = '$' :: '$' :: rest
  · obtain ⟨rest, marked⟩ := mark
    have split := List.splitOn_ne_nil '$' rest
    have text : '$' :: rest = dollars (rest.splitOn '$') := by
      rw [← dollars_intercalate split, List.intercalate_splitOn]
    obtain ⟨_, _, inner, opensCore, _, core, same⟩ := scan_core opens settled scanned
    rw [marked, scan_spacer (by decide), settled, text] at core
    obtain ⟨behind', reached', same'⟩ := scan_kept false opensCore quiet rfl core
    have dollar : isBoundary '$' = false := by decide
    rw [Entry.keyText_marked marked, scan_spacer (by decide), settled, dollar]
    cases none : Entry.keptParts rest with
    | nil =>
      have nothing : dollars (kept (rest.splitOn '$')) = [] := by
        rw [show kept (rest.splitOn '$') = [] from none]
        rfl
      rw [nothing] at reached'
      have atEnd := Option.some.inj reached'
      refine ⟨place, ?_, by rw [atEnd]; exact same'.trans same⟩
      exact scan_spacers_settled spacers_dollar settled
    | cons v l =>
      have rest' : '$' :: ['$'].intercalate (v :: l) = dollars (kept (rest.splitOn '$')) := by
        rw [dollars_intercalate (by simp), ← none]
        rfl
      rw [rest']
      exact ⟨behind', reached', same'.trans same⟩
  · rw [not_exists] at mark
    rw [Entry.keyText_unmarked mark]
    exact scan_trim true opens quiet settled (fun _ => rfl) scanned

theorem scan_keys {after after' : List Char} {place place' : Place} {l : List (List Char)}
    (opens : Opens after) (quiet : Quiet after') (settled : place.settled = place)
    (scanned : scan after true place ([','].intercalate l) = some place') :
    ∃ behind, scan after' true place ([',', ' '].intercalate (l.map Entry.keyText)) = some behind ∧
      behind.settled = place'.settled := by
  induction l generalizing place with
  | nil => exact ⟨place', scanned, rfl⟩
  | cons u l ih =>
    cases l with
    | nil =>
      rw [List.intercalate_singleton] at scanned
      simpa using scan_keyText opens quiet settled scanned
    | cons v rest =>
      rw [List.intercalate_cons_cons, List.append_assoc, List.singleton_append,
        scan_append] at scanned
      obtain ⟨middle, first, later⟩ := Option.bind_eq_some_iff.mp scanned
      rw [scan_spacer (by decide)] at later
      obtain ⟨behind, later', sameEnd⟩ := ih (settled_settled middle) later
      -- in both texts a comma follows, so that no keyword runs on into what is behind it
      have comma : ∀ s : List Char, Quiet (',' :: s) := quiet_cons (by decide) (by decide)
      have separator : ∀ s t : List Char, Quiet ([',', ' '] ++ s ++ t) :=
        fun s t => comma (' ' :: s ++ t)
      obtain ⟨middle', first', sameMiddle⟩ :=
        scan_keyText (quiet_opens (comma _)) (separator _ after') settled first
      refine ⟨behind, ?_, sameEnd⟩
      rw [List.map_cons, List.map_cons, List.intercalate_cons_cons, List.append_assoc,
        scan_append, first', Option.bind_some, List.cons_append, scan_spacer (by decide),
        List.singleton_append, scan_spacer (by decide), settled_settled, sameMiddle]
      exact later'

/-- The canonical select list is clear where the list that it was read from is. -/
theorem keys_clear {l : List (List Char)} (clear : Clear ([','].intercalate l)) :
    Clear ([',', ' '].intercalate (l.map Entry.keyText)) := by
  obtain ⟨behind, scanned, same⟩ := scan_keys opens_nil quiet_nil rfl clear
  rw [settled_outside same] at scanned
  exact scanned

end MigrationPlan.Query
