import MigrationPlan.Proofs.Query.Scan

/- The body of a piece scans by itself: neither the keyword before it nor the pieces behind it are
   needed to see that it holds no keyword and closes what it opens. -/
namespace MigrationPlan.Query
open Text

/-- A text that can be the body of a clause. -/
def Clear (body : List Char) : Prop := scan [] true (.outside 0) body = some (.outside 0)

theorem endsOpen_last {boundary : Bool} {s : List Char} {c : Char} (last : s.getLast? = some c) :
    endsOpen boundary s = isBoundary c := by
  obtain ⟨t, rfl⟩ := List.getLast?_eq_some_iff.mp last
  rw [endsOpen_append]
  rfl

theorem opens_dropWhile (s : List Char) : Opens (s.dropWhile isWordChar) := by
  intro c first
  cases rest : s.dropWhile isWordChar with
  | nil => rw [rest] at first; cases first
  | cons d t =>
    have value : c = d := by
      rw [rest] at first
      exact (Option.some.inj first).symm
    have stop := List.head_dropWhile_not isWordChar (l := s) (by simp [rest])
    simpa [rest, value] using stop

theorem keyword_parts {s : List Char} {clause : Clause} {length : Nat}
    (found : Clause.keyword? s = some (clause, length)) :
    ∃ word rest, s = word ++ rest ∧ word.length = length ∧ Opens rest ∧
      (∀ c ∈ word, isWordChar c = true ∨ isBlank c = true) ∧
      ∃ c, word.getLast? = some c ∧ isWordChar c = true := by
  obtain ⟨c, t, eq, first⟩ := keyword_head found
  have lastWord : ∀ (s : List Char), s.takeWhile isWordChar ≠ [] →
      ∃ c, (s.takeWhile isWordChar).getLast? = some c ∧ isWordChar c = true := by
    intro s nonempty
    exact ⟨_, List.getLast?_eq_some_getLast nonempty,
      List.mem_takeWhile_imp (List.getLast_mem nonempty)⟩
  have start : s.takeWhile isWordChar ≠ [] := by simp [eq, first]
  rw [keyword_eq] at found
  split at found
  · simp only [orderBy?] at found
    split at found
    · next spelt =>
      rw [Bool.and_eq_true, beq_iff_eq] at spelt
      have second : ((s.dropWhile isWordChar).dropWhile isBlank).takeWhile isWordChar ≠ [] := by
        intro empty
        rw [empty] at spelt
        exact absurd spelt.2 (by decide)
      refine ⟨s.takeWhile isWordChar ++ (s.dropWhile isWordChar).takeWhile isBlank
          ++ ((s.dropWhile isWordChar).dropWhile isBlank).takeWhile isWordChar,
        ((s.dropWhile isWordChar).dropWhile isBlank).dropWhile isWordChar, ?_, ?_,
        opens_dropWhile _, ?_, ?_⟩
      · simp only [List.append_assoc, List.takeWhile_append_dropWhile]
      · have length_eq := (Prod.mk.inj (Option.some.inj found)).2
        simp only [List.length_append]
        exact length_eq
      · intro c member
        rcases List.mem_append.mp member with front | word
        · rcases List.mem_append.mp front with word | blank
          · exact Or.inl (List.mem_takeWhile_imp word)
          · exact Or.inr (List.mem_takeWhile_imp blank)
        · exact Or.inl (List.mem_takeWhile_imp word)
      · rw [List.getLast?_append_of_ne_nil _ second]
        exact lastWord _ second
    · cases found
  · obtain ⟨k, _, eq_some⟩ := Option.map_eq_some_iff.mp found
    refine ⟨s.takeWhile isWordChar, s.dropWhile isWordChar, List.takeWhile_append_dropWhile.symm,
      (Prod.mk.inj eq_some).2, opens_dropWhile s, ?_, lastWord s start⟩
    intro c member
    exact Or.inl (List.mem_takeWhile_imp member)

theorem next_outside {c : Char} (plain : isWordChar c = true ∨ isBlank c = true) (depth : Nat) :
    (Place.outside depth).next? c = some (.outside depth) := by
  have other : ∀ d : Char, isWordChar d = false → isBlank d = false → c ≠ d := by
    intro d noWord noBlank same
    rw [same, noWord, noBlank] at plain
    simp at plain
  have quote := other '\'' (by decide) (by decide)
  have opening := other '(' (by decide) (by decide)
  have closing := other ')' (by decide) (by decide)
  simp [Place.next?, quote, opening, closing]

theorem scan_outside {after s : List Char} {boundary : Bool} {depth : Nat} {place : Place}
    (plain : ∀ c ∈ s, isWordChar c = true ∨ isBlank c = true)
    (scanned : scan after boundary (.outside depth) s = some place) : place = .outside depth := by
  induction s generalizing boundary with
  | nil => exact (Option.some.inj scanned).symm
  | cons c s ih =>
    unfold scan at scanned
    split at scanned
    · cases scanned
    · rw [next_outside (plain c (List.mem_cons_self)) depth] at scanned
      exact ih (fun d member => plain d (List.mem_cons_of_mem _ member)) scanned

theorem scan_blank_back {after s : List Char} {boundary : Bool} {place : Place} (blank : Blank s)
    (scanned : scan after boundary place s = some (.outside 0)) : place = .outside 0 := by
  induction s generalizing boundary place with
  | nil => exact Option.some.inj scanned
  | cons c s ih =>
    have blankC := blank c (List.mem_cons_self)
    unfold scan at scanned
    split at scanned
    · cases scanned
    · obtain ⟨place', entered, rest⟩ := Option.bind_eq_some_iff.mp scanned
      have reached := ih (fun d member => blank d (List.mem_cons_of_mem _ member)) rest
      subst reached
      cases place with
      | outside depth =>
        rw [next_outside (Or.inr blankC) depth] at entered
        exact Option.some.inj entered
      | literal depth =>
        have quote : c ≠ '\'' := ne_of_test blankC (by decide)
        simp only [Place.next?, quote, ↓reduceIte] at entered
        split at entered <;> cases entered
      | escaped depth => cases entered

theorem scan_opens {s : List Char} (opens : Opens s) (after : List Char) (boundary boundary' : Bool)
    (place : Place) :
    scan after boundary place s = scan after boundary' place s := by
  cases s with
  | nil => rfl
  | cons c s =>
    have start : Opens (c :: s ++ after) := opens
    unfold scan
    rw [topKeyword_opens boundary place start, topKeyword_opens boundary' place start]

theorem notBy_blank {b after : List Char} (blank : Blank b) (notBy : NotBy after) :
    NotBy (b ++ after) := by
  unfold NotBy
  rw [List.dropWhile_append_of_pos blank]
  exact notBy

theorem trim_clear {rest after : List Char} (opens : Opens rest) (apart : Apart rest after)
    (notBy : NotBy after)
    (scanned : scan after false (.outside 0) rest = some (.outside 0)) : Clear (trim rest) := by
  obtain ⟨a, b, blankA, blankB, split⟩ := trim_parts rest
  rw [split, scan_append, scan_append] at scanned
  obtain ⟨place, inner, tail⟩ := Option.bind_eq_some_iff.mp scanned
  obtain ⟨start, lead, body⟩ := Option.bind_eq_some_iff.mp inner
  have leadPlace := scan_outside (fun c member => Or.inr (blankA c member)) lead
  have bodyPlace := scan_blank_back blankB tail
  subst leadPlace
  subst bodyPlace
  have entered : scan (b ++ after) true (.outside 0) (trim rest) = some (.outside 0) := by
    -- a blank in front is a boundary; without one the text starts outside a word, where none is
    -- needed
    cases a with
    | nil =>
      have opensBody : Opens (trim rest) := by
        intro c first
        apply opens c
        rw [split, List.nil_append, List.head?_append, Option.mem_def.mp first]
        rfl
      rw [scan_opens opensBody _ true false]
      exact body
    | cons c a =>
      have boundary : endsOpen false (c :: a) = true := by
        have last := blankA _ (List.getLast_mem (l := c :: a) (by simp))
        rw [endsOpen_last (List.getLast?_eq_some_getLast (by simp))]
        simp [isBoundary, last]
      rwa [boundary] at body
  have apartBody : Apart (trim rest) (b ++ after) := by
    intro c d last first
    cases b with
    | nil =>
      have lastRest : rest.getLast? = some c := by
        rw [split, List.append_nil, List.getLast?_append, last]
        rfl
      exact apart c d lastRest first
    | cons e b =>
      have same : e = d := Option.some.inj first
      exact Or.inr (blank_not_word (same ▸ blankB e (List.mem_cons_self)))
  unfold Clear
  rwa [scan_seam apartBody (notBy_blank blankB notBy)] at entered

theorem standing_notBy {ps : List Piece} (standing : Standing ps) : NotBy (textOf ps) := by
  cases ps with
  | nil => unfold NotBy textOf; decide
  | cons next rest =>
    obtain ⟨⟨d, t, place, first⟩, _⟩ := standing
    have whole : textOf (next :: rest) = d :: t ++ textOf rest := by simp [textOf, first.text]
    rw [whole]
    exact keyword_notBy first.keyword

theorem Piece.Stands.apart {q : Piece} {later : List Piece} {c : Char} {s : List Char}
    {place : Place} (stands : q.Stands later c s place) : Apart (c :: s) (textOf later) := by
  intro d e last first
  by_cases alone : later = []
  · subst alone
    cases first
  · have seam : endsOpen false (c :: s) = true := stands.seam alone
    rw [endsOpen_last last] at seam
    exact Or.inl (boundary_not_word seam)

theorem body_clear {q : Piece} {later : List Piece} {c : Char} {s : List Char} {place : Place}
    (stands : q.Stands later c s place) (standing : Standing later) : Clear q.body := by
  have notBy := standing_notBy standing
  have apart := stands.apart
  have found := stands.keyword
  rw [keyword_seam apart (by simp) notBy] at found
  obtain ⟨word, rest, split, length, opens, plain, e, lastWord, isWord⟩ := keyword_parts found
  cases word with
  | nil => cases lastWord
  | cons d word =>
    rw [List.cons_append] at split
    obtain ⟨rfl, rfl⟩ := List.cons.inj split
    have body : q.body = trim rest := by
      rw [Piece.body, stands.text, ← List.cons_append, ← length, List.drop_left]
    have place0 : place = .outside 0 := by
      have entered := stands.entered
      rw [next_outside (plain c (List.mem_cons_self)) 0] at entered
      exact (Option.some.inj entered).symm
    have closed := stands.closed
    rw [scan_append, place0] at closed
    obtain ⟨behind, scannedWord, scannedRest⟩ := Option.bind_eq_some_iff.mp closed
    have outside :=
      scan_outside (fun x member => plain x (List.mem_cons_of_mem _ member)) scannedWord
    -- the keyword ends in a word, so that the scan of what is behind it starts at no boundary
    have inWord : endsOpen (isBoundary c) word = false := by
      have whole : endsOpen false (c :: word) = isBoundary e := endsOpen_last lastWord
      rw [word_not_boundary isWord] at whole
      exact whole
    rw [outside, inWord] at scannedRest
    rw [body]
    by_cases empty : rest = []
    · subst empty
      rfl
    · exact trim_clear opens (apart_suffix (a := c :: word) apart empty) notBy scannedRest

theorem bodies_clear {ps : List Piece} (standing : Standing ps) : ∀ q ∈ ps, Clear q.body := by
  induction ps with
  | nil =>
    intro q member
    cases member
  | cons p later ih =>
    obtain ⟨⟨c, s, place, stands⟩, rest⟩ := standing
    intro q member
    rcases List.mem_cons.mp member with rfl | inLater
    · exact body_clear stands rest
    · exact ih rest q inLater

end MigrationPlan.Query
