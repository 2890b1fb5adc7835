import MigrationPlan.Proofs.Query.Composition

/- The commas of a select list. The search for keywords and the splitting of the list each follow
   the literals and parentheses of the text, and only the first knows that a backslash takes the
   next character with it. As long as no literal has a quote behind a backslash both are in step,
   and the list is split at its top-level commas. -/
namespace MigrationPlan.Query
open Text

/-- A text that ends at depth zero, and that no comma divides on the way. -/
structure Whole (place : Place) (u : List Char) : Prop where
  closed : place.after? u = some (.outside 0)
  undivided : ∀ before after, u = before ++ ',' :: after → place.after? before ≠ some (.outside 0)

/-- The parts of a text between its commas at depth zero and outside literals. -/
structure PartedAtTop (body : List Char) (parts : List (List Char)) : Prop where
  joined : [','].intercalate parts = body
  nonempty : parts ≠ []
  nested : ∀ u ∈ parts, Nested u 0
  undivided : ∀ u ∈ parts, ∀ before after, u = before ++ ',' :: after → ¬Nested before 0

/-- A literal of the text has a quote behind a backslash. -/
def EscapesQuote (s : List Char) : Prop :=
  ∃ before depth quoted after,
    s = before ++ '\'' :: quoted ++ ['\\'] ++ '\'' :: after ∧ Nested before depth ∧ Quoted quoted

def SelectionIn (s body : List Char) : Prop :=
  ∃ hs, Headings s hs ∧ (Clause.selection, body) ∈ bodiesIn s hs

theorem partedAtTop_iff {body : List Char} {parts : List (List Char)} :
    PartedAtTop body parts ↔
      [','].intercalate parts = body ∧ parts ≠ [] ∧ ∀ u ∈ parts, Whole (.outside 0) u := by
  constructor
  · intro h
    refine ⟨h.joined, h.nonempty, fun u member => ⟨after_nested (h.nested u member), ?_⟩⟩
    intro before after split reached
    exact h.undivided u member before after split (nested_iff.mpr reached)
  · rintro ⟨joined, nonempty, whole⟩
    refine ⟨joined, nonempty, fun u member => nested_iff.mpr (whole u member).closed, ?_⟩
    intro u member before after split nested
    exact (whole u member).undivided before after split (after_nested nested)

/-! There is one way to part a text at its top-level commas. -/

theorem Whole.cons {place place' : Place} {c : Char} {u : List Char}
    (entered : place.next? c = some place')
    (undivided : ¬(c = ',' ∧ place = .outside 0)) (whole : Whole place' u) :
    Whole place (c :: u) where
  closed := by rw [after_cons, entered, Option.bind_some, whole.closed]
  undivided before after split reached := by
    cases before with
    | nil =>
      obtain ⟨comma, _⟩ := List.cons.inj split
      exact undivided ⟨comma, Option.some.inj reached⟩
    | cons d before =>
      obtain ⟨rfl, later⟩ := List.cons.inj split
      rw [after_cons, entered] at reached
      exact whole.undivided before after later reached

theorem exists_whole {place : Place} {s : List Char} (closed : place.after? s = some (.outside 0)) :
    ∃ u parts, [','].intercalate (u :: parts) = s ∧ Whole place u ∧
      ∀ v ∈ parts, Whole (.outside 0) v := by
  induction s generalizing place with
  | nil =>
    refine ⟨[], [], rfl, ⟨closed, ?_⟩, by simp⟩
    intro before after split
    simp at split
  | cons c s ih =>
    rw [after_cons] at closed
    obtain ⟨place', entered, rest⟩ := Option.bind_eq_some_iff.mp closed
    obtain ⟨u, parts, joined, whole, later⟩ := ih rest
    by_cases divides : c = ',' ∧ place = .outside 0
    · obtain ⟨rfl, rfl⟩ := divides
      obtain rfl : place' = .outside 0 := (Option.some.inj entered).symm
      refine ⟨[], u :: parts, ?_, ⟨rfl, ?_⟩, List.forall_mem_cons.mpr ⟨whole, later⟩⟩
      · rw [List.intercalate_cons_cons, joined]
        rfl
      · intro before after split
        simp at split
    · refine ⟨c :: u, parts, ?_, whole.cons entered divides, later⟩
      have first : [','].intercalate ((c :: u) :: parts) = c :: [','].intercalate (u :: parts) :=
        intercalate_modifyHead (List.cons_ne_nil u parts)
      rw [first, joined]

theorem Whole.unique {place : Place} {u v r t : List Char} (left : Whole place u)
    (right : Whole place v) (same : u ++ r = v ++ t) (behind : ∀ c ∈ r.head?, c = ',')
    (behind' : ∀ c ∈ t.head?, c = ',') : u = v ∧ r = t := by
  have shorter : ∀ {u v r t w : List Char}, Whole place u → Whole place v →
      (∀ c ∈ r.head?, c = ',') → v = u ++ w →
      r = w ++ t → w = [] := by
    intro u v r t w left right behind longer rest
    cases w with
    | nil => rfl
    | cons c w =>
      rw [rest] at behind
      obtain rfl : c = ',' := behind c rfl
      exact absurd left.closed (right.undivided u w longer)
  rcases List.append_eq_append_iff.mp same with ⟨w, longer, rest⟩ | ⟨w, longer, rest⟩
  · obtain rfl := shorter left right behind longer rest
    exact ⟨by simpa using longer.symm, by simpa using rest⟩
  · obtain rfl := shorter right left behind' longer rest
    exact ⟨by simpa using longer, by simpa using rest.symm⟩

theorem comma_intercalate {parts : List (List Char)} (nonempty : parts ≠ []) :
    ',' :: [','].intercalate parts = parts.flatMap (',' :: ·) := by
  induction parts with
  | nil => exact absurd rfl nonempty
  | cons u parts ih =>
    cases parts with
    | nil => simp
    | cons v parts => simpa [List.intercalate_cons_cons] using ih (by simp)

theorem head_commas (parts : List (List Char)) :
    ∀ c ∈ (parts.flatMap (',' :: ·)).head?, c = ',' := by
  cases parts <;> simp

theorem whole_unique {parts others : List (List Char)} (whole : ∀ u ∈ parts, Whole (.outside 0) u)
    (whole' : ∀ u ∈ others, Whole (.outside 0) u)
    (same : parts.flatMap (',' :: ·) = others.flatMap (',' :: ·)) :
    parts = others := by
  induction parts generalizing others with
  | nil =>
    cases others with
    | nil => rfl
    | cons v others => simp at same
  | cons u parts ih =>
    cases others with
    | nil => simp at same
    | cons v others =>
      obtain ⟨first, rest⟩ := List.forall_mem_cons.mp whole
      obtain ⟨first', rest'⟩ := List.forall_mem_cons.mp whole'
      simp only [List.flatMap_cons, List.cons_append, List.cons.injEq, true_and] at same
      obtain ⟨rfl, later⟩ := first.unique first' same (head_commas parts) (head_commas others)
      rw [ih rest rest' later]

theorem partedAtTop_unique {body : List Char} (nested : Nested body 0) :
    ∃! parts, PartedAtTop body parts := by
  obtain ⟨u, parts, joined, first, later⟩ := exists_whole (after_nested nested)
  have whole : ∀ v ∈ u :: parts, Whole (.outside 0) v := List.forall_mem_cons.mpr ⟨first, later⟩
  refine ⟨u :: parts, partedAtTop_iff.mpr ⟨joined, by simp, whole⟩, ?_⟩
  intro others parted
  obtain ⟨joined', nonempty', whole'⟩ := partedAtTop_iff.mp parted
  apply whole_unique whole' whole
  rw [← comma_intercalate nonempty', ← comma_intercalate (List.cons_ne_nil u parts),
    joined, joined']

/-! In step with the search for keywords. -/

def Place.seen : Place → Bool × Int
  | .outside depth => (false, depth)
  | .literal depth | .escaped depth => (true, depth)

theorem pass_seen {place place' : Place} {c : Char} (entered : place.next? c = some place')
    (unescaped : c = '\'' → ∀ depth, place ≠ .escaped depth)
    (undivided : ¬(c = ',' ∧ place = .outside 0)) :
    pass? place.seen.1 place.seen.2 c = some place'.seen := by
  cases place with
  | outside depth =>
    by_cases quote : c = '\''
    · subst quote
      cases entered
      rfl
    · obtain ⟨depth', rfl, passed⟩ := pass_outside quote (by simpa using undivided) entered
      exact passed
  | literal depth =>
    simp only [Place.next?] at entered
    split_ifs at entered with backslash quote
    · cases entered
      simp [pass?, Place.seen, backslash]
    · cases entered
      simp [pass?, Place.seen, quote]
    · cases entered
      simp [pass?, Place.seen, quote]
  | escaped depth =>
    have noQuote : c ≠ '\'' := fun quote => unescaped quote depth rfl
    cases entered
    simp [pass?, Place.seen, noQuote]

def Unescaped (place : Place) (s : List Char) : Prop :=
  ∀ before after depth, s = before ++ '\'' :: after → place.after? before ≠ some (.escaped depth)

theorem unescaped_of_not {s : List Char} (none : ¬EscapesQuote s) : Unescaped (.outside 0) s := by
  rintro before after depth rfl reached
  obtain ⟨first, quoted, rfl, nested, isQuoted⟩ := leadsTo_of_after reached
  exact none ⟨first, depth, quoted, after, rfl, nested, isQuoted⟩

theorem Unescaped.append {place place' : Place} {s t : List Char} (h : Unescaped place (s ++ t))
    (reached : place.after? s = some place') : Unescaped place s ∧ Unescaped place' t := by
  constructor
  · rintro before after depth rfl
    exact h before (after ++ t) depth (by simp)
  · rintro before after depth rfl behind
    refine h (s ++ before) after depth (by simp) ?_
    rw [after_append, reached, Option.bind_some, behind]

theorem walk_seen {place : Place} {u : List Char} (whole : Whole place u)
    (unescaped : Unescaped place u) :
    walk place.seen.1 place.seen.2 u = some (false, 0) := by
  induction u generalizing place with
  | nil =>
    obtain rfl : place = .outside 0 := Option.some.inj whole.closed
    rfl
  | cons c u ih =>
    have closed := whole.closed
    rw [after_cons] at closed
    obtain ⟨place', entered, rest⟩ := Option.bind_eq_some_iff.mp closed
    have undivided : ¬(c = ',' ∧ place = .outside 0) := by
      rintro ⟨rfl, rfl⟩
      exact whole.undivided [] u rfl rfl
    have passed := pass_seen entered (fun quote depth isEscaped => by
      rw [quote, isEscaped] at unescaped
      exact unescaped [] u depth rfl rfl) undivided
    have later : Whole place' u := by
      refine ⟨rest, fun before after split reached => ?_⟩
      refine whole.undivided (c :: before) after (by rw [split]; rfl) ?_
      rw [after_cons, entered, Option.bind_some, reached]
    have reached : place.after? [c] = some place' := by
      rw [after_cons, entered]
      rfl
    have behind : Unescaped place' u := (Unescaped.append (s := [c]) unescaped reached).2
    simp only [walk, passed, Option.bind_some]
    exact ih later behind

theorem Unescaped.behind_comma {s : List Char} (h : Unescaped (.outside 0) s) :
    Unescaped (.outside 0) (',' :: s) := by
  intro before after depth split reached
  cases before with
  | nil => cases split
  | cons c before =>
    obtain ⟨rfl, later⟩ := List.cons.inj split
    exact h before after depth later reached

theorem walk_whole {parts : List (List Char)} (whole : ∀ u ∈ parts, Whole (.outside 0) u)
    (unescaped : Unescaped (.outside 0) (parts.flatMap (',' :: ·))) :
    ∀ u ∈ parts, walk false 0 u = some (false, 0) := by
  induction parts with
  | nil => simp
  | cons u parts ih =>
    obtain ⟨first, rest⟩ := List.forall_mem_cons.mp whole
    have behindComma := (Unescaped.append (s := [',']) unescaped rfl).2
    obtain ⟨here, later⟩ := behindComma.append first.closed
    exact List.forall_mem_cons.mpr ⟨walk_seen first here, ih rest later⟩

/-- Where no quote is escaped, a list is split at its top-level commas. -/
theorem splitEntries_parted {body : List Char} {parts : List (List Char)}
    (parted : PartedAtTop body parts)
    (plain : ¬EscapesQuote body) : splitEntries false 0 body = parts := by
  obtain ⟨rfl, nonempty, whole⟩ := partedAtTop_iff.mp parted
  have unescaped := (unescaped_of_not plain).behind_comma
  rw [comma_intercalate nonempty] at unescaped
  exact splitEntries_intercalate (parts_of_walk nonempty (walk_whole whole unescaped))

/-! The select list of a query. -/

theorem selectionIn_iff {s body : List Char} {ps : List Piece} (cuts : pieces s = .ok ([], ps)) :
    SelectionIn s body ↔ ∃ p ∈ ps, p.clause = .selection ∧ p.body = body := by
  obtain ⟨_, found⟩ := pieces_eq_ok.mpr ⟨[], ps, cuts, rfl⟩
  have bodies := bodiesIn_pieces [] ps
  rw [← (cut_eq_ok.mp cuts).1] at bodies
  constructor
  · rintro ⟨hs, headings, member⟩
    rw [headings.unique found] at member
    obtain ⟨p, inPieces, same⟩ := List.mem_map.mp (bodies ▸ member)
    obtain ⟨clause, rfl⟩ := Prod.mk.inj same
    exact ⟨p, inPieces, clause, rfl⟩
  · rintro ⟨p, member, isSelection, rfl⟩
    refine ⟨_, found, bodies ▸ ?_⟩
    rw [← isSelection]
    exact List.mem_map_of_mem member

theorem readSelection_split {body : List Char} {l : List Entry}
    (read : readSelection body = .ok l) :
    l = (splitEntries false 0 body).map fun u => Entry.read (trim u) := by
  obtain ⟨parts, rfl, parted, _, rfl⟩ := readSelection_parts read
  rw [splitEntries_intercalate parted]
  exact List.map_congr_left fun u _ => (Entry.read_trim u).symm

theorem selection_read {t : String} {q : Query} (parsed : parse t = .ok q) :
    (∃ body, SelectionIn (trim t.toList) body) ∧
      ∀ body, SelectionIn (trim t.toList) body →
        Nested body 0 ∧ readSelection body = .ok q.entries := by
  rw [parse, parseTrimmed_eq_ok] at parsed
  obtain ⟨ps, cuts, inOrder, read⟩ := parsed
  have once : (ps.map Piece.clause).Nodup := by
    refine (inOrder_iff.mp inOrder).1.imp fun {a b} less same => ?_
    exact Nat.lt_irrefl _ (same ▸ less)
  have gives := ((readClauses_eq_ok once).mp read).1
  have clear := bodies_clear (cut_eq_ok.mp cuts).2.2.2
  constructor
  · obtain ⟨p, member, isSelection⟩ := List.mem_map.mp (inOrder_iff.mp inOrder).2.1
    exact ⟨p.body, (selectionIn_iff cuts).mpr ⟨p, member, isSelection, rfl⟩⟩
  · intro body selection
    obtain ⟨p, member, isSelection, rfl⟩ := (selectionIn_iff cuts).mp selection
    have given := gives p member
    rw [isSelection] at given
    exact ⟨(clear_iff.mp (clear p member)).1, given⟩

/-- The entries of a query are read from parts of its select list, with commas between them. There
    is one way to part the list at its top-level commas, and unless a literal has a quote behind a
    backslash the entries are read from these parts. -/
theorem entries_between_commas {t : String} {q : Query} (parsed : parse t = .ok q) :
    (∃ body, SelectionIn (trim t.toList) body) ∧
      ∀ body, SelectionIn (trim t.toList) body →
        (∃ parts, [','].intercalate parts = body ∧
          q.entries = parts.map fun u => Entry.read (trim u)) ∧
        (∃! parts, PartedAtTop body parts) ∧
        (¬EscapesQuote body → ∀ parts, PartedAtTop body parts →
          q.entries = parts.map fun u => Entry.read (trim u)) := by
  obtain ⟨there, reads⟩ := selection_read parsed
  refine ⟨there, fun body selection => ?_⟩
  obtain ⟨nested, read⟩ := reads body selection
  have split := readSelection_split read
  refine ⟨⟨_, splitEntries_join false 0 body, split⟩, partedAtTop_unique nested, ?_⟩
  intro plain parts parted
  rw [split, splitEntries_parted parted plain]

def formattedText : String :=
  "SELECT Id, FORMAT(',)', Name), (SELECT Id, Name FROM Contacts) FROM Account"

def formattedQuery : Query :=
  { object := "Account"
    entries :=
      [.plain "Id", .expression "FORMAT(',)', Name)",
        .expression "(SELECT Id, Name FROM Contacts)"] }

def formattedBody : List Char := "Id, FORMAT(',)', Name), (SELECT Id, Name FROM Contacts)".toList

theorem entries_between_commas_formatted :
    parse formattedText = .ok formattedQuery ∧
      SelectionIn (trim formattedText.toList) formattedBody ∧
      ¬EscapesQuote formattedBody ∧
      ∀ parts, PartedAtTop formattedBody parts →
        formattedQuery.entries = parts.map fun u => Entry.read (trim u) := by
  have parsed : parse formattedText = .ok formattedQuery := by decide +kernel
  have cuts : pieces (trim formattedText.toList) =
      .ok ([], [⟨.selection, 6, ("SELECT ".toList ++ formattedBody ++ [' '])⟩,
        ⟨.object, 4, "FROM Account".toList⟩]) := by
    decide +kernel
  have selection : SelectionIn (trim formattedText.toList) formattedBody :=
    (selectionIn_iff cuts).mpr ⟨_, List.mem_cons_self, rfl, by decide +kernel⟩
  have plain : ¬EscapesQuote formattedBody := by
    rintro ⟨before, depth, quoted, after, split, _⟩
    have backslash : '\\' ∈ formattedBody := by simp [split]
    revert backslash
    decide
  exact ⟨parsed, selection, plain,
    ((entries_between_commas parsed).2 formattedBody selection).2.2 plain⟩

def quotedText : String := "SELECT FORMAT('it\\'s'), Name FROM Account"

def quotedBody : List Char := "FORMAT('it\\'s'), Name".toList

/-- Two entries with a comma between them become one where the literal of the first has a quote in
    it. -/
theorem entries_swallowed :
    (parse quotedText = .ok { object := "Account",
                              entries := [.expression "FORMAT('it\\'s'), Name"] }) ∧
      SelectionIn (trim quotedText.toList) quotedBody ∧
      PartedAtTop quotedBody ["FORMAT('it\\'s')".toList, " Name".toList] ∧
      (["FORMAT('it\\'s')".toList, " Name".toList].map fun u => Entry.read (trim u)) =
        [.expression "FORMAT('it\\'s')", .plain "Name"] := by
  have cuts : pieces (trim quotedText.toList) =
      .ok ([], [⟨.selection, 6, ("SELECT ".toList ++ quotedBody ++ [' '])⟩,
        ⟨.object, 4, "FROM Account".toList⟩]) := by
    decide +kernel
  have whole : ∀ u ∈ ["FORMAT('it\\'s')".toList, " Name".toList],
      (Place.outside 0).after? u = some (.outside 0) ∧ ',' ∉ u := by
    decide +kernel
  refine ⟨by decide +kernel, ?_, ?_, by decide +kernel⟩
  · exact (selectionIn_iff cuts).mpr ⟨_, List.mem_cons_self, rfl, by decide +kernel⟩
  · refine ⟨by decide, by simp, fun u member => nested_iff.mpr (whole u member).1, ?_⟩
    rintro u member before after rfl
    exact absurd (by simp) (whole _ member).2

end MigrationPlan.Query
