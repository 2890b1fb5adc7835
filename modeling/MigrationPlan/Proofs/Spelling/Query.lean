import MigrationPlan.Proofs.Query.Entry
import MigrationPlan.Proofs.Query.Keyword
import MigrationPlan.Proofs.Text.Case
import MigrationPlan.Query.Parser

/- Queries in lowercase. Reading the lowercase of a text gives the query of the text with its names
   in lowercase, and fails where reading the text fails. -/
namespace MigrationPlan
open Text

namespace Entry

def folded : Entry → Entry
  | plain name => plain (fold name)
  | path text => path (fold text)
  | composite parts => composite (parts.map fold)
  | expression text => expression (fold text)

@[simp] theorem folded_folded (e : Entry) : e.folded.folded = e.folded := by
  cases e <;> simp [folded]

@[simp] theorem map_folded_folded (l : List Entry) : (l.map folded).map folded = l.map folded := by
  rw [List.map_map]
  exact List.map_congr_left fun e _ => e.folded_folded

@[simp] theorem key_folded (e : Entry) : e.folded.key = fold e.key := by
  cases e with
  | composite parts =>
    have marks : fold "$$" = "$$" ∧ fold "$" = "$" := by decide +kernel
    rw [folded, key, key, fold_append, fold_intercalate, marks.1, marks.2]
  | plain name => rfl
  | path text => rfl
  | expression text => rfl

@[simp] theorem plainName_folded (e : Entry) : e.folded.plainName? = e.plainName?.map fold := by
  cases e <;> rfl

theorem plainNames_folded (l : List Entry) :
    (l.map folded).filterMap plainName? = (l.filterMap plainName?).map fold := by
  rw [List.filterMap_map, List.map_filterMap]
  exact List.filterMap_congr fun e _ => e.plainName_folded

@[simp] theorem isNamed_folded (e : Entry) (name : String) :
    e.folded.isNamed name = e.isNamed name := by
  rw [isNamed, key_folded, sameName_fold_left, isNamed]

@[simp] theorem isNamed_fold (e : Entry) (name : String) :
    e.isNamed (fold name) = e.isNamed name := by
  rw [isNamed, sameName_fold_right, isNamed]

theorem keptParts_lower (s : List Char) : keptParts (lower s) = (keptParts s).map lower := by
  rw [keptParts, splitOn_lower (by decide), kept_lower, keptParts]

theorem read_unmarked {s : List Char} (unmarked : ∀ rest, trim s ≠ '$' :: '$' :: rest) :
    read s =
      if (trim s).contains '(' || (trim s).contains ' ' then expression (String.ofList (trim s))
      else if (trim s).contains '.' then path (String.ofList (trim s))
      else plain (String.ofList (trim s)) := by
  unfold read
  split
  · next rest marked => exact absurd marked (unmarked rest)
  · rfl

theorem read_lower (s : List Char) : read (lower s) = (read s).folded := by
  by_cases mark : ∃ rest, trim s = '$' :: '$' :: rest
  · obtain ⟨rest, marked⟩ := mark
    have marked' : trim (lower s) = '$' :: '$' :: lower rest := by
      rw [trim_lower, marked]
      rfl
    rw [read_marked marked, read_marked marked', keptParts_lower, folded,
      List.map_map, List.map_map]
    congr 1
    exact List.map_congr_left fun part _ => (fold_ofList part).symm
  · rw [not_exists] at mark
    have unmarked : ∀ rest, trim (lower s) ≠ '$' :: '$' :: rest := by
      rw [trim_lower]
      exact unmarked_lower (by decide) mark
    rw [read_unmarked mark, read_unmarked unmarked, trim_lower, contains_lower (by decide),
      contains_lower (by decide), contains_lower (by decide)]
    split
    · rw [folded, fold_ofList]
    · split
      · rw [folded, fold_ofList]
      · rw [folded, fold_ofList]

end Entry

namespace Query

def ParseError.folded : ParseError → ParseError
  | .invalidObject text => .invalidObject (fold text)
  | .invalidNumber clause value => .invalidNumber clause (fold value)
  | e => e

def foldedBy {α β : Type} (f : α → β) : Except ParseError α → Except ParseError β
  | .ok a => .ok (f a)
  | .error e => .error e.folded

theorem foldedBy_bind {α β γ δ : Type} {f : α → β} {g : γ → δ} (e : Except ParseError α)
    {next : α → Except ParseError γ} {next' : β → Except ParseError δ}
    (each : ∀ a, next' (f a) = foldedBy g (next a)) :
    (foldedBy f e).bind next' = foldedBy g (e.bind next) := by
  cases e with
  | error e => rfl
  | ok a => exact each a

theorem foldedBy_map {α β γ δ : Type} {f : α → β} {g : γ → δ} (e : Except ParseError α)
    {make : α → γ} {make' : β → δ} (each : ∀ a, make' (f a) = g (make a)) :
    (foldedBy f e).map make' = foldedBy g (e.map make) := by
  cases e with
  | error e => rfl
  | ok a => exact congrArg Except.ok (each a)

/-! Where clauses begin. -/

theorem next_toLower (place : Place) (c : Char) : place.next? c.toLower = place.next? c := by
  cases place <;> simp [Place.next?, toLower_eq_iff]

theorem boundary_toLower (c : Char) : isBoundary c.toLower = isBoundary c := by
  rw [isBoundary, isBoundary, caseBlind_blank c, toLower_beq (by decide), toLower_beq (by decide)]

theorem keyword_lower (s : List Char) : Clause.keyword? (lower s) = Clause.keyword? s := by
  have order : ∀ word, isOrder (lower word) = isOrder word := by
    intro word
    rw [isOrder, isOrder]
    exact congrArg (· == "order".toList) (lower_lower word)
  have word : ∀ word, Clause.ofWord? (lower word) = Clause.ofWord? word := by
    intro word
    unfold Clause.ofWord?
    congr 1
    funext c
    exact congrArg (c.label.toList.map Char.toLower == ·) (lower_lower word)
  have orderBy : ∀ word rest, orderBy? (lower word) (lower rest) = orderBy? word rest := by
    intro word rest
    have second : ∀ word, (lower word).map Char.toLower = word.map Char.toLower := lower_lower
    simp only [orderBy?, caseBlind_blank.takeWhile, caseBlind_blank.dropWhile,
      caseBlind_word.takeWhile, second, isEmpty_lower, length_lower]
  rw [keyword_eq, keyword_eq, caseBlind_word.takeWhile, caseBlind_word.dropWhile, order, orderBy,
    word, length_lower]

def Piece.folded (p : Piece) : Piece := { p with text := lower p.text }

theorem body_folded (p : Piece) : p.folded.body = lower p.body := by
  rw [Piece.body, Piece.folded, lower_drop, trim_lower, Piece.body]

theorem cut_lower (boundary : Bool) (place : Place) (s : List Char) :
    cut boundary place (lower s) =
      foldedBy (fun p => (lower p.1, p.2.map Piece.folded)) (cut boundary place s) := by
  induction s generalizing boundary place with
  | nil =>
    rcases place with ⟨_ | _⟩ | _ | _ <;> rfl
  | cons c s ih =>
    -- marks and the starts of keywords stand at the same places, so that the cuts differ in their
    -- letters alone
    have keyword :
        ∀ b, topKeyword? b place (c.toLower :: lower s) = topKeyword? b place (c :: s) := by
      intro b
      rw [topKeyword?, ← lower_cons, keyword_lower, topKeyword?]
    rw [lower_cons, cut, cut, next_toLower, boundary_toLower]
    cases place.next? c with
    | none => rfl
    | some place' =>
      simp only [ih, keyword]
      cases cut (isBoundary c) place' s with
      | error e => rfl
      | ok p =>
        simp only [foldedBy]
        cases topKeyword? boundary place (c :: s) <;> rfl

/-! The bodies of clauses. -/

theorem splitEntries_lower (quoted : Bool) (depth : Int) (s : List Char) :
    splitEntries quoted depth (lower s) = (splitEntries quoted depth s).map lower := by
  induction s generalizing quoted depth with
  | nil => rfl
  | cons c s ih =>
    have mark : ∀ {k : Char}, k.isAlpha = false → (c.toLower = k ↔ c = k) := toLower_eq_iff
    have longer : ∀ l : List (List Char),
        (l.map lower).modifyHead (c.toLower :: ·) = (l.modifyHead (c :: ·)).map lower := by
      intro l
      cases l <;> rfl
    simp only [lower_cons, splitEntries, ih, mark (k := '\'') (by decide),
      mark (k := '(') (by decide), mark (k := ')') (by decide), mark (k := ',') (by decide), longer]
    split_ifs <;> rfl

theorem readEntries_lower (position : Nat) (parts : List (List Char)) :
    readEntries position (parts.map lower) =
      foldedBy (List.map Entry.folded) (readEntries position parts) := by
  induction parts generalizing position with
  | nil => rfl
  | cons part parts ih =>
    rw [List.map_cons, readEntries, readEntries, trim_lower, isEmpty_lower, ih]
    split
    · rfl
    · exact foldedBy_map _ fun l => congrArg (· :: l.map Entry.folded) (Entry.read_lower part)

theorem readSelection_lower (body : List Char) :
    readSelection (lower body) = foldedBy (List.map Entry.folded) (readSelection body) := by
  rw [readSelection, readSelection, isEmpty_lower, splitEntries_lower, readEntries_lower]
  split <;> rfl

theorem readObject_lower (body : List Char) :
    readObject (lower body) = foldedBy fold (readObject body) := by
  have name : isObjectName (lower body) = isObjectName body := by
    rw [isObjectName, isObjectName, isEmpty_lower, lower, List.all_map, caseBlind_word.comp]
  rw [readObject, readObject, name]
  split
  · rw [foldedBy, fold_ofList]
  · rw [foldedBy, ParseError.folded, fold_ofList]

theorem readText_lower (clause : Clause) (body : List Char) :
    readText clause (lower body) = foldedBy fold (readText clause body) := by
  rw [readText, readText, isEmpty_lower]
  split
  · rfl
  · rw [foldedBy, fold_ofList]

theorem readNumber_lower (clause : Clause) (body : List Char) :
    readNumber clause (lower body) = foldedBy id (readNumber clause body) := by
  rw [readNumber, readNumber, readWord64_lower]
  cases readWord64? body with
  | some n => rfl
  | none => rw [foldedBy, ParseError.folded, fold_ofList]

def folded (q : Query) : Query where
  object := fold q.object
  entries := q.entries.map Entry.folded
  filter := q.filter.map fold
  ordering := q.ordering.map fold
  limit := q.limit
  offset := q.offset

@[simp] theorem folded_folded (q : Query) : q.folded.folded = q.folded := by
  simp [folded, Function.comp_def]

theorem entries_alike {q q' : Query} (same : q.folded = q'.folded) {l l' : List Entry}
    (entries : l.map Entry.folded = l'.map Entry.folded) :
    ({ q with entries := l } : Query).folded = ({ q' with entries := l' } : Query).folded := by
  simp only [folded, Query.mk.injEq] at same ⊢
  exact ⟨same.1, entries, same.2.2⟩

theorem readClause_folded (q : Query) (p : Piece) :
    readClause q.folded p.folded = foldedBy folded (readClause q p) := by
  have clause : p.folded.clause = p.clause := rfl
  unfold readClause
  rw [clause, body_folded]
  cases p.clause with
  | selection =>
    simp only [readSelection_lower]
    exact foldedBy_map _ fun _ => rfl
  | object =>
    simp only [readObject_lower]
    exact foldedBy_map _ fun _ => rfl
  | filter =>
    simp only [readText_lower]
    exact foldedBy_map _ fun _ => rfl
  | ordering =>
    simp only [readText_lower]
    exact foldedBy_map _ fun _ => rfl
  | limit =>
    simp only [readNumber_lower]
    exact foldedBy_map _ fun _ => rfl
  | offset =>
    simp only [readNumber_lower]
    exact foldedBy_map _ fun _ => rfl

theorem readClauses_folded (q : Query) (ps : List Piece) :
    readClauses q.folded (ps.map Piece.folded) = foldedBy folded (readClauses q ps) := by
  induction ps generalizing q with
  | nil => rfl
  | cons p ps ih =>
    rw [List.map_cons, readClauses, readClauses, readClause_folded]
    exact foldedBy_bind _ ih

theorem checkOrder_folded (seen clauses : List Clause) :
    foldedBy id (checkOrder seen clauses) = checkOrder seen clauses := by
  induction clauses generalizing seen with
  | nil => rfl
  | cons c clauses ih =>
    rw [checkOrder]
    split_ifs
    · rfl
    · rfl
    · exact ih (c :: seen)

/-- Reading the lowercase of a text reads the text, in lowercase. -/
theorem parse_fold (s : String) : parse (fold s) = foldedBy folded (parse s) := by
  rw [parse, toList_fold, trim_lower, parse]
  generalize trim s.toList = s
  rw [parseTrimmed, parseTrimmed, isEmpty_lower, pieces, cut_lower, pieces]
  split
  · rfl
  · refine foldedBy_bind _ fun p => ?_
    obtain ⟨lead, ps⟩ := p
    have starts :
        startsWithSelect (lower lead) (ps.map Piece.folded) = startsWithSelect lead ps := by
      rw [startsWithSelect, startsWithSelect, isEmpty_lower, List.head?_map, Option.any_map]
      rfl
    have clauses : (ps.map Piece.folded).map Piece.clause = ps.map Piece.clause := by
      rw [List.map_map]
      rfl
    have objects :
        (ps.map Piece.folded).all (·.clause ≠ .object) = ps.all (·.clause ≠ .object) := by
      rw [List.all_map]
      rfl
    simp only [starts, clauses, objects]
    split
    · rfl
    · -- errors of the order name keywords only, so that they are in lowercase as they are
      nth_rewrite 1 [← checkOrder_folded]
      refine foldedBy_bind _ fun _ => ?_
      have blank : ({} : Query).folded = {} := by decide +kernel
      split
      · rfl
      · rw [← readClauses_folded, blank]

theorem compose_folded (q : Query) : fold q.folded.compose = fold q.compose := by
  have keys : q.folded.keys.map fold = q.keys.map fold := by
    simp only [keys, folded, List.map_map]
    exact List.map_congr_left fun e _ => by simp
  have clause : ∀ (keyword : String) (value : Option String),
      fold (clauseText keyword (value.map fold)) = fold (clauseText keyword value) := by
    intro keyword value
    cases value <;> simp [clauseText]
  have object : fold q.folded.object = fold q.object := fold_fold _
  have filter := clause "WHERE" q.filter
  have ordering := clause "ORDER BY" q.ordering
  simp only [compose, fold_append, fold_intercalate, keys, object]
  rw [← filter, ← ordering]
  rfl

theorem compose_alike {q q' : Query} (same : q.folded = q'.folded) :
    fold q.compose = fold q'.compose := by
  rw [← compose_folded, same, compose_folded]

end Query

end MigrationPlan
