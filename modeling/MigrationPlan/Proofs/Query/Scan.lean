import MigrationPlan.Proofs.Query.Keyword

/- Cutting a text into pieces, said without the recursion: the pieces make up the text, each starts
   with its keyword, and scanning the rest of a piece meets no other and ends at depth zero. -/
namespace MigrationPlan.Query
open Text

/-- Where the scan of a text ends that more text follows; none if a top-level keyword starts in it,
    or a parenthesis closes that none opened. -/
def scan (after : List Char) (boundary : Bool) (place : Place) : List Char → Option Place
  | [] => some place
  | c :: s =>
    if (topKeyword? boundary place (c :: s ++ after)).isSome then none
    else (place.next? c).bind fun place' => scan after (isBoundary c) place' s

def endsOpen (boundary : Bool) (s : List Char) : Bool := s.foldl (fun _ c => isBoundary c) boundary

theorem endsOpen_append (boundary : Bool) (s t : List Char) :
    endsOpen boundary (s ++ t) = endsOpen (endsOpen boundary s) t := List.foldl_append

theorem topKeyword_opens (boundary : Bool) (place : Place) {s : List Char} (opens : Opens s) :
    topKeyword? boundary place s = none := by
  unfold topKeyword?
  split
  · exact keyword_opens opens
  · rfl

theorem scan_step {after s : List Char} {boundary : Bool} {place place' : Place} {c : Char}
    (none : topKeyword? boundary place (c :: s ++ after) = none)
    (entered : place.next? c = some place') :
    scan after boundary place (c :: s) = scan after (isBoundary c) place' s := by
  simp only [scan, none, entered, Option.isSome_none, Bool.false_eq_true, ↓reduceIte,
    Option.bind_some]

theorem scan_append (after : List Char) (boundary : Bool) (place : Place) (s t : List Char) :
    scan after boundary place (s ++ t) =
      (scan (t ++ after) boundary place s).bind fun place' =>
        scan after (endsOpen boundary s) place' t := by
  induction s generalizing boundary place with
  | nil => rfl
  | cons c s ih =>
    simp only [List.cons_append, scan, List.append_assoc]
    split
    · rfl
    · cases place.next? c with
      | none => rfl
      | some place' => exact ih (isBoundary c) place'

/-- What follows plays no part unless a word or a keyword of two words runs on into it. -/
theorem scan_seam {s after : List Char} (apart : Apart s after) (notBy : NotBy after)
    (boundary : Bool) (place : Place) : scan after boundary place s = scan [] boundary place s := by
  induction s generalizing boundary place with
  | nil => rfl
  | cons c s ih =>
    have same :
        topKeyword? boundary place (c :: s ++ after) =
          topKeyword? boundary place (c :: s ++ []) := by
      unfold topKeyword?
      rw [keyword_seam apart (by simp) notBy, List.append_nil]
    unfold scan
    rw [same]
    have rest : ∀ place', scan after (isBoundary c) place' s = scan [] (isBoundary c) place' s := by
      intro place'
      by_cases empty : s = []
      · rw [empty]
        rfl
      · exact ih (apart_suffix (a := [c]) apart empty) (isBoundary c) place'
    simp only [rest]

def textOf (ps : List Piece) : List Char := ps.flatMap Piece.text

structure Piece.Stands (later : List Piece) (q : Piece) (c : Char) (s : List Char)
    (place : Place) : Prop where
  text : q.text = c :: s
  keyword : Clause.keyword? (c :: s ++ textOf later) = some (q.clause, q.keywordLength)
  entered : (Place.outside 0).next? c = some place
  closed : scan (textOf later) (isBoundary c) place s = some (.outside 0)
  seam : later ≠ [] → endsOpen (isBoundary c) s = true

def Standing : List Piece → Prop
  | [] => True
  | q :: later => (∃ c s place, q.Stands later c s place) ∧ Standing later

theorem cut_scan {after : List Char} {boundary : Bool} {place place' : Place} {s : List Char}
    (scanned : scan after boundary place s = some place') :
    cut boundary place (s ++ after) =
      (cut (endsOpen boundary s) place' after).map fun (lead, ps) => (s ++ lead, ps) := by
  induction s generalizing boundary place with
  | nil =>
    have same := Option.some.inj scanned
    subst same
    simp only [List.nil_append, endsOpen, List.foldl_nil]
    cases cut boundary place after with
    | error e => rfl
    | ok cutAfter => rfl
  | cons c s ih =>
    unfold scan at scanned
    split at scanned
    · cases scanned
    · next noKeyword =>
      obtain ⟨next, entered, rest⟩ := Option.bind_eq_some_iff.mp scanned
      have keyword : topKeyword? boundary place (c :: (s ++ after)) = none := by
        simpa using noKeyword
      have onward : endsOpen boundary (c :: s) = endsOpen (isBoundary c) s := rfl
      simp only [List.cons_append, cut, entered, ih rest, onward]
      cases cut (endsOpen (isBoundary c) s) place' after with
      | error e => rfl
      | ok cutAfter => simp [keyword, Except.map]

theorem cut_standing {ps : List Piece} (standing : Standing ps) (boundary : Bool)
    (open_ : ps ≠ [] → boundary = true) : cut boundary (.outside 0) (textOf ps) = .ok ([], ps) := by
  induction ps generalizing boundary with
  | nil => rfl
  | cons q later ih =>
    obtain ⟨⟨c, s, place, stands⟩, rest⟩ := standing
    have boundaryTrue := open_ (by simp)
    subst boundaryTrue
    have whole : textOf (q :: later) = c :: (s ++ textOf later) := by
      simp [textOf, stands.text]
    have keyword :
        topKeyword? true (.outside 0) (c :: (s ++ textOf later)) =
          some (q.clause, q.keywordLength) := by
      simpa [topKeyword?] using stands.keyword
    have tail := cut_scan stands.closed
    rw [ih rest _ stands.seam] at tail
    rw [whole]
    simp only [cut, stands.entered, tail, keyword, Except.map, List.append_nil]
    rw [← stands.text]

theorem cut_parts {boundary : Bool} {place : Place} {s lead : List Char} {ps : List Piece}
    (ok : cut boundary place s = .ok (lead, ps)) :
    s = lead ++ textOf ps ∧ scan (textOf ps) boundary place lead = some (.outside 0) ∧
      (ps ≠ [] → endsOpen boundary lead = true) ∧ Standing ps := by
  -- the invariant of the cut: what it has of the lead scans up to the pieces that it has found
  induction s generalizing boundary place lead ps with
  | nil =>
    unfold cut at ok
    split at ok
    · obtain ⟨rfl, rfl⟩ := Prod.mk.inj (Except.ok.inj ok)
      exact ⟨rfl, rfl, fun some => absurd rfl some, trivial⟩
    · cases ok
    · cases ok
  | cons c s ih =>
    unfold cut at ok
    cases entered : place.next? c with
    | none => simp [entered] at ok
    | some place' =>
      cases inner : cut (isBoundary c) place' s with
      | error e => simp [entered, inner] at ok
      | ok found =>
        obtain ⟨text, later⟩ := found
        obtain ⟨whole, scanned, seam, standing⟩ := ih inner
        simp only [entered, inner] at ok
        cases keyword : topKeyword? boundary place (c :: s) with
        | none =>
          simp only [keyword] at ok
          obtain ⟨rfl, rfl⟩ := Prod.mk.inj (Except.ok.inj ok)
          refine ⟨by rw [whole]; rfl, ?_, seam, standing⟩
          have none : topKeyword? boundary place (c :: text ++ textOf later) = none := by
            rw [List.cons_append, ← whole, keyword]
          simp only [scan, none, entered]
          exact scanned
        | some k =>
          obtain ⟨clause, length⟩ := k
          simp only [keyword] at ok
          obtain ⟨rfl, rfl⟩ := Prod.mk.inj (Except.ok.inj ok)
          unfold topKeyword? at keyword
          split at keyword
          · next top =>
            rw [Bool.and_eq_true, decide_eq_true_eq] at top
            obtain ⟨rfl, rfl⟩ := top
            refine ⟨by rw [whole]; rfl, rfl, fun _ => rfl, ⟨c, text, place', ?_⟩, standing⟩
            exact
              { text := rfl
                keyword := by rw [List.cons_append, ← whole]; exact keyword
                entered
                closed := scanned
                seam }
          · cases keyword

/-- Cutting a text into pieces succeeds exactly with the pieces that stand in it. -/
theorem cut_eq_ok {boundary : Bool} {place : Place} {s lead : List Char} {ps : List Piece} :
    cut boundary place s = .ok (lead, ps) ↔
      s = lead ++ textOf ps ∧ scan (textOf ps) boundary place lead = some (.outside 0) ∧
        (ps ≠ [] → endsOpen boundary lead = true) ∧ Standing ps := by
  constructor
  · exact cut_parts
  · rintro ⟨rfl, scanned, seam, standing⟩
    rw [cut_scan scanned, cut_standing standing _ seam]
    simp [Except.map]

end MigrationPlan.Query
