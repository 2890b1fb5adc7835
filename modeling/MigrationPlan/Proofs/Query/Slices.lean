import MigrationPlan.Proofs.Query.Search

/- The slices of a text between its markers. None is out of bounds, and they make up the text from
   the first marker on, so the parser reads each body as a slice. -/
namespace MigrationPlan.Query
open Text

def stopAt (t : String) (next : Option Marker) : Nat := next.elim t.utf8ByteSize Marker.start

/-- Markers that bound keywords, each with some text, and bodies up to the next marker, all between
    characters. -/
inductive Laid (t : String) : List Marker → Prop
  | nil : Laid t []
  | cons {m : Marker} {later : List Marker}
      (start : (⟨m.start⟩ : String.Pos.Raw).IsValid t)
      (body : (⟨m.body⟩ : String.Pos.Raw).IsValid t)
      (keyword : m.start < m.body) (stop : m.body ≤ stopAt t later.head?) (rest : Laid t later) :
      Laid t (m :: later)

def slices (t : String) : List Marker → Except Halt (List String)
  | [] => .ok []
  | m :: later =>
    (slice t m.start m.body).bind fun keyword =>
      (slice t m.body (stopAt t later.head?)).bind fun body =>
        (slices t later).map fun rest => keyword :: body :: rest

def readMarked (t : String) (q : Query) : List Marker → Except Halt Query
  | [] => .ok q
  | m :: later =>
    (slice t m.body (stopAt t later.head?)).bind fun body =>
      ((readClause q (bare (m.clause, body.toList))).mapError .refused).bind fun q =>
        readMarked t q later

def parseMarked (t : String) : Except Halt Query :=
  if t.isEmpty then .error (.refused .empty)
  else
    (markers t).bind fun ms =>
      if !(ms.head?.any fun m => m.clause = .selection && m.start = 0) then
        .error (.refused .missingSelect)
      else
        ((checkOrder [] (ms.map Marker.clause)).mapError .refused).bind fun _ =>
          if ms.all (·.clause ≠ .object) then .error (.refused .missingFrom) else readMarked t {} ms

def parseSliced (t : String) : Except Halt Query := parseMarked (trimmed t)

/-! Slices between the markers of pieces. -/

theorem keyword_append (p : Piece) : p.keyword ++ p.text.drop p.keywordLength = p.text :=
  List.take_append_drop ..

theorem clauses_markersFrom (start : Nat) (ps : List Piece) :
    (markersFrom start ps).map Marker.clause = ps.map Piece.clause := by
  induction ps generalizing start with
  | nil => rfl
  | cons p later ih => rw [markersFrom, List.map_cons, ih, List.map_cons, markerAt]

section Pieces
variable {t : String} {lead : List Char}

theorem stop_pieces {ps : List Piece} (split : t.toList = lead ++ textOf ps) :
    stopAt t (markersFrom (String.utf8Len lead) ps).head? = String.utf8Len lead := by
  cases ps with
  | nil =>
    have all : t.toList = lead := by rw [split, textOf, List.flatMap_nil, List.append_nil]
    rw [← all, String.utf8Len_toList]
    rfl
  | cons p later => rfl

variable {p : Piece} {later : List Piece} (split : t.toList = lead ++ textOf (p :: later))
include split

theorem split_piece :
    t.toList = lead ++ p.keyword ++ p.text.drop p.keywordLength ++ textOf later := by
  rw [List.append_assoc lead, keyword_append, split, List.append_assoc]
  rfl

theorem split_later : t.toList = lead ++ p.text ++ textOf later := by
  rw [split_piece split, List.append_assoc lead, keyword_append]

theorem keyword_slice :
    slice t (markerAt (String.utf8Len lead) p).start (markerAt (String.utf8Len lead) p).body =
      .ok (String.ofList p.keyword) := by
  have keyword := split_piece split
  rw [List.append_assoc] at keyword
  rw [markerAt, ← String.utf8Len_append]
  exact slice_between keyword

theorem body_slice :
    slice t (markerAt (String.utf8Len lead) p).body
        (stopAt t (markersFrom (String.utf8Len lead + String.utf8Len p.text) later).head?) =
      .ok (String.ofList (p.text.drop p.keywordLength)) := by
  have body := slice_between (split_piece split)
  rwa [List.append_assoc lead, keyword_append, ← stop_pieces (split_later split),
    String.utf8Len_append, String.utf8Len_append] at body

end Pieces

theorem slices_pieces {t : String} {lead : List Char} {ps : List Piece}
    (split : t.toList = lead ++ textOf ps) :
    slices t (markersFrom (String.utf8Len lead) ps) =
      .ok (ps.flatMap fun p =>
        [String.ofList p.keyword, String.ofList (p.text.drop p.keywordLength)]) := by
  induction ps generalizing lead with
  | nil => rfl
  | cons p later ih =>
    have rest := ih (split_later split)
    rw [String.utf8Len_append] at rest
    rw [markersFrom, slices, keyword_slice split, body_slice split, rest]
    rfl

theorem join_pieces (ps : List Piece) :
    String.join (ps.flatMap fun p =>
      [String.ofList p.keyword, String.ofList (p.text.drop p.keywordLength)]) =
      String.ofList (textOf ps) := by
  have parts : ∀ p : Piece,
      [String.ofList p.keyword, String.ofList (p.text.drop p.keywordLength)].flatMap String.toList =
        p.text := by
    intro p
    simp [keyword_append]
  rw [← String.toList_inj, String.toList_join, String.toList_ofList, List.flatMap_assoc, textOf]
  simp only [parts]

theorem Piece.Stands.keyword_ne_nil {later : List Piece} {p : Piece} {c : Char} {s : List Char}
    {place : Place} (stands : p.Stands later c s place) : p.keyword ≠ [] := by
  obtain ⟨word, _, _, length, spelt, _⟩ := keyword_spelt stands.keyword
  obtain ⟨d, word, rfl, _⟩ := spelt_head spelt
  rw [Piece.keyword, stands.text, length]
  exact List.cons_ne_nil c _

theorem laid_pieces {t : String} {lead : List Char} {ps : List Piece}
    (split : t.toList = lead ++ textOf ps)
    (standing : Standing ps) : Laid t (markersFrom (String.utf8Len lead) ps) := by
  induction ps generalizing lead with
  | nil => exact .nil
  | cons p later ih =>
    obtain ⟨⟨c, s, place, stands⟩, standing⟩ := standing
    have rest := ih (split_later split) standing
    have some : 0 < String.utf8Len p.keyword :=
      Nat.pos_of_ne_zero (mt String.utf8Len_eq_zero.mp stands.keyword_ne_nil)
    have behind := split_piece split
    rw [List.append_assoc (lead ++ p.keyword)] at behind
    have body := valid_behind behind
    have stop := stop_pieces (split_later split)
    have parts := congrArg String.utf8Len (keyword_append p)
    rw [String.utf8Len_append] at rest body stop parts
    refine .cons (valid_behind split) body (Nat.lt_add_of_pos_right some) ?_ rest
    show String.utf8Len lead + String.utf8Len p.keyword ≤ _
    rw [stop]
    omega

theorem readMarked_pieces {t : String} {lead : List Char} {ps : List Piece}
    (split : t.toList = lead ++ textOf ps) (q : Query) :
    readMarked t q (markersFrom (String.utf8Len lead) ps) =
      (readClauses q ps).mapError .refused := by
  induction ps generalizing lead q with
  | nil => rfl
  | cons p later ih =>
    have rest := ih (split_later split)
    have same : ∀ q, readClause q (bare (p.clause, p.text.drop p.keywordLength)) = readClause q p :=
      readClause_congr rfl rfl
    rw [String.utf8Len_append] at rest
    rw [markersFrom, readMarked, body_slice split, readClauses, Except.bind, String.toList_ofList,
      markerAt, same]
    cases readClause q p with
    | error e => rfl
    | ok q => exact rest q

theorem starts_markersFrom (lead : List Char) (ps : List Piece) :
    ((markersFrom (String.utf8Len lead) ps).head?.any fun m =>
        m.clause = .selection && m.start = 0) =
      startsWithSelect lead ps := by
  have start : decide (String.utf8Len lead = 0) = lead.isEmpty := by
    rw [Bool.eq_iff_iff, decide_eq_true_eq, String.utf8Len_eq_zero, List.isEmpty_iff]
  cases ps with
  | nil => exact (Bool.and_false _).symm
  | cons p later => exact (congrArg _ start).trans (Bool.and_comm ..)

theorem objects_markersFrom (start : Nat) (ps : List Piece) :
    (markersFrom start ps).all (·.clause ≠ .object) = ps.all (·.clause ≠ .object) := by
  have all := congrArg (List.all · (· ≠ .object)) (clauses_markersFrom start ps)
  simp only [List.all_map] at all
  exact all

theorem parseMarked_eq (t : String) :
    parseMarked t = (parseTrimmed t.toList).mapError .refused := by
  have empty : t.isEmpty = t.toList.isEmpty := by
    rw [Bool.eq_iff_iff, String.isEmpty_iff, List.isEmpty_iff, String.toList_eq_nil_iff]
  rw [parseMarked, parseTrimmed, markers_eq, empty]
  split
  · rfl
  · cases cuts : pieces t.toList with
    | error e => rfl
    | ok found =>
      obtain ⟨lead, ps⟩ := found
      have read := readMarked_pieces (cut_eq_ok.mp cuts).1 {}
      simp only [Except.map, Except.mapError, Except.bind, starts_markersFrom, clauses_markersFrom,
        objects_markersFrom, read]
      split
      · rfl
      · cases checkOrder [] (ps.map Piece.clause) with
        | error e => rfl
        | ok _ =>
          dsimp only
          split <;> rfl

theorem parseSliced_eq (t : String) : parseSliced t = (parse t).mapError .refused := by
  rw [parseSliced, parseMarked_eq, trimmed, String.toList_ofList, parse]

theorem markers_laid {t : String} {ms : List Marker} (found : markers t = .ok ms) :
    Laid t ms ∧ ∃ parts, slices t ms = .ok parts ∧
      ∀ m ∈ ms.head?, slice t m.start t.utf8ByteSize = .ok (String.join parts) := by
  rw [markers_eq] at found
  cases cuts : pieces t.toList with
  | error e =>
    rw [cuts] at found
    cases found
  | ok pair =>
    obtain ⟨lead, ps⟩ := pair
    rw [cuts] at found
    obtain rfl : markersFrom (String.utf8Len lead) ps = ms := Except.ok.inj found
    obtain ⟨split, _, _, standing⟩ := cut_eq_ok.mp cuts
    refine ⟨laid_pieces split standing, _, slices_pieces split, fun m first => ?_⟩
    have start := stop_pieces split
    rw [Option.mem_def.mp first] at start
    have behind :=
      slice_between ((List.append_nil _).symm ▸ split : t.toList = lead ++ textOf ps ++ [])
    rw [← split, String.utf8Len_toList, ← start] at behind
    rw [join_pieces]
    exact behind

/-- On every text the search goes on with each step until it ends, and never reads or slices out of
    bounds. It comes to what cutting the text comes to. Where it succeeds, each keyword and each
    body is a slice between characters, together these make up the text from the first keyword on,
    and reading the bodies as slices is what parsing does. -/
theorem search_within_bounds (t : String) :
    (∀ s s' : Search, s.step t = .ok s' → s.index < s'.index) ∧
      markers t =
        ((pieces t.toList).map fun (lead, ps) =>
          markersFrom (String.utf8Len lead) ps).mapError .refused ∧
      markers t ≠ .error .outOfBounds ∧
      (∀ ms, markers t = .ok ms →
        Laid t ms ∧ ∃ parts, slices t ms = .ok parts ∧
          ∀ m ∈ ms.head?, slice t m.start t.utf8ByteSize = .ok (String.join parts)) ∧
      parseSliced t = (parse t).mapError .refused := by
  refine ⟨fun s s' => Search.step_progress, markers_eq t, ?_, fun ms => markers_laid,
    parseSliced_eq t⟩
  rw [markers_eq]
  cases (pieces t.toList).map fun (lead, ps) => markersFrom (String.utf8Len lead) ps with
  | error e => simp [Except.mapError]
  | ok ms => simp [Except.mapError]

def accents : String :=
  "SELECT Née, (SELECT Id FROM Çà) FROM Compte WHERE Nom = 'é\\' FROM' ORDER\u2003BY Âge"

/-- A text with a sub-select, an escaped quote before a keyword, and a wide blank within another. -/
theorem search_within_bounds_accents :
    markers accents =
        .ok [⟨.selection, 0, 6⟩, ⟨.object, 35, 39⟩, ⟨.filter, 47, 52⟩, ⟨.ordering, 71, 81⟩] ∧
      Laid accents [⟨.selection, 0, 6⟩, ⟨.object, 35, 39⟩, ⟨.filter, 47, 52⟩, ⟨.ordering, 71, 81⟩] ∧
      parseSliced accents =
        .ok
          { object := "Compte"
            entries := [.plain "Née", .expression "(SELECT Id FROM Çà)"]
            filter := some "Nom = 'é\\' FROM'"
            ordering := some "Âge" } := by
  obtain ⟨_, same, _, laid, sliced⟩ := search_within_bounds accents
  have found : markers accents =
      .ok [⟨.selection, 0, 6⟩, ⟨.object, 35, 39⟩, ⟨.filter, 47, 52⟩, ⟨.ordering, 71, 81⟩] := by
    rw [same]
    decide +kernel
  refine ⟨found, (laid _ found).1, ?_⟩
  rw [sliced]
  decide +kernel

/-- A backslash that ends the text takes the search past the end, where it stops. -/
example : markers "SELECT 'é\\" = .error (.refused .unterminatedLiteral) := by
  rw [markers_eq]
  decide +kernel

end MigrationPlan.Query
