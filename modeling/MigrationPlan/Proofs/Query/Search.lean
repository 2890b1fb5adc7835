import MigrationPlan.Proofs.Query.Grammar
import MigrationPlan.Proofs.Query.Markers

/- The search by position finds the pieces into which a text is cut, and stays within the text. -/
namespace MigrationPlan.Query
open Text

/-! What is read behind a part of the text. -/

theorem positionsFrom_append (start : Nat) (s s' : List Char) :
    positionsFrom start (s ++ s') =
      positionsFrom start s ++ positionsFrom (start + String.utf8Len s) s' := by
  induction s generalizing start with
  | nil => rfl
  | cons c s ih =>
    simp only [List.cons_append, positionsFrom, ih, String.utf8Len_cons,
      Nat.add_assoc, Nat.add_comm]

theorem length_positionsFrom (start : Nat) (s : List Char) :
    (positionsFrom start s).length = s.length := by
  induction s generalizing start with
  | nil => rfl
  | cons c s ih => rw [positionsFrom, List.length_cons, ih, List.length_cons]

theorem length_positions (t : String) : (positions t).length = t.toList.length :=
  length_positionsFrom 0 _

section Behind
variable {t : String} {before rest : List Char} (split : t.toList = before ++ rest)
include split

theorem positions_behind :
    (positions t)[before.length]? = rest.head?.map fun c => (String.utf8Len before, c) := by
  rw [positions, split, positionsFrom_append, ← length_positionsFrom 0 before,
    List.getElem?_append_right (Nat.le_refl _), Nat.sub_self, Nat.zero_add]
  cases rest <;> rfl

theorem byteAt_behind : byteAt t before.length = String.utf8Len before := by
  rw [byteAt, positions_behind split]
  cases rest with
  | nil =>
    rw [← String.ofList_toList (s := t), split, List.append_nil]
    exact String.utf8ByteSize_ofList before
  | cons c s => rfl

theorem valid_behind : (⟨String.utf8Len before⟩ : String.Pos.Raw).IsValid t := by
  rw [String.Pos.Raw.isValid_iff_exists_append]
  refine ⟨String.ofList before, String.ofList rest, ?_, ?_⟩
  · rw [← String.ofList_append, ← split, String.ofList_toList]
  · rw [String.Pos.Raw.ext_iff, String.byteIdx_rawEndPos, String.utf8ByteSize_ofList]

theorem runEnd_behind (test : Char → Bool) :
    runEnd t test before.length = before.length + (rest.takeWhile test).length := by
  induction rest generalizing before with
  | nil =>
    have outside : ¬before.length < (positions t).length := by
      rw [length_positions, split, List.append_nil]
      exact Nat.lt_irrefl _
    rw [runEnd, dif_neg outside]
    rfl
  | cons c s ih =>
    obtain ⟨inside, here⟩ := List.getElem?_eq_some_iff.mp (positions_behind split)
    rw [runEnd, dif_pos inside, here]
    by_cases passes : test c = true
    · have further : t.toList = (before ++ [c]) ++ s := by
        rw [split, List.append_assoc, List.singleton_append]
      have behind := ih further
      rw [List.length_append, List.length_singleton] at behind
      rw [if_pos passes, behind, List.takeWhile_cons_of_pos passes, List.length_cons]
      omega
    · rw [if_neg passes, List.takeWhile_cons_of_neg passes]
      rfl

theorem behind_run (test : Char → Bool) :
    runEnd t test before.length = (before ++ rest.takeWhile test).length ∧
      t.toList = before ++ rest.takeWhile test ++ rest.dropWhile test := by
  rw [runEnd_behind split, List.length_append, List.append_assoc, List.takeWhile_append_dropWhile]
  exact ⟨rfl, split⟩

end Behind

theorem slice_between {t : String} {before middle after : List Char}
    (split : t.toList = before ++ middle ++ after) :
    slice t (String.utf8Len before) (String.utf8Len (before ++ middle)) =
      .ok (String.ofList middle) := by
  have start :=
    valid_behind ((List.append_assoc ..).symm ▸ split : t.toList = before ++ (middle ++ after))
  have stop := valid_behind split
  have ordered : String.utf8Len before ≤ String.utf8Len (before ++ middle) := by
    rw [String.utf8Len_append]
    exact Nat.le_add_right _ _
  rw [slice, if_pos ⟨start, stop, ordered⟩,
    ← String.ofList_toList (s := t), split, String.utf8Len_append, String.extract_of_valid]

theorem boundaryAt_behind {t : String} {before rest : List Char}
    (split : t.toList = before ++ rest) :
    boundaryAt t before.length = .ok (endsOpen true before) := by
  rcases List.eq_nil_or_concat' before with rfl | ⟨earlier, c, rfl⟩
  · rfl
  · rw [List.append_assoc] at split
    have last : (earlier ++ [c]).length - 1 = earlier.length := by simp
    have nonzero : (earlier ++ [c]).length ≠ 0 := by simp
    rw [boundaryAt, if_neg nonzero, last, positionAt, positions_behind split, endsOpen_append]
    rfl

theorem secondWordAt_eq {t : String} {before word rest : List Char}
    (split : t.toList = before ++ word ++ rest) :
    secondWordAt t (before ++ word).length =
      .ok ((orderBy? word rest).map fun k => (k.1, before.length + k.2)) := by
  obtain ⟨next, splitGap⟩ := behind_run split isBlank
  obtain ⟨stop, splitSecond⟩ := behind_run splitGap isWordChar
  have further : (before ++ word).length < (before ++ word ++ rest.takeWhile isBlank).length ↔
      (!(rest.takeWhile isBlank).isEmpty) = true := by
    simp [List.length_pos_iff]
  simp only [secondWordAt, orderBy?, next, stop, byteAt_behind splitGap, byteAt_behind splitSecond,
    slice_between splitSecond, Except.map, String.toList_ofList, further]
  cases (rest.takeWhile isBlank).isEmpty with
  | true => rfl
  | false =>
    by_cases isBy :
      (((rest.dropWhile isBlank).takeWhile isWordChar).map Char.toLower == "by".toList) = true
    · simp only [isBy, Bool.not_false, Bool.and_self, ↓reduceIte, Option.map_some,
        List.length_append, Nat.add_assoc]
    · simp only [isBy, Bool.not_false, Bool.and_false, ↓reduceIte, Bool.false_eq_true,
        Option.map_none]

theorem keywordAt_eq {t : String} {before rest : List Char} (split : t.toList = before ++ rest) :
    keywordAt t before.length (String.utf8Len before) =
      .ok ((Clause.keyword? rest).map fun k => (k.1, before.length + k.2)) := by
  obtain ⟨stop, splitWord⟩ := behind_run split isWordChar
  rw [keywordAt, stop, byteAt_behind splitWord, slice_between splitWord, keyword_eq]
  simp only [Except.bind, String.toList_ofList]
  by_cases order : isOrder (rest.takeWhile isWordChar) = true
  · rw [if_pos order, if_pos order, secondWordAt_eq splitWord]
  · rw [if_neg order, if_neg order, Option.map_map, List.length_append]
    rfl

/-! What the search finds is what cutting the rest of the text finds. -/

def markerAt (start : Nat) (p : Piece) : Marker :=
  ⟨p.clause, start, start + String.utf8Len p.keyword⟩

def markersFrom (start : Nat) : List Piece → List Marker
  | [] => []
  | p :: later => markerAt start p :: markersFrom (start + String.utf8Len p.text) later

/-- The markers that have been found in a part of a text, with those that cutting the rest finds. -/
def found (before : List Char) (place : Place) (rest : List Char) (ms : List Marker) :
    Except Halt (List Marker) :=
  ((cut (endsOpen true before) place rest).map fun (lead, ps) =>
    ms ++ markersFrom (String.utf8Len (before ++ lead)) ps).mapError .refused

section Found
variable {before passed after : List Char} {place place' : Place} {ms : List Marker}

theorem found_over (scanned : scan after (endsOpen true before) place passed = some place') :
    found before place (passed ++ after) ms = found (before ++ passed) place' after ms := by
  rw [found, cut_scan scanned, found, endsOpen_append]
  cases cut (endsOpen (endsOpen true before) passed) place' after with
  | error e => rfl
  | ok cutAfter => simp only [Except.map, List.append_assoc]

theorem found_next {c : Char}
    (noKeyword : topKeyword? (endsOpen true before) place (c :: after) = none)
    (entered : place.next? c = some place') :
    found before place (c :: after) ms = found (before ++ [c]) place' after ms :=
  have scanned : scan after (endsOpen true before) place [c] = some place' :=
    scan_step noKeyword entered
  found_over scanned

theorem found_keyword {clause : Clause} (boundary : endsOpen true before = true)
    (spelt : Spelt clause passed) (opens : Opens after) :
    found before (.outside 0) (passed ++ after) ms =
      found (before ++ passed) (.outside 0) after
        (ms ++ [⟨clause, String.utf8Len before, String.utf8Len (before ++ passed)⟩]) := by
  obtain ⟨c, s, rfl, letter⟩ := spelt_head spelt
  obtain ⟨scanned, inWord⟩ := spelt_scans spelt opens
  have top : topKeyword? true (.outside 0) (c :: (s ++ after)) = some (clause, (c :: s).length) :=
    spelt_keyword spelt opens
  have entered := next_outside (Or.inl (letter_isWordChar letter)) 0
  have behind : endsOpen true (before ++ c :: s) = false := by
    rw [endsOpen_append]
    exact inWord
  rw [found, boundary, List.cons_append, cut, found, behind]
  simp only [entered, cut_scan scanned, inWord, top]
  cases cut false (.outside 0) after with
  | error e => rfl
  | ok cutAfter => simp [Except.map, Except.mapError, markersFrom, markerAt, Piece.keyword]

theorem found_word {c : Char} {rest : List Char} (boundary : endsOpen true before = true)
    (word : isWordChar c = true) (noKeyword : Clause.keyword? (c :: rest) = none) :
    found before (.outside 0) (c :: rest) ms =
      found (before ++ (c :: rest).takeWhile isWordChar) (.outside 0)
        ((c :: rest).dropWhile isWordChar) ms := by
  have isWord : ∀ d ∈ c :: rest.takeWhile isWordChar, isWordChar d = true :=
    List.forall_mem_cons.mpr ⟨word, fun d member => List.mem_takeWhile_imp member⟩
  have parts : c :: rest = (c :: rest.takeWhile isWordChar) ++ rest.dropWhile isWordChar := by
    rw [List.cons_append, List.takeWhile_append_dropWhile]
  have none :
      topKeyword? true (.outside 0) (c :: rest.takeWhile isWordChar ++ rest.dropWhile isWordChar) =
        none := by
    rw [← parts]
    exact noKeyword
  rw [List.takeWhile_cons_of_pos word, List.dropWhile_cons_of_pos word, parts]
  refine found_over ?_
  rw [boundary, scan_step none (next_outside (Or.inl word) 0)]
  exact (word_scans isWord _).1

end Found

/-! Each step of the search does its part of the cut. -/

def placeOf (quoted : Bool) (depth : Nat) : Place :=
  if quoted then .literal depth else .outside depth

/-- What a step may come to, where the search is to have a result: it goes on behind some of the
    text, or the search ends with the result. -/
inductive Follows (before rest : List Char) (result : Except Halt (List Marker)) :
    Except Halt Search → Prop
  | goesOn {passed after : List Char} {depth : Nat} {quoted : Bool} {ms : List Marker} :
      passed ≠ [] → rest = passed ++ after →
        found (before ++ passed) (placeOf quoted depth) after ms = result →
      Follows before rest result (.ok ⟨(before ++ passed).length, depth, quoted, ms⟩)
  | passesEnd {s : Search} :
      (before ++ rest).length ≤ s.index → s.finish = result → Follows before rest result (.ok s)
  | refuses {halt : Halt} : .error halt = result → Follows before rest result (.error halt)

theorem keyword_letter {c : Char} {s : List Char} {k : Clause × Nat}
    (found : Clause.keyword? (c :: s) = some k) :
    c.isAlpha = true := by
  obtain ⟨word, after, whole, _, spelt, _⟩ := keyword_spelt found
  obtain ⟨d, word, rfl, letter⟩ := spelt_head spelt
  exact (List.cons.inj whole).1 ▸ letter

/-- At depth zero behind a boundary the search looks for a keyword wherever a letter stands; it
    misses none, as keywords start with letters. -/
theorem enterWord_follows {t : String} {before rest : List Char} {c : Char}
    (split : t.toList = before ++ c :: rest)
    (boundary : endsOpen true before = true) (letter : c.isAlpha = true) (ms : List Marker) :
    Follows before (c :: rest) (found before (placeOf false 0) (c :: rest) ms)
      (Search.enterWord t ⟨before.length, (0 : Nat), false, ms⟩ (String.utf8Len before)) := by
  have word := letter_isWordChar letter
  rw [Search.enterWord, keywordAt_eq split]
  cases keyword : Clause.keyword? (c :: rest) with
  | none =>
    simp only [Option.map_none, Except.map]
    rw [(behind_run split isWordChar).1]
    refine .goesOn ?_ List.takeWhile_append_dropWhile.symm (found_word boundary word keyword).symm
    rw [List.takeWhile_cons_of_pos word]
    exact List.cons_ne_nil _ _
  | some k =>
    obtain ⟨clause, length⟩ := k
    obtain ⟨passed, after, whole, rfl, spelt, opens⟩ := keyword_spelt keyword
    have some : passed ≠ [] := by
      obtain ⟨d, word, rfl, _⟩ := spelt_head spelt
      exact List.cons_ne_nil d word
    have splitWord : t.toList = (before ++ passed) ++ after := by
      rw [split, whole, List.append_assoc]
    simp only [Option.map_some, Except.map]
    rw [whole, ← List.length_append, byteAt_behind splitWord]
    exact .goesOn some rfl (found_keyword boundary spelt opens).symm

theorem Follows.next {before rest : List Char} {c : Char} {quoted quoted' : Bool}
    {depth depth' : Nat} {ms : List Marker}
    (noKeyword : topKeyword? (endsOpen true before) (placeOf quoted depth) (c :: rest) = none)
    (entered : (placeOf quoted depth).next? c = some (placeOf quoted' depth')) :
    Follows before (c :: rest) (found before (placeOf quoted depth) (c :: rest) ms)
      (.ok ⟨before.length + 1, depth', quoted', ms⟩) := by
  have behind : found before (placeOf quoted depth) (c :: rest) ms =
      found (before ++ [c]) (placeOf quoted' depth') rest ms := found_next noKeyword entered
  have goesOn := Follows.goesOn (List.cons_ne_nil c []) (List.singleton_append).symm behind.symm
  rwa [List.length_append, List.length_singleton] at goesOn

theorem topKeyword_elsewhere {place : Place} {boundary : Bool} {s : List Char}
    (elsewhere : place ≠ .outside 0) :
    topKeyword? boundary place s = none := by
  simp [topKeyword?, elsewhere]

section Step
variable {t : String} {before rest : List Char} {c : Char} (split : t.toList = before ++ c :: rest)
include split

theorem positionAt_behind : positionAt t before.length = .ok (String.utf8Len before, c) := by
  rw [positionAt, positions_behind split]
  rfl

theorem step_quoted (depth : Nat) (ms : List Marker) :
    Follows before (c :: rest) (found before (placeOf true depth) (c :: rest) ms)
      (Search.step t ⟨before.length, depth, true, ms⟩) := by
  rw [Search.step, positionAt_behind split]
  simp only [Except.bind, ↓reduceIte]
  split_ifs with escape
  · subst escape
    -- what is escaped is passed along with the backslash, or else the text ends in the literal
    cases rest with
    | nil => exact .passesEnd (by simp) rfl
    | cons d rest =>
      have first : found before (placeOf true depth) ('\\' :: d :: rest) ms =
          found (before ++ ['\\']) (.escaped depth) (d :: rest) ms :=
        found_next (topKeyword_elsewhere (by simp [placeOf])) rfl
      have second : found (before ++ ['\\']) (.escaped depth) (d :: rest) ms =
          found (before ++ ['\\'] ++ [d]) (placeOf true depth) rest ms :=
        found_next (topKeyword_elsewhere (by simp)) rfl
      have goesOn := Follows.goesOn (List.cons_ne_nil '\\' [d]) (List.cons_append).symm
        ((List.append_assoc before ['\\'] [d]) ▸ (first.trans second).symm)
      rwa [List.length_append] at goesOn
  · refine .next (topKeyword_elsewhere (by simp [placeOf])) ?_
    by_cases quote : c = '\''
    · simp [quote, placeOf, Place.next?]
    · simp [quote, escape, placeOf, Place.next?]

theorem step_outside (depth : Nat) (ms : List Marker) :
    Follows before (c :: rest) (found before (placeOf false depth) (c :: rest) ms)
      (Search.step t ⟨before.length, depth, false, ms⟩) := by
  have none : isWordChar c = false →
      topKeyword? (endsOpen true before) (placeOf false depth) (c :: rest) = none :=
    fun noWord => topKeyword_opens _ _ (opens_cons noWord rest)
  rw [Search.step, positionAt_behind split]
  simp only [Except.bind, Bool.false_eq_true, ↓reduceIte]
  split_ifs with quote opening closing unopened
  · exact .next (none (by rw [quote]; decide)) (by rw [quote]; rfl)
  · have goesOn : Follows before (c :: rest) (found before (placeOf false depth) (c :: rest) ms)
        (.ok ⟨before.length + 1, (depth + 1 : Nat), false, ms⟩) :=
      .next (none (by rw [opening]; decide)) (by rw [opening]; rfl)
    exact goesOn
  · obtain rfl : depth = 0 := by omega
    subst closing
    exact .refuses rfl
  · obtain ⟨depth', rfl⟩ : ∃ depth', depth = depth' + 1 := Nat.exists_eq_add_one.mpr (by omega)
    have goesOn :
        Follows before (c :: rest) (found before (placeOf false (depth' + 1)) (c :: rest) ms)
        (.ok ⟨before.length + 1, depth', false, ms⟩) :=
      .next (none (by rw [closing]; decide)) (by rw [closing]; rfl)
    rwa [show ((depth' + 1 : Nat) : Int) - 1 = depth' by omega]
  · rw [boundaryAt_behind split]
    dsimp only
    split_ifs with word
    · obtain ⟨level, letter, boundary⟩ := word
      obtain rfl : depth = 0 := by omega
      exact enterWord_follows split boundary letter ms
    · refine .next ?_ (by simp [placeOf, Place.next?, quote, opening, closing])
      -- a keyword would have to start here, with a letter and behind a boundary
      cases keyword : topKeyword? (endsOpen true before) (placeOf false depth) (c :: rest) with
      | none => rfl
      | some k =>
        obtain ⟨boundary, outside, starts⟩ := topKeyword_eq_some.mp keyword
        have level : depth = 0 := Place.outside.inj outside
        exact absurd ⟨congrArg Nat.cast level, keyword_letter starts, boundary⟩ word

theorem step_follows (quoted : Bool) (depth : Nat) (ms : List Marker) :
    Follows before (c :: rest) (found before (placeOf quoted depth) (c :: rest) ms)
      (Search.step t ⟨before.length, depth, quoted, ms⟩) := by
  cases quoted with
  | true => exact step_quoted split depth ms
  | false => exact step_outside split depth ms

end Step

theorem run_past {t : String} {s : Search} (past : t.toList.length ≤ s.index) :
    Search.run t s = s.finish := by
  rw [Search.run, if_neg (by rw [length_positions]; omega)]

theorem finish_found (before : List Char) (quoted : Bool) (depth : Nat) (ms : List Marker) :
    Search.finish ⟨before.length, depth, quoted, ms⟩ =
      found before (placeOf quoted depth) [] ms := by
  cases quoted with
  | true => rfl
  | false =>
    cases depth with
    | zero =>
      have all : ms ++ markersFrom (String.utf8Len (before ++ [])) [] = ms := List.append_nil ms
      exact congrArg Except.ok all.symm
    | succ depth =>
      have unclosed : ((depth + 1 : Nat) : Int) ≠ 0 := by omega
      rw [Search.finish, if_neg Bool.false_ne_true, if_pos unclosed]
      rfl

/-- Wherever the search stands in the text, it ends with what cutting the rest of the text finds. -/
theorem run_found {t : String} {before rest : List Char} (split : t.toList = before ++ rest)
    (quoted : Bool) (depth : Nat) (ms : List Marker) :
    Search.run t ⟨before.length, depth, quoted, ms⟩ =
      found before (placeOf quoted depth) rest ms := by
  -- a step may pass any number of characters, so the induction is on the length of what is left
  induction left :
    rest.length using Nat.strong_induction_on generalizing before rest quoted depth ms with
  | _ left' ih => ?_
  subst left
  cases rest with
  | nil => rw [run_past (by rw [split, List.append_nil]), finish_found]
  | cons c rest =>
    have follows := step_follows split quoted depth ms
    have inside : before.length < (positions t).length := by
      rw [length_positions, split, List.length_append, List.length_cons]
      omega
    rw [Search.run, if_pos inside]
    split
    · next halt stepped =>
      rw [stepped] at follows
      cases follows with
      | refuses result => exact result
    · next s' stepped =>
      rw [stepped] at follows
      cases follows with
      | goesOn some whole result =>
        rw [← result]
        refine ih _ ?_ (by rw [split, whole, List.append_assoc]) _ _ _ rfl
        rw [whole, List.length_append]
        exact Nat.lt_add_of_pos_left (List.length_pos_of_ne_nil some)
      | passesEnd past result => rw [run_past (by rw [split]; exact past), result]

theorem markers_eq (t : String) :
    markers t =
      ((pieces t.toList).map fun (lead, ps) =>
        markersFrom (String.utf8Len lead) ps).mapError .refused :=
  run_found (List.nil_append t.toList).symm false 0 []

end MigrationPlan.Query
