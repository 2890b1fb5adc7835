import Mathlib.Data.List.Sort
import MigrationPlan.Proofs.Query.Body
import MigrationPlan.Proofs.Query.Nesting
import MigrationPlan.Proofs.Text.Case

/- The keywords that head the clauses of a text, said by where they stand: whole words at depth
   zero, outside literals, at the start or behind a boundary. Cutting a text finds these and no
   others. -/
namespace MigrationPlan.Query
open Text

def Alike (word : List Char) (label : String) : Prop :=
  word.map Char.toLower = label.toList.map Char.toLower

instance (word : List Char) (label : String) : Decidable (Alike word label) :=
  inferInstanceAs (Decidable (word.map Char.toLower = label.toList.map Char.toLower))

def Spelt : Clause → List Char → Prop
  | .ordering, text =>
    ∃ first gap second, text = first ++ gap ++ second ∧ Alike first "ORDER" ∧ gap ≠ [] ∧ Blank gap ∧
      Alike second "BY"
  | clause, text => Alike text clause.label

structure Heading where
  clause : Clause
  start : Nat
  length : Nat
  deriving DecidableEq, Repr

def Heading.StandsIn (h : Heading) (s : List Char) : Prop :=
  ∃ before word after, s = before ++ word ++ after ∧ h.start = before.length ∧
    h.length = word.length ∧
    Nested before 0 ∧ (∀ c ∈ before.getLast?, isBoundary c = true) ∧
      Spelt h.clause word ∧ Opens after

/-- The headings of a text, in the order in which they stand. -/
structure Headings (s : List Char) (hs : List Heading) : Prop where
  mem_iff : ∀ h, h ∈ hs ↔ h.StandsIn s
  ordered : hs.Pairwise fun a b => a.start < b.start

theorem eq_of_ascending {α : Type} {rank : α → Nat} {l m : List α}
    (ascending : l.Pairwise fun a b => rank a < rank b)
    (ascending' : m.Pairwise fun a b => rank a < rank b) (same : ∀ a, a ∈ l ↔ a ∈ m) : l = m := by
  have irrefl : Std.Irrefl fun a b => rank a < rank b := ⟨fun a => Nat.lt_irrefl (rank a)⟩
  have antisymm : Std.Antisymm fun a b => rank a < rank b :=
    ⟨fun _ _ less more => absurd more (Nat.lt_asymm less)⟩
  exact ascending.eq_of_mem_iff ascending' same

theorem Headings.unique {s : List Char} {hs hs' : List Heading} (all : Headings s hs)
    (all' : Headings s hs') :
    hs = hs' :=
  eq_of_ascending all.ordered all'.ordered fun h => (all.mem_iff h).trans (all'.mem_iff h).symm

/-! A keyword at the front of a text. -/

theorem alike_all {test : Char → Bool} (blind : CaseBlind test) {word : List Char} {label : String}
    (alike : Alike word label) (letters : label.toList.all (test ·.toLower) = true) :
    ∀ c ∈ word, test c = true := by
  intro c member
  have folded : c.toLower ∈ label.toList.map Char.toLower := alike ▸ List.mem_map_of_mem member
  obtain ⟨d, inLabel, same⟩ := List.mem_map.mp folded
  rw [← blind c, ← same]
  exact List.all_eq_true.mp letters d inLabel

theorem run_parts {p : Char → Bool} {run rest : List Char} (inside : ∀ c ∈ run, p c = true)
    (stops : ∀ c ∈ rest.head?, p c = false) :
    (run ++ rest).takeWhile p = run ∧ (run ++ rest).dropWhile p = rest := by
  rw [List.takeWhile_append_of_pos inside, List.dropWhile_append_of_pos inside]
  cases rest with
  | nil => simp
  | cons c rest =>
    have stop : ¬p c = true := by simp [stops c rfl]
    simp [List.takeWhile_cons_of_neg stop, List.dropWhile_cons_of_neg stop]

theorem ofWord_eq_some {word : List Char} {clause : Clause} :
    Clause.ofWord? word = some clause ↔ clause ≠ .ordering ∧ Alike word clause.label := by
  constructor
  · intro found
    have spelt := List.find?_some found
    have listed := List.mem_of_find?_eq_some found
    refine ⟨?_, (beq_iff_eq.mp spelt).symm⟩
    rintro rfl
    exact absurd listed (by decide)
  · rintro ⟨other, alike⟩
    unfold Clause.ofWord?
    rw [alike]
    cases clause with
    | ordering => exact absurd rfl other
    | _ => decide

theorem isOrder_iff {word : List Char} : isOrder word = true ↔ Alike word "ORDER" := by
  have label : "ORDER".toList.map Char.toLower = "order".toList := by decide
  rw [isOrder, beq_iff_eq, Alike, label]

theorem orderBy_eq_some {word rest : List Char} {clause : Clause} {length : Nat}
    (found : orderBy? word rest = some (clause, length)) :
    clause = .ordering ∧ ∃ gap second after, rest = gap ++ second ++ after ∧
      length = (word ++ gap ++ second).length ∧ gap ≠ [] ∧ Blank gap ∧
        Alike second "BY" ∧ Opens after := by
  simp only [orderBy?] at found
  split at found
  · next spelt =>
    rw [Bool.and_eq_true, beq_iff_eq] at spelt
    obtain ⟨rfl, rfl⟩ := Prod.mk.inj (Option.some.inj found)
    refine ⟨rfl, rest.takeWhile isBlank, (rest.dropWhile isBlank).takeWhile isWordChar,
      (rest.dropWhile isBlank).dropWhile isWordChar, ?_, ?_, ?_, ?_, spelt.2, opens_dropWhile _⟩
    · simp only [List.append_assoc, List.takeWhile_append_dropWhile]
    · simp only [List.length_append]
    · simpa using spelt.1
    · intro c member
      exact List.mem_takeWhile_imp member
  · cases found

theorem keyword_spelt {rest : List Char} {clause : Clause} {length : Nat}
    (found : Clause.keyword? rest = some (clause, length)) :
    ∃ word after, rest = word ++ after ∧ length = word.length ∧
      Spelt clause word ∧ Opens after := by
  have split := List.takeWhile_append_dropWhile (p := isWordChar) (l := rest)
  rw [keyword_eq] at found
  by_cases order : isOrder (rest.takeWhile isWordChar) = true
  · rw [if_pos order] at found
    obtain ⟨rfl, gap, second, after, behind, rfl, some, blank, by_, opens⟩ := orderBy_eq_some found
    refine ⟨rest.takeWhile isWordChar ++ gap ++ second, after, ?_, rfl, ?_, opens⟩
    · rw [behind] at split
      simpa using split.symm
    · exact ⟨_, gap, second, rfl, isOrder_iff.mp order, some, blank, by_⟩
  · rw [if_neg order] at found
    obtain ⟨named, isClause, same⟩ := Option.map_eq_some_iff.mp found
    obtain ⟨rfl, rfl⟩ := Prod.mk.inj same
    obtain ⟨other, alike⟩ := ofWord_eq_some.mp isClause
    refine ⟨_, _, split.symm, rfl, ?_, opens_dropWhile rest⟩
    cases named with
    | ordering => exact absurd rfl other
    | _ => exact alike

theorem spelt_keyword {clause : Clause} {word after : List Char} (spelt : Spelt clause word)
    (opens : Opens after) :
    Clause.keyword? (word ++ after) = some (clause, word.length) := by
  by_cases ordering : clause = .ordering
  · subst ordering
    obtain ⟨first, gap, second, rfl, order, some, blank, by_⟩ := spelt
    have firstWord := alike_all caseBlind_word order (by decide)
    have secondWord := alike_all caseBlind_word by_ (by decide)
    -- the gap ends the first word, and the second word ends the gap
    have gapOpens : ∀ c ∈ (gap ++ (second ++ after)).head?, isWordChar c = false := by
      intro c first
      rw [List.head?_append_of_ne_nil _ some] at first
      exact blank_not_word (blank c (List.mem_of_mem_head? first))
    have secondStops : ∀ c ∈ (second ++ after).head?, isBlank c = false := by
      intro c first
      cases second with
      | nil => exact absurd by_ (by decide)
      | cons d second =>
        have same : d = c := Option.some.inj first
        exact same ▸ word_not_blank (secondWord d (List.mem_cons_self))
    obtain ⟨firstRun, behindFirst⟩ := run_parts firstWord gapOpens
    obtain ⟨gapRun, behindGap⟩ := run_parts blank secondStops
    obtain ⟨secondRun, _⟩ := run_parts secondWord opens
    rw [List.append_assoc, List.append_assoc, keyword_eq, firstRun, behindFirst,
      if_pos (isOrder_iff.mpr order)]
    have isBy : second.map Char.toLower = "by".toList := by
      rw [by_]
      decide
    simp [orderBy?, gapRun, behindGap, secondRun, isBy, some, Nat.add_assoc]
  · have alike : Alike word clause.label := by
      cases clause with
      | ordering => exact absurd rfl ordering
      | _ => exact spelt
    have isWord : ∀ c ∈ word, isWordChar c = true := by
      cases clause with
      | ordering => exact absurd rfl ordering
      | _ => exact alike_all caseBlind_word alike (by decide)
    have noOrder : isOrder word = false := by
      rw [isOrder, alike]
      cases clause <;> decide
    obtain ⟨run, _⟩ := run_parts isWord opens
    rw [keyword_eq, run, noOrder, ofWord_eq_some.mpr ⟨ordering, alike⟩]
    rfl

theorem letter_isWordChar {c : Char} (letter : c.isAlpha = true) : isWordChar c = true := by
  simp [isWordChar, Char.isAlphanum, letter]

theorem alike_head {word : List Char} {label : String} (alike : Alike word label)
    (some : label.toList ≠ []) (letters : label.toList.all (Char.isAlpha ·.toLower) = true) :
    ∃ c s, word = c :: s ∧ c.isAlpha = true := by
  cases word with
  | nil => exact absurd (List.map_eq_nil_iff.mp alike.symm) some
  | cons c s => exact ⟨c, s, rfl, alike_all caseBlind_letter alike letters c List.mem_cons_self⟩

theorem spelt_head {clause : Clause} {text : List Char} (spelt : Spelt clause text) :
    ∃ c s, text = c :: s ∧ c.isAlpha = true := by
  cases clause with
  | ordering =>
    obtain ⟨first, gap, second, rfl, order, _⟩ := spelt
    obtain ⟨c, s, rfl, letter⟩ := alike_head order (by decide) (by decide)
    exact ⟨c, s ++ gap ++ second, rfl, letter⟩
  | _ => exact alike_head spelt (by decide) (by decide)

theorem keyword_by {word after : List Char} (alike : Alike word "BY") (opens : Opens after) :
    Clause.keyword? (word ++ after) = none := by
  obtain ⟨run, _⟩ := run_parts (alike_all caseBlind_word alike (by decide)) opens
  have noOrder : isOrder word = false := by
    rw [isOrder, alike]
    decide
  have isBy : word.map Char.toLower = "by".toList := by
    rw [alike]
    decide
  rw [keyword_eq, run, noOrder, ofWord_by isBy]
  rfl

/-- A text starts with a keyword exactly if a spelling of it stands there as whole words. -/
theorem keyword_eq_some {rest : List Char} {clause : Clause} {length : Nat} :
    Clause.keyword? rest = some (clause, length) ↔
      ∃ word after, rest = word ++ after ∧ length = word.length ∧
        Spelt clause word ∧ Opens after := by
  constructor
  · exact keyword_spelt
  · rintro ⟨word, after, rfl, rfl, spelt, opens⟩
    exact spelt_keyword spelt opens

/-! The search for headings. -/

theorem endsOpen_iff {s : List Char} :
    endsOpen true s = true ↔ ∀ c ∈ s.getLast?, isBoundary c = true := by
  cases last : s.getLast? with
  | none =>
    rw [List.getLast?_eq_none_iff.mp last]
    simp [endsOpen]
  | some c =>
    rw [endsOpen_last last]
    simp

theorem topKeyword_eq_some {boundary : Bool} {place : Place} {s : List Char} {k : Clause × Nat} :
    topKeyword? boundary place s = some k ↔
      boundary = true ∧ place = .outside 0 ∧ Clause.keyword? s = some k := by
  unfold topKeyword?
  split
  · next top =>
    rw [Bool.and_eq_true, decide_eq_true_eq] at top
    simp [top]
  · next other =>
    rw [Bool.and_eq_true, decide_eq_true_eq] at other
    simp only [reduceCtorEq, false_iff]
    exact fun found => other ⟨found.1, found.2.1⟩

theorem standsIn_at {before rest : List Char} {place : Place} {h : Heading}
    (reached : (Place.outside 0).after? before = some place) (start : h.start = before.length) :
    h.StandsIn (before ++ rest) ↔
      topKeyword? (endsOpen true before) place rest = some (h.clause, h.length) := by
  rw [topKeyword_eq_some, endsOpen_iff]
  constructor
  · rintro ⟨before', word, after, whole, start', length, nested, boundary, spelt, opens⟩
    rw [List.append_assoc] at whole
    obtain ⟨rfl, rfl⟩ := List.append_inj whole (start.symm.trans start')
    have outside := reached.symm.trans (after_nested nested)
    exact ⟨boundary, Option.some.inj outside,
      keyword_eq_some.mpr ⟨word, after, rfl, length, spelt, opens⟩⟩
  · rintro ⟨boundary, rfl, found⟩
    obtain ⟨word, after, rfl, length, spelt, opens⟩ := keyword_eq_some.mp found
    exact ⟨before, word, after, (List.append_assoc ..).symm, start, length, nested_iff.mpr reached,
      boundary, spelt, opens⟩

theorem standsIn_next {before s : List Char} {c : Char} {place : Place} {h : Heading}
    (reached : (Place.outside 0).after? before = some place) :
    (before.length ≤ h.start ∧ h.StandsIn (before ++ c :: s)) ↔
      (h.start = before.length ∧
          topKeyword? (endsOpen true before) place (c :: s) = some (h.clause, h.length)) ∨
        (before.length + 1 ≤ h.start ∧ h.StandsIn (before ++ c :: s)) := by
  constructor
  · rintro ⟨from_, stands⟩
    rcases Nat.eq_or_lt_of_le from_ with here | beyond
    · exact Or.inl ⟨here.symm, (standsIn_at reached here.symm).mp stands⟩
    · exact Or.inr ⟨beyond, stands⟩
  · rintro (⟨here, keyword⟩ | ⟨beyond, stands⟩)
    · exact ⟨Nat.le_of_eq here.symm, (standsIn_at reached here).mpr keyword⟩
    · exact ⟨Nat.le_of_succ_le beyond, stands⟩

theorem standsIn_start {h : Heading} {s : List Char} (stands : h.StandsIn s) :
    h.start < s.length := by
  obtain ⟨before, word, after, rfl, start, _, _, _, spelt, _⟩ := stands
  obtain ⟨c, t, rfl, _⟩ := spelt_head spelt
  rw [start]
  simp

def headingsFrom (start : Nat) : List Piece → List Heading
  | [] => []
  | p :: later => ⟨p.clause, start, p.keywordLength⟩ :: headingsFrom (start + p.text.length) later

theorem clauses_headingsFrom (start : Nat) (ps : List Piece) :
    (headingsFrom start ps).map Heading.clause = ps.map Piece.clause := by
  induction ps generalizing start with
  | nil => rfl
  | cons p later ih => simp [headingsFrom, ih]

theorem headingsFrom_start {start : Nat} {ps : List Piece} {h : Heading}
    (member : h ∈ headingsFrom start ps) :
    start ≤ h.start := by
  induction ps generalizing start with
  | nil => cases member
  | cons p later ih =>
    rcases List.mem_cons.mp member with rfl | behind
    · exact Nat.le_refl start
    · exact Nat.le_trans (Nat.le_add_right start p.text.length) (ih behind)

theorem headingsFrom_ordered {ps : List Piece} (standing : Standing ps) (start : Nat) :
    (headingsFrom start ps).Pairwise fun a b => a.start < b.start := by
  induction ps generalizing start with
  | nil => exact .nil
  | cons p later ih =>
    obtain ⟨⟨c, s, place, stands⟩, rest⟩ := standing
    refine .cons (fun h behind => ?_) (ih rest _)
    have beyond := headingsFrom_start behind
    rw [stands.text, List.length_cons] at beyond
    show start < h.start
    omega

/-- Cutting what is left of a text finds the headings that are left. -/
theorem mem_headingsFrom {before s lead : List Char} {ps : List Piece} {place : Place} {h : Heading}
    (reached : (Place.outside 0).after? before = some place)
    (cuts : cut (endsOpen true before) place s = .ok (lead, ps)) :
    h ∈ headingsFrom (before.length + lead.length) ps ↔
      before.length ≤ h.start ∧ h.StandsIn (before ++ s) := by
  induction s generalizing before lead ps place with
  | nil =>
    have none : ps = [] := by
      obtain ⟨whole, _, _, standing⟩ := cut_eq_ok.mp cuts
      cases ps with
      | nil => rfl
      | cons p later =>
        obtain ⟨⟨c, s, place, stands⟩, _⟩ := standing
        simp [textOf, stands.text] at whole
    rw [none, List.append_nil]
    simp only [headingsFrom, List.not_mem_nil, false_iff]
    rintro ⟨behind, stands⟩
    exact absurd (standsIn_start stands) (Nat.not_lt.mpr behind)
  | cons c s ih =>
    unfold cut at cuts
    cases entered : place.next? c with
    | none => simp [entered] at cuts
    | some place' =>
      cases inner : cut (isBoundary c) place' s with
      | error e => simp [entered, inner] at cuts
      | ok found =>
        obtain ⟨text, later⟩ := found
        have reached' : (Place.outside 0).after? (before ++ [c]) = some place' := by
          rw [after_last, reached, Option.bind_some, entered]
        have boundary : endsOpen true (before ++ [c]) = isBoundary c :=
          endsOpen_append true before [c]
        have behind := ih reached' (boundary ▸ inner)
        simp only [List.length_append, List.length_singleton, List.append_assoc,
          List.singleton_append] at behind
        have length : before.length + (c :: text).length = before.length + 1 + text.length := by
          rw [List.length_cons]
          omega
        simp only [entered, inner] at cuts
        rw [standsIn_next reached, ← behind]
        cases keyword : topKeyword? (endsOpen true before) place (c :: s) with
        | none =>
          simp only [keyword] at cuts
          obtain ⟨rfl, rfl⟩ := Prod.mk.inj (Except.ok.inj cuts)
          simp only [length, reduceCtorEq, and_false, false_or]
        | some k =>
          obtain ⟨clause, count⟩ := k
          simp only [keyword] at cuts
          obtain ⟨rfl, rfl⟩ := Prod.mk.inj (Except.ok.inj cuts)
          rw [headingsFrom, List.mem_cons, List.length_nil, Nat.add_zero, length]
          refine or_congr_left ?_
          obtain ⟨clause', start, count'⟩ := h
          simp only [Heading.mk.injEq, Option.some.injEq, Prod.mk.injEq, eq_comm, and_left_comm]

theorem cut_ok_iff {boundary : Bool} {place : Place} {s : List Char} :
    (∃ found, cut boundary place s = .ok found) ↔ place.after? s = some (.outside 0) := by
  induction s generalizing boundary place with
  | nil =>
    rw [after_nil]
    match place with
    | .outside 0 => simp [cut]
    | .outside (depth + 1) => simp [cut]
    | .literal depth => simp [cut]
    | .escaped depth => simp [cut]
  | cons c s ih =>
    rw [after_cons]
    unfold cut
    cases place.next? c with
    | none => simp
    | some place' =>
      have rest : (∃ found, cut (isBoundary c) place' s = .ok found) ↔
          place'.after? s = some (.outside 0) := ih
      rw [Option.bind_some, ← rest]
      cases inner : cut (isBoundary c) place' s with
      | error e => simp [inner]
      | ok found => cases topKeyword? boundary place (c :: s) <;> simp [inner]

/-- Cutting succeeds on the nested texts, with a piece for each heading. -/
theorem pieces_eq_ok {s : List Char} {hs : List Heading} :
    Nested s 0 ∧ Headings s hs ↔
      ∃ lead ps, pieces s = .ok (lead, ps) ∧ hs = headingsFrom lead.length ps := by
  have found : ∀ {lead ps}, pieces s = .ok (lead, ps) →
      Headings s (headingsFrom lead.length ps) := by
    intro lead ps cuts
    constructor
    · intro h
      have start : (Place.outside 0).after? [] = some (.outside 0) := rfl
      simpa using mem_headingsFrom start cuts
    · obtain ⟨_, _, _, standing⟩ := cut_eq_ok.mp cuts
      exact headingsFrom_ordered standing _
  constructor
  · rintro ⟨nested, all⟩
    obtain ⟨⟨lead, ps⟩, cuts⟩ := cut_ok_iff.mpr (after_nested nested)
    exact ⟨lead, ps, cuts, all.unique (found cuts)⟩
  · rintro ⟨lead, ps, cuts, rfl⟩
    exact ⟨nested_iff.mpr (cut_ok_iff.mp ⟨_, cuts⟩), found cuts⟩

def Free (s : List Char) : Prop := Nested s 0 ∧ ∀ h : Heading, ¬h.StandsIn s

/-- The texts that can be the body of a clause, said without the scanner. -/
theorem clear_iff {body : List Char} : Clear body ↔ Free body := by
  have clear : Clear body ↔ pieces body = .ok (body, []) := by
    rw [pieces, cut_eq_ok]
    simp [Clear, textOf, Standing]
  have none : (∀ h : Heading, ¬h.StandsIn body) ↔ Headings body [] := by
    constructor
    · intro absent
      exact ⟨fun h => by simp [absent h], .nil⟩
    · intro all h stands
      cases (all.mem_iff h).mpr stands
  rw [clear, Free, none, pieces_eq_ok]
  constructor
  · intro cuts
    exact ⟨body, [], cuts, rfl⟩
  · rintro ⟨lead, ps, cuts, noHeading⟩
    have whole := (cut_eq_ok.mp cuts).1
    cases ps with
    | nil =>
      rw [cuts, whole]
      simp [textOf]
    | cons p later => cases noHeading

end MigrationPlan.Query
