import MigrationPlan.Proofs.Query.Headings
import MigrationPlan.Proofs.Query.Stability

/- The grammar of queries. A text is a query exactly if its headings are those of the clauses in
   their order, and each body is one of its clause; the query then holds the bodies as they stand in
   the text. -/
namespace MigrationPlan.Query
open Text

/-- The bodies of the clauses: from the end of each keyword to the next heading, trimmed. -/
def bodiesIn (s : List Char) : List Heading → List (Clause × List Char)
  | [] => []
  | [h] => [(h.clause, trim (s.drop (h.start + h.length)))]
  | h :: next :: later =>
    (h.clause, trim ((s.take next.start).drop (h.start + h.length))) :: bodiesIn s (next :: later)

def Gives (q : Query) (body : List Char) : Clause → Prop
  | .selection => readSelection body = .ok q.entries
  | .object => body ≠ [] ∧ (∀ c ∈ body, isWordChar c = true) ∧ q.object.toList = body
  | .filter => ∃ text ∈ q.filter, body ≠ [] ∧ text.toList = body
  | .ordering => ∃ text ∈ q.ordering, body ≠ [] ∧ text.toList = body
  | .limit => ∃ n ∈ q.limit, Numeral body n.toNat
  | .offset => ∃ n ∈ q.offset, Numeral body n.toNat

def Agree (q q' : Query) : Clause → Prop
  | .selection => q.entries = q'.entries
  | .object => q.object = q'.object
  | .filter => q.filter = q'.filter
  | .ordering => q.ordering = q'.ordering
  | .limit => q.limit = q'.limit
  | .offset => q.offset = q'.offset

/-- The first two clauses, then those of the others that there are, each once and in their order. -/
def InOrder (clauses : List Clause) : Prop :=
  ∃ later, clauses = .selection :: .object :: later ∧
    later.Sublist [.filter, .ordering, .limit, .offset]

/-- A trimmed text, its headings, and the query that it stands for. -/
structure Grammatical (s : List Char) (hs : List Heading) (q : Query) : Prop where
  nested : Nested s 0
  headings : Headings s hs
  starts : ∀ h ∈ hs.head?, h.start = 0
  clauses : InOrder (hs.map Heading.clause)
  gives : ∀ b ∈ bodiesIn s hs, Gives q b.2 b.1
  lacks : ∀ clause, clause ∉ hs.map Heading.clause → Agree q {} clause

theorem bodiesIn_pieces (lead : List Char) (ps : List Piece) :
    bodiesIn (lead ++ textOf ps) (headingsFrom lead.length ps) = ps.map fun p =>
      (p.clause, p.body) := by
  induction ps generalizing lead with
  | nil => rfl
  | cons p later ih =>
    cases later with
    | nil => simp [headingsFrom, bodiesIn, textOf, Piece.body, List.drop_length_add_append]
    | cons next later =>
      have whole :
          lead ++ textOf (p :: next :: later) = lead ++ p.text ++ textOf (next :: later) := by
        rw [List.append_assoc]
        rfl
      have rest := ih (lead ++ p.text)
      rw [List.length_append] at rest
      simp only [headingsFrom] at rest
      rw [whole]
      simp only [headingsFrom, bodiesIn, rest, List.map_cons]
      rw [← List.length_append, List.take_left, List.drop_length_add_append]
      rfl

/-! One clause. -/

theorem ofList_eq {body : List Char} {s : String} : String.ofList body = s ↔ s.toList = body := by
  constructor
  · rintro rfl
    exact String.toList_ofList
  · rintro rfl
    exact String.ofList_toList

theorem isObjectName_iff {body : List Char} :
    isObjectName body = true ↔ body ≠ [] ∧ ∀ c ∈ body, isWordChar c = true := by
  simp [isObjectName]

theorem readObject_eq_ok {body : List Char} {object : String} :
    readObject body = .ok object ↔
      body ≠ [] ∧ (∀ c ∈ body, isWordChar c = true) ∧ object.toList = body := by
  rw [← and_assoc, ← isObjectName_iff, readObject]
  split
  · next name => simp [name, ofList_eq]
  · next noName => simp [noName]

theorem readText_eq_ok {clause : Clause} {body : List Char} {text : String} :
    readText clause body = .ok text ↔ body ≠ [] ∧ text.toList = body := by
  rw [readText]
  split
  · next empty => simp [List.isEmpty_iff.mp empty]
  · next nonempty => simp [List.isEmpty_iff.not.mp nonempty, ofList_eq]

theorem readNumber_eq_ok {clause : Clause} {body : List Char} {n : UInt64} :
    readNumber clause body = .ok n ↔ Numeral body n.toNat := by
  have fits : Numeral body n.toNat ↔ readWord64? body = some n.toNat := by
    rw [readWord64_eq_some, and_iff_left n.toNat_lt]
  rw [fits, readNumber]
  cases read : readWord64? body with
  | none => simp
  | some m =>
    have small : m < UInt64.size := (readWord64_eq_some.mp read).2
    simp only [Except.ok.injEq, Option.some.injEq]
    constructor
    · rintro rfl
      exact (UInt64.toNat_ofNat_of_lt small).symm
    · rintro rfl
      exact UInt64.ofNat_toNat

theorem map_eq_ok {α β : Type} {x : Except ParseError α} {f : α → β} {b : β} :
    x.map f = .ok b ↔ ∃ a, x = .ok a ∧ f a = b := by
  constructor
  · exact map_ok
  · rintro ⟨a, rfl, rfl⟩
    rfl

theorem bind_eq_ok {α β : Type} {x : Except ParseError α} {f : α → Except ParseError β} {b : β} :
    x.bind f = .ok b ↔ ∃ a, x = .ok a ∧ f a = .ok b := by
  constructor
  · exact bind_ok
  · rintro ⟨a, rfl, same⟩
    exact same

theorem Agree.refl (q : Query) (clause : Clause) : Agree q q clause := by
  cases clause <;> exact Eq.refl _

theorem Agree.symm {q q' : Query} {clause : Clause} (same : Agree q q' clause) :
    Agree q' q clause := by
  cases clause <;> exact Eq.symm same

theorem Agree.trans {q q' q'' : Query} {clause : Clause} (first : Agree q q' clause)
    (last : Agree q' q'' clause) :
    Agree q q'' clause := by
  cases clause <;> exact Eq.trans first last

theorem eq_of_agree {q q' : Query} (same : ∀ clause, Agree q q' clause) : q = q' := by
  obtain ⟨object, entries, filter, ordering, limit, offset⟩ := q
  obtain ⟨object', entries', filter', ordering', limit', offset'⟩ := q'
  obtain rfl : entries = entries' := same .selection
  obtain rfl : object = object' := same .object
  obtain rfl : filter = filter' := same .filter
  obtain rfl : ordering = ordering' := same .ordering
  obtain rfl : limit = limit' := same .limit
  obtain rfl : offset = offset' := same .offset
  rfl

theorem gives_congr {q q' : Query} {clause : Clause} (same : Agree q q' clause) (body : List Char) :
    Gives q body clause ↔ Gives q' body clause := by
  cases clause <;> simp only [Agree] at same <;> simp only [Gives, same]

theorem present_iff {α : Type} {value : Option α} {P : α → Prop} :
    (∃ a ∈ value, P a) ↔ ∃ a, P a ∧ some a = value := by
  constructor
  · rintro ⟨a, rfl, holds⟩
    exact ⟨a, holds, rfl⟩
  · rintro ⟨a, holds, rfl⟩
    exact ⟨a, rfl, holds⟩

theorem put_eq_ok {α : Type} {q q' : Query} {clause : Clause} {x : Except ParseError α}
    {put : α → Query} {gives : Prop} (beside : ∀ a other, other ≠ clause → Agree q (put a) other)
    (reads : gives ↔ ∃ a, x = .ok a ∧ Agree (put a) q' clause) :
    x.map put = .ok q' ↔ gives ∧ ∀ other, other ≠ clause → Agree q q' other := by
  rw [map_eq_ok, reads]
  constructor
  · rintro ⟨a, read, rfl⟩
    exact ⟨⟨a, read, .refl _ _⟩, beside a⟩
  · rintro ⟨⟨a, read, here⟩, same⟩
    refine ⟨a, read, eq_of_agree fun other => ?_⟩
    by_cases isClause : other = clause
    · exact isClause ▸ here
    · exact (beside a other isClause).symm.trans (same other isClause)

theorem readClause_eq_ok {q q' : Query} {p : Piece} :
    readClause q p = .ok q' ↔ Gives q' p.body p.clause ∧ ∀ other, other ≠ p.clause →
      Agree q q' other := by
  unfold readClause
  cases p.clause
  all_goals
    refine put_eq_ok (fun a other isOther => ?_) ?_
    · cases other <;> first | rfl | exact absurd rfl isOther
    · simp only [Gives, Agree, present_iff, exists_eq_right, readObject_eq_ok, readText_eq_ok,
        readNumber_eq_ok]

/-! All clauses. -/

def takeClause (q q' : Query) : Clause → Query
  | .selection => { q with entries := q'.entries }
  | .object => { q with object := q'.object }
  | .filter => { q with filter := q'.filter }
  | .ordering => { q with ordering := q'.ordering }
  | .limit => { q with limit := q'.limit }
  | .offset => { q with offset := q'.offset }

theorem takeClause_agree (q q' : Query) (clause : Clause) :
    Agree (q.takeClause q' clause) q' clause := by
  cases clause <;> exact Eq.refl _

theorem takeClause_beside (q q' : Query) {clause other : Clause} (isOther : other ≠ clause) :
    Agree q (q.takeClause q' clause) other := by
  cases clause <;> cases other <;> first | rfl | exact absurd rfl isOther

theorem readClauses_eq_ok {q q' : Query} {ps : List Piece} (once : (ps.map Piece.clause).Nodup) :
    readClauses q ps = .ok q' ↔
      (∀ p ∈ ps, Gives q' p.body p.clause) ∧ ∀ clause, clause ∉ ps.map Piece.clause →
        Agree q q' clause := by
  induction ps generalizing q with
  | nil =>
    simp only [readClauses, Except.ok.injEq, List.not_mem_nil, false_imp_iff, implies_true,
      true_and, List.map_nil, not_false_eq_true, forall_const]
    constructor
    · rintro rfl clause
      exact .refl q clause
    · exact eq_of_agree
  | cons p later ih =>
    obtain ⟨first, rest⟩ := List.nodup_cons.mp once
    simp only [readClauses, bind_eq_ok, readClause_eq_ok, ih rest, List.forall_mem_cons]
    constructor
    · rintro ⟨middle, ⟨here, beside⟩, behind, same⟩
      refine ⟨⟨(gives_congr (same _ first) _).mp here, behind⟩, fun clause absent => ?_⟩
      rw [List.map_cons, List.mem_cons, not_or] at absent
      exact (beside clause absent.1).trans (same clause absent.2)
    · rintro ⟨⟨here, behind⟩, same⟩
      have taken := takeClause_agree q q' p.clause
      refine ⟨q.takeClause q' p.clause,
        ⟨(gives_congr taken _).mpr here, fun _ => takeClause_beside q q'⟩, behind,
        fun clause absent => ?_⟩
      by_cases isClause : clause = p.clause
      · exact isClause ▸ taken
      · exact (takeClause_beside q q' isClause).symm.trans
          (same clause (by simp [isClause, absent]))

theorem rank_injective : Function.Injective Clause.rank := by
  intro a b
  cases a <;> cases b <;> simp [Clause.rank]

/-- The check looks at the last clause before the next, which has the highest rank of all before
    it. -/
theorem fits_iff {seen : List Clause} {c : Clause}
    (sorted : seen.Pairwise fun a b => b.rank < a.rank) :
    (∀ a ∈ seen, a.rank < c.rank) ↔
      seen.contains c = false ∧ seen.head?.any (fun last => c.rank < last.rank) = false := by
  cases seen with
  | nil => simp
  | cons last earlier =>
    have highest := (List.pairwise_cons.mp sorted).1
    rw [List.forall_mem_cons]
    simp only [List.contains_eq_mem, decide_eq_false_iff_not, List.mem_cons, not_or,
      List.head?_cons, Option.any_some, Nat.not_lt]
    constructor
    · rintro ⟨below, earlierBelow⟩
      refine ⟨⟨?_, fun member => ?_⟩, Nat.le_of_lt below⟩
      · rintro rfl
        exact Nat.lt_irrefl _ below
      · exact Nat.lt_irrefl _ (earlierBelow c member)
    · rintro ⟨⟨other, _⟩, notAbove⟩
      have below : last.rank < c.rank :=
        Nat.lt_of_le_of_ne notAbove fun same => other (rank_injective same).symm
      exact ⟨below, fun a member => Nat.lt_trans (highest a member) below⟩

theorem checkOrder_eq_ok {seen cs : List Clause}
    (sorted : seen.Pairwise fun a b => b.rank < a.rank) :
    checkOrder seen cs = .ok () ↔
      (∀ a ∈ seen, ∀ b ∈ cs, a.rank < b.rank) ∧ cs.Pairwise fun a b => a.rank < b.rank := by
  induction cs generalizing seen with
  | nil => simp [checkOrder]
  | cons c rest ih =>
    unfold checkOrder
    by_cases fits : ∀ a ∈ seen, a.rank < c.rank
    · obtain ⟨new, notAbove⟩ := (fits_iff sorted).mp fits
      have onward : (c :: seen).Pairwise fun a b => b.rank < a.rank :=
        List.pairwise_cons.mpr ⟨fits, sorted⟩
      simp only [new, notAbove, Bool.false_eq_true, ↓reduceIte, ih onward, List.forall_mem_cons,
        List.pairwise_cons]
      constructor
      · rintro ⟨⟨here, before⟩, pairwise⟩
        exact ⟨fun a member => ⟨fits a member, before a member⟩, here, pairwise⟩
      · rintro ⟨before, here, pairwise⟩
        exact ⟨⟨here, fun a member => (before a member).2⟩, pairwise⟩
    · have refused : ¬(∀ a ∈ seen, ∀ b ∈ c :: rest, a.rank < b.rank) := fun all =>
        fits fun a member => all a member c (List.mem_cons_self)
      have failed := (fits_iff sorted).not.mp fits
      simp only [refused, false_and, iff_false]
      split_ifs with repeated above
      · simp
      · simp
      · exact absurd ⟨by simpa using repeated, by simpa using above⟩ failed

def allClauses : List Clause := [.selection, .object, .filter, .ordering, .limit, .offset]

theorem ascending_eq {cs : List Clause} (ascending : cs.Pairwise fun a b => a.rank < b.rank) :
    cs = allClauses.filter (· ∈ cs) := by
  have all : allClauses.Pairwise fun a b => a.rank < b.rank := by decide
  refine eq_of_ascending ascending (all.filter _) fun c => ?_
  have listed : c ∈ allClauses := by cases c <;> decide
  simp [listed]

theorem inOrder_iff {cs : List Clause} :
    InOrder cs ↔ cs.Pairwise (fun a b => a.rank < b.rank) ∧ .selection ∈ cs ∧ .object ∈ cs := by
  constructor
  · rintro ⟨later, rfl, sublist⟩
    have all : allClauses.Pairwise fun a b => a.rank < b.rank := by decide
    exact ⟨all.sublist ((sublist.cons_cons _).cons_cons _), by simp, by simp⟩
  · rintro ⟨ascending, selection, object⟩
    refine ⟨[.filter, .ordering, .limit, .offset].filter (· ∈ cs), ?_, List.filter_sublist⟩
    have whole := ascending_eq ascending
    rwa [allClauses, List.filter_cons_of_pos (by simpa using selection),
      List.filter_cons_of_pos (by simpa using object)] at whole

theorem parseTrimmed_eq_ok {s : List Char} {q : Query} :
    parseTrimmed s = .ok q ↔
      ∃ ps, pieces s = .ok ([], ps) ∧ InOrder (ps.map Piece.clause) ∧
        readClauses {} ps = .ok q := by
  unfold parseTrimmed
  split
  · next empty =>
    rw [List.isEmpty_iff.mp empty]
    simp [pieces, cut, inOrder_iff]
  · rw [bind_eq_ok]
    constructor
    · rintro ⟨⟨lead, ps⟩, cuts, read⟩
      simp only at read
      split at read
      · cases read
      · next starts =>
        obtain ⟨⟨⟩, ordered, read⟩ := bind_ok read
        split at read
        · cases read
        · next from_ =>
          rw [Bool.not_eq_true', Bool.not_eq_false] at starts
          have noLead : lead = [] := by
            rw [startsWithSelect, Bool.and_eq_true, List.isEmpty_iff] at starts
            exact starts.1
          have ascending := ((checkOrder_eq_ok .nil).mp ordered).2
          exact ⟨ps, noLead ▸ cuts,
            inOrder_iff.mpr ⟨ascending, selection_mem starts, object_mem from_⟩, read⟩
    · rintro ⟨ps, cuts, inOrder, read⟩
      obtain ⟨ascending, _, object⟩ := inOrder_iff.mp inOrder
      have starts : startsWithSelect [] ps = true := by
        obtain ⟨later, clauses, _⟩ := inOrder
        cases ps with
        | nil => cases clauses
        | cons p ps => simp [startsWithSelect, (List.cons.inj clauses).1]
      have from_ : ps.all (·.clause ≠ .object) = false := by
        obtain ⟨p, member, isObject⟩ := List.mem_map.mp object
        rw [List.all_eq_false]
        exact ⟨p, member, by simp [isObject]⟩
      have ordered : checkOrder [] (ps.map Piece.clause) = .ok () :=
        (checkOrder_eq_ok .nil).mpr ⟨by simp, ascending⟩
      refine ⟨([], ps), cuts, ?_⟩
      simp only [starts, ordered, from_, Except.bind, read]
      rfl

theorem grammatical_iff {s lead : List Char} {ps : List Piece} {q : Query}
    (cuts : pieces s = .ok (lead, ps)) :
    Grammatical s (headingsFrom lead.length ps) q ↔
      lead = [] ∧ InOrder (ps.map Piece.clause) ∧ readClauses {} ps = .ok q := by
  obtain ⟨nested, headings⟩ := pieces_eq_ok.mpr ⟨lead, ps, cuts, rfl⟩
  have bodies : bodiesIn s (headingsFrom lead.length ps) = ps.map fun p => (p.clause, p.body) := by
    rw [(cut_eq_ok.mp cuts).1, bodiesIn_pieces]
  have clauses := clauses_headingsFrom lead.length ps
  have reads : InOrder (ps.map Piece.clause) → (readClauses {} ps = .ok q ↔
      (∀ p ∈ ps, Gives q p.body p.clause) ∧ ∀ clause, clause ∉ ps.map Piece.clause →
        Agree {} q clause) := by
    intro inOrder
    refine readClauses_eq_ok ((inOrder_iff.mp inOrder).1.imp fun {a b} less same => ?_)
    exact Nat.lt_irrefl _ (same ▸ less)
  constructor
  · intro h
    have inOrder : InOrder (ps.map Piece.clause) := clauses ▸ h.clauses
    refine ⟨?_, inOrder, (reads inOrder).mpr ⟨fun p member => ?_, fun clause absent => ?_⟩⟩
    · cases ps with
      | nil => obtain ⟨_, none, _⟩ := inOrder; cases none
      | cons p later => exact List.length_eq_zero_iff.mp (h.starts _ rfl)
    · have body := h.gives (p.clause, p.body)
      rw [bodies] at body
      exact body (List.mem_map_of_mem member)
    · exact (h.lacks clause (clauses ▸ absent)).symm
  · rintro ⟨rfl, inOrder, read⟩
    obtain ⟨gives, lacks⟩ := (reads inOrder).mp read
    refine
      { nested, headings
        starts := fun h first => ?_
        clauses := clauses ▸ inOrder
        gives := fun b member => ?_
        lacks := fun clause absent => (lacks clause (clauses ▸ absent)).symm }
    · cases ps with
      | nil => cases first
      | cons p later => exact (Option.some.inj first) ▸ rfl
    · rw [bodies] at member
      obtain ⟨p, inPieces, rfl⟩ := List.mem_map.mp member
      exact gives p inPieces

/-- The parser accepts exactly the grammatical texts and gives the bodies that stand in them. -/
theorem parse_iff_grammatical {t : String} {q : Query} :
    parse t = .ok q ↔ ∃ hs, Grammatical (trim t.toList) hs q := by
  rw [parse, parseTrimmed_eq_ok]
  constructor
  · rintro ⟨ps, cuts, inOrder, read⟩
    exact ⟨headingsFrom 0 ps, (grammatical_iff cuts).mpr ⟨rfl, inOrder, read⟩⟩
  · rintro ⟨hs, grammatical⟩
    obtain ⟨lead, ps, cuts, rfl⟩ := pieces_eq_ok.mp ⟨grammatical.nested, grammatical.headings⟩
    obtain ⟨rfl, inOrder, read⟩ := (grammatical_iff cuts).mp grammatical
    exact ⟨ps, cuts, inOrder, read⟩

end MigrationPlan.Query
