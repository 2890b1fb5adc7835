import MigrationPlan.Proofs.Query.Layout
import MigrationPlan.Proofs.Text.Case
import MigrationPlan.Query.Parser

/- The canonical text of a query is read back as the query, provided that each of its clauses can be
   the body of a clause and its select list is read from its keys. -/
namespace MigrationPlan.Query
open Text

def keysText (l : List Entry) : List Char := [',', ' '].intercalate (l.map fun e => e.key.toList)

def bodies (q : Query) : List (Clause × List Char) :=
  [(.selection, keysText q.entries), (.object, q.object.toList)]
    ++ q.filter.toList.map (fun s => (Clause.filter, s.toList))
    ++ q.ordering.toList.map (fun s => (Clause.ordering, s.toList))
    ++ q.limit.toList.map (fun n => (Clause.limit, decimal n.toNat))
    ++ q.offset.toList.map (fun n => (Clause.offset, decimal n.toNat))

structure Readable (q : Query) : Prop where
  selection : Sound (keysText q.entries)
  entries : readSelection (keysText q.entries) = .ok q.entries
  object : isObjectName q.object.toList = true
  objectClear : Clear q.object.toList
  filter : ∀ s ∈ q.filter, Sound s.toList
  ordering : ∀ s ∈ q.ordering, Sound s.toList

theorem clauseText_toList (clause : Clause) (value : Option String) :
    (clauseText clause.label value).toList =
      value.toList.flatMap fun s => ' ' :: written (clause, s.toList) := by
  cases value with
  | none => rfl
  | some s => simp [clauseText, written]

theorem numberText_toList (clause : Clause) (value : Option UInt64) :
    (clauseText clause.label (value.map wordText)).toList =
      value.toList.flatMap fun n => ' ' :: written (clause, decimal n.toNat) := by
  cases value with
  | none => rfl
  | some n => simp [clauseText, written, wordText]

theorem compose_layout (q : Query) : q.compose.toList = textOf (layout (bodies q)) := by
  have filter := clauseText_toList .filter q.filter
  have ordering := clauseText_toList .ordering q.ordering
  have limit := numberText_toList .limit q.limit
  have offset := numberText_toList .offset q.offset
  have keys : (", ".intercalate q.keys).toList = keysText q.entries := by
    simp [String.toList_intercalate, keys, keysText, Function.comp_def]
  have shape : bodies q = (.selection, keysText q.entries) :: (bodies q).tail := rfl
  rw [shape, textOf_layout]
  simp only [compose, String.toList_append, keys, bodies, List.cons_append, List.tail_cons,
    List.nil_append, List.flatMap_cons, List.flatMap_append, List.flatMap_map]
  simp only [Clause.label] at filter ordering limit offset
  rw [filter, ordering, limit, offset]
  simp [written, Clause.label]

theorem sound_word {s : List Char} (nonempty : s ≠ []) (word : ∀ c ∈ s, isWordChar c = true)
    (clear : Clear s) :
    Sound s where
  nonempty
  trimmed :=
    { first := fun c member => word_not_blank (word c (List.mem_of_mem_head? member))
      last := fun c member => word_not_blank (word c (List.mem_of_getLast? member)) }
  clear

theorem object_sound {s : List Char} (object : isObjectName s = true)
    (clear : Clear s) : Sound s := by
  rw [isObjectName, Bool.and_eq_true, List.all_eq_true] at object
  exact sound_word (by simpa using object.1) object.2 clear

theorem keyword_digit {c : Char} {t : List Char} (digit : c.isDigit = true) :
    Clause.keyword? (c :: t) = none := by
  have isWord : isWordChar c = true := by simp [isWordChar, Char.isAlphanum, digit]
  have spelt :
      ((c :: t).takeWhile isWordChar).map Char.toLower =
        c :: (t.takeWhile isWordChar).map Char.toLower := by
    rw [List.takeWhile_cons_of_pos isWord, List.map_cons,
      (toLower_eq_iff (digit_not_letter digit)).mpr rfl]
  have other : ∀ d u, Char.isDigit d = false →
      (d :: u == c :: (t.takeWhile isWordChar).map Char.toLower) = false := by
    intro d u letter
    rw [beq_eq_false_iff_ne]
    intro same
    rw [(List.cons.inj same).1, digit] at letter
    cases letter
  rw [keyword_eq]
  -- every keyword starts with a letter, and folding a digit leaves it a digit
  have order : isOrder ((c :: t).takeWhile isWordChar) = false := by
    unfold isOrder
    rw [spelt, Bool.beq_comm]
    exact other 'o' "rder".toList (by decide)
  have none : Clause.ofWord? ((c :: t).takeWhile isWordChar) = none := by
    unfold Clause.ofWord?
    rw [spelt, List.find?_eq_none]
    intro clause _
    rw [Bool.not_eq_true]
    cases clause with
    | selection => exact other 's' "elect".toList (by decide)
    | object => exact other 'f' "rom".toList (by decide)
    | filter => exact other 'w' "here".toList (by decide)
    | ordering => exact other 'o' "rder by".toList (by decide)
    | limit => exact other 'l' "imit".toList (by decide)
    | offset => exact other 'o' "ffset".toList (by decide)
  rw [order, none]
  rfl

theorem decimal_sound (n : Nat) : Sound (decimal n) := by
  have digit : ∀ c ∈ decimal n, c.isDigit = true := fun c member => decimal_digit member
  have word : ∀ c ∈ decimal n, isWordChar c = true := by
    intro c member
    simp [isWordChar, Char.isAlphanum, digit c member]
  refine sound_word (decimal_ne_nil n) word (clear_word word ?_)
  cases text : decimal n with
  | nil => exact absurd text (decimal_ne_nil n)
  | cons c t =>
    rw [text] at digit
    exact keyword_digit (digit c (List.mem_cons_self))

theorem bodies_sound {q : Query} (h : Readable q) : ∀ b ∈ bodies q, Sound b.2 := by
  intro b member
  simp only [bodies, List.mem_append, List.mem_cons, List.not_mem_nil, or_false, List.mem_map,
    Option.mem_toList] at member
  rcases member with ((((rfl | rfl) | ⟨s, present, rfl⟩) | ⟨s, present, rfl⟩) | ⟨n, _, rfl⟩)
    | ⟨n, _, rfl⟩
  · exact h.selection
  · exact object_sound h.object h.objectClear
  · exact h.filter s present
  · exact h.ordering s present
  · exact decimal_sound _
  · exact decimal_sound _

theorem readClause_congr {p p' : Piece} (clause : p.clause = p'.clause)
    (body : p.body = p'.body) (q : Query) :
    readClause q p = readClause q p' := by
  unfold readClause
  rw [clause, body]

theorem readClauses_congr {ps ps' : List Piece}
    (same : ps.map (fun p => (p.clause, p.body)) = ps'.map fun p => (p.clause, p.body))
    (q : Query) :
    readClauses q ps = readClauses q ps' := by
  induction ps generalizing ps' q with
  | nil =>
    rw [List.map_nil] at same
    rw [List.map_eq_nil_iff.mp same.symm]
  | cons p ps ih =>
    cases ps' with
    | nil => cases same
    | cons p' ps' =>
      obtain ⟨first, rest⟩ := List.cons.inj same
      obtain ⟨clause, body⟩ := Prod.mk.inj first
      simp only [readClauses, readClause_congr clause body]
      congr 1
      funext q
      exact ih rest q

theorem readNumber_decimal (clause : Clause) (n : UInt64) :
    readNumber clause (decimal n.toNat) = .ok n := by
  have read := readWord64_decimal n.toNat_lt
  simp [readNumber, read]

theorem readText_sound (clause : Clause) {s : String} (sound : Sound s.toList) :
    readText clause s.toList = .ok s := by
  have nonempty := sound.nonempty
  simp only [readText, List.isEmpty_iff, nonempty, ↓reduceIte, String.ofList_toList]

theorem readClauses_append (q : Query) (ps later : List Piece) :
    readClauses q (ps ++ later) = (readClauses q ps).bind fun q => readClauses q later := by
  induction ps generalizing q with
  | nil => rfl
  | cons p ps ih =>
    simp only [List.cons_append, readClauses]
    cases readClause q p with
    | error e => rfl
    | ok q => exact ih q

def bare (b : Clause × List Char) : Piece := ⟨b.1, 0, b.2⟩

@[simp]
theorem bare_clause (clause : Clause) (s : List Char) : (bare (clause, s)).clause = clause := rfl

theorem bare_body (clause : Clause) {s : List Char} (sound : Sound s) :
    (bare (clause, s)).body = s :=
  trim_of_trimmed sound.trimmed

theorem readClauses_bare {q : Query} {bs : List (Clause × List Char)}
    (sound : ∀ b ∈ bs, Sound b.2) :
    readClauses q (layout bs) = readClauses q (bs.map bare) := by
  refine readClauses_congr ?_ q
  rw [layout_bodies fun b member => (sound b member).trimmed, List.map_map]
  refine ((List.map_congr_left fun b member => ?_).trans (List.map_id bs)).symm
  rw [Function.comp_apply, bare_body b.1 (sound b member), bare_clause]
  rfl

theorem readClauses_one {q q' : Query} {p : Piece} (read : readClause q p = .ok q') :
    readClauses q [p] = .ok q' := by
  rw [readClauses, read]
  rfl

theorem readClauses_option {α : Type} (put : Option α → Query) (clause : Clause)
    (text : α → List Char) {value : Option α}
    (read : ∀ a ∈ value, readClause (put none) (bare (clause, text a)) = .ok (put (some a))) :
    readClauses (put none) ((value.toList.map fun a => (clause, text a)).map bare) =
      .ok (put value) := by
  cases value with
  | none => rfl
  | some a => exact readClauses_one (read a rfl)

theorem readClauses_layout {q : Query} (h : Readable q) :
    readClauses {} (layout (bodies q)) = .ok q := by
  obtain ⟨object, entries, filter, ordering, limit, offset⟩ := q
  obtain ⟨selection, read, objectName, objectClear, filterSound, orderingSound⟩ := h
  have selected : readClauses {} [bare (.selection, keysText entries)] = .ok { entries } := by
    apply readClauses_one
    simp only [readClause, bare_clause, bare_body _ selection, read]
    rfl
  have named :
      readClauses { entries } [bare (.object, object.toList)] = .ok { object, entries } := by
    apply readClauses_one
    have isName : isObjectName object.toList = true := objectName
    simp only [readClause, bare_clause, bare_body _ (object_sound isName objectClear), readObject,
      isName, ↓reduceIte, String.ofList_toList]
    rfl
  have filtered :
      readClauses { object, entries } ((filter.toList.map fun s => (.filter, s.toList)).map bare) =
      .ok { object, entries, filter } := by
    refine readClauses_option (fun filter => { object, entries, filter }) .filter String.toList
      fun s present => ?_
    simp only [readClause, bare_clause, bare_body _ (filterSound s present),
      readText_sound _ (filterSound s present)]
    rfl
  have ordered : readClauses { object, entries, filter }
      ((ordering.toList.map fun s => (.ordering, s.toList)).map bare) =
        .ok { object, entries, filter, ordering } := by
    refine readClauses_option (fun ordering => { object, entries, filter, ordering }) .ordering
      String.toList fun s present => ?_
    simp only [readClause, bare_clause, bare_body _ (orderingSound s present),
      readText_sound _ (orderingSound s present)]
    rfl
  have limited : readClauses { object, entries, filter, ordering }
      ((limit.toList.map fun n => (.limit, decimal n.toNat)).map bare) =
        .ok { object, entries, filter, ordering, limit } := by
    refine readClauses_option (fun limit => { object, entries, filter, ordering, limit }) .limit
      (fun n => decimal n.toNat) fun n _ => ?_
    simp only [readClause, bare_clause, bare_body _ (decimal_sound n.toNat), readNumber_decimal]
    rfl
  have shifted : readClauses { object, entries, filter, ordering, limit }
      ((offset.toList.map fun n => (.offset, decimal n.toNat)).map bare) =
        .ok { object, entries, filter, ordering, limit, offset } := by
    refine readClauses_option
      (fun offset => { object, entries, filter, ordering, limit, offset }) .offset
      (fun n => decimal n.toNat) fun n _ => ?_
    simp only [readClause, bare_clause, bare_body _ (decimal_sound n.toNat), readNumber_decimal]
    rfl
  rw [readClauses_bare (bodies_sound ⟨selection, read, objectName, objectClear, filterSound,
    orderingSound⟩)]
  have two : ∀ b b' : Clause × List Char, [b, b'].map bare = [bare b] ++ [bare b'] := fun _ _ => rfl
  simp only [bodies, List.map_append, two, readClauses_append, selected, named, filtered, ordered,
    limited, shifted, Except.bind]

theorem checkOrder_bodies (q : Query) :
    checkOrder [] ((layout (bodies q)).map Piece.clause) = .ok () := by
  rw [clauses_layout]
  cases q with
  | mk object entries filter ordering limit offset =>
    cases filter <;> cases ordering <;> cases limit <;> cases offset <;> rfl

/-- The canonical text of a readable query is read back as the query. -/
theorem parse_compose {q : Query} (h : Readable q) : parse q.compose = .ok q := by
  have sound := bodies_sound h
  have trimmed : Trimmed q.compose.toList := by
    rw [compose_layout]
    exact layout_trimmed fun b member => ⟨(sound b member).nonempty, (sound b member).trimmed⟩
  have cuts : pieces q.compose.toList = .ok ([], layout (bodies q)) := by
    rw [compose_layout]
    exact cut_standing (layout_standing fun b member => (sound b member).clear) true fun _ => rfl
  have nonempty : q.compose.toList ≠ [] := by
    intro empty
    rw [compose_layout] at empty
    exact absurd empty (by simp [bodies, textOf_layout, written])
  have selects : startsWithSelect [] (layout (bodies q)) = true := rfl
  have from_ : (layout (bodies q)).all (·.clause ≠ .object) = false := by
    simp [bodies, layout]
  unfold parse parseTrimmed
  rw [trim_of_trimmed trimmed, if_neg (by simpa using nonempty), cuts]
  simp only [Except.bind, selects, checkOrder_bodies, from_, readClauses_layout h]
  rfl

end MigrationPlan.Query
