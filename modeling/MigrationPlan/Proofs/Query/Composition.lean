import MigrationPlan.Proofs.Query.Grammar

/- Queries that are put together rather than read. The parts are judged one by one; no two of them
   run together into a keyword, since the composed text puts a blank or a comma between them that no
   keyword can span. -/
namespace MigrationPlan.Query
open Text

structure Writable (e : Entry) : Prop where
  read : Entry.read e.key.toList = e
  nonempty : e.key.toList ≠ []
  unquoted : '\'' ∉ e.key.toList
  undivided : ∀ before after, e.key.toList = before ++ ',' :: after → ¬Nested before 0
  free : Free e.key.toList

structure Composed (text : List Char) : Prop where
  nonempty : text ≠ []
  trimmed : Trimmed text
  free : Free text

structure Composable (q : Query) : Prop where
  objectNonempty : q.object.toList ≠ []
  objectWord : ∀ c ∈ q.object.toList, isWordChar c = true
  objectNoKeyword : ∀ keyword ∈ ["SELECT", "FROM", "WHERE", "LIMIT", "OFFSET"],
    ¬Alike q.object.toList keyword
  entries : q.entries ≠ []
  writable : ∀ e ∈ q.entries, Writable e
  filter : ∀ text ∈ q.filter, Composed text.toList
  ordering : ∀ text ∈ q.ordering, Composed text.toList

/-! Keys in a select list. -/

instance (body : List Char) : Decidable (Clear body) :=
  inferInstanceAs (Decidable (scan [] true (.outside 0) body = some (.outside 0)))

/-- Outside literals the search for keywords and the splitting of the select list count the same
    parentheses. -/
theorem pass_outside {depth : Nat} {c : Char} {place : Place} (noQuote : c ≠ '\'')
    (undivided : ¬(c = ',' ∧ depth = 0)) (entered : (Place.outside depth).next? c = some place) :
    ∃ depth' : Nat, place = .outside depth' ∧
      pass? false depth c = some (false, (depth' : Int)) := by
  simp only [Place.next?, noQuote, ↓reduceIte] at entered
  unfold pass?
  simp only [noQuote, ↓reduceIte, Bool.false_eq_true, Int.natCast_eq_zero, undivided]
  split_ifs at entered with opening closing
  · cases entered
    exact ⟨depth + 1, rfl, by simp [opening]⟩
  · cases depth with
    | zero => cases entered
    | succ depth =>
      cases entered
      exact ⟨depth, rfl, by simp [closing]⟩
  · cases entered
    exact ⟨depth, rfl, by simp [opening, closing]⟩

theorem walk_iff {depth depth' : Nat} {s : List Char} (unquoted : '\'' ∉ s)
    (reached : (Place.outside depth).after? s = some (.outside depth')) :
    walk false depth s = some (false, (depth' : Int)) ↔
      ∀ before after, s = before ++ ',' :: after →
        (Place.outside depth).after? before ≠ some (.outside 0) := by
  induction s generalizing depth with
  | nil =>
    obtain rfl : depth = depth' := Place.outside.inj (Option.some.inj reached)
    simp [walk]
  | cons c s ih =>
    rw [List.mem_cons, not_or] at unquoted
    rw [after_cons] at reached
    obtain ⟨place, entered, rest⟩ := Option.bind_eq_some_iff.mp reached
    by_cases divided : c = ',' ∧ depth = 0
    · obtain ⟨rfl, rfl⟩ := divided
      have stops : pass? false (0 : Nat) ',' = none := rfl
      simp only [walk, stops, Option.bind_none, reduceCtorEq, false_iff]
      exact fun undivided => undivided [] s rfl rfl
    · obtain ⟨middle, rfl, passed⟩ := pass_outside (Ne.symm unquoted.1) divided entered
      simp only [walk, passed, Option.bind_some, ih unquoted.2 rest]
      constructor
      · intro undivided before after whole
        cases before with
        | nil =>
          obtain ⟨comma, _⟩ := List.cons.inj whole
          intro atZero
          exact divided ⟨comma, Place.outside.inj (Option.some.inj atZero)⟩
        | cons d before =>
          obtain ⟨rfl, later⟩ := List.cons.inj whole
          rw [after_cons, entered]
          exact undivided before after later
      · intro undivided before after whole
        have longer := undivided (c :: before) after (by rw [whole]; rfl)
        rwa [after_cons, entered] at longer

theorem writable_walk {e : Entry} (unquoted : '\'' ∉ e.key.toList)
    (nested : Nested e.key.toList 0) :
    walk false 0 e.key.toList = some (false, 0) ↔
      ∀ before after, e.key.toList = before ++ ',' :: after → ¬Nested before 0 := by
  simp only [nested_iff]
  exact walk_iff unquoted (after_nested nested)

theorem writable_iff {e : Entry} :
    Writable e ↔ Entry.read e.key.toList = e ∧ e.key.toList ≠ [] ∧ '\'' ∉ e.key.toList ∧
      walk false 0 e.key.toList = some (false, 0) ∧ Clear e.key.toList := by
  constructor
  · intro h
    exact ⟨h.read, h.nonempty, h.unquoted, (writable_walk h.unquoted h.free.1).mpr h.undivided,
      clear_iff.mpr h.free⟩
  · rintro ⟨read, nonempty, unquoted, walks, clear⟩
    have free := clear_iff.mp clear
    exact ⟨read, nonempty, unquoted, (writable_walk unquoted free.1).mp walks, free⟩

instance (e : Entry) : Decidable (Writable e) := decidable_of_iff' _ writable_iff

theorem Writable.trimmed {e : Entry} (h : Writable e) : Trimmed e.key.toList := by
  rw [← h.read, Entry.key_read]
  exact Entry.keyText_trimmed _

theorem parts_of_walk {ks : List (List Char)} (some : ks ≠ [])
    (walks : ∀ k ∈ ks, walk false 0 k = .some (false, 0)) :
    Parts false 0 ks := by
  induction ks with
  | nil => exact absurd rfl some
  | cons k ks ih =>
    obtain ⟨first, rest⟩ := List.forall_mem_cons.mp walks
    cases ks with
    | nil => simp [Parts, first]
    | cons next ks => exact ⟨first, ih (by simp) rest⟩

theorem clear_joined {ks : List (List Char)} (clear : ∀ k ∈ ks, Clear k) :
    Clear ([','].intercalate ks) := by
  induction ks with
  | nil => rfl
  | cons k ks ih =>
    obtain ⟨first, rest⟩ := List.forall_mem_cons.mp clear
    cases ks with
    | nil => simpa using first
    | cons next ks =>
      have quiet : Quiet (',' :: [','].intercalate (next :: ks) ++ []) :=
        quiet_cons (by decide) (by decide) _
      have seam := scan_weaken opens_nil quiet id first
      unfold Clear
      rw [List.intercalate_cons_cons, List.append_assoc, List.singleton_append, scan_append, seam,
        Option.bind_some, scan_spacer (by decide)]
      exact ih rest

theorem readSelection_joined {l : List Entry} (some : l ≠ []) (writable : ∀ e ∈ l, Writable e) :
    readSelection ([','].intercalate (l.map fun e => e.key.toList)) = .ok l := by
  have keys : ∀ k ∈ l.map (fun e => e.key.toList), k ≠ [] ∧ Trimmed k := by
    intro k member
    obtain ⟨e, inList, rfl⟩ := List.mem_map.mp member
    exact ⟨(writable e inList).nonempty, (writable e inList).trimmed⟩
  have parts : Parts false 0 (l.map fun e => e.key.toList) := by
    refine parts_of_walk (by simpa using some) fun k member => ?_
    obtain ⟨e, inList, rfl⟩ := List.mem_map.mp member
    obtain ⟨_, _, _, walks, _⟩ := writable_iff.mp (writable e inList)
    exact walks
  have split := splitEntries_intercalate parts
  have body : [','].intercalate (l.map fun e => e.key.toList) ≠ [] := by
    intro empty
    rw [empty] at split
    -- the empty text splits into one part, which is empty
    exact (keys [] (split ▸ List.mem_singleton_self _)).1 rfl
  rw [readSelection, if_neg (by simpa using body), split]
  refine (readEntries_eq_ok 0).mpr ⟨fun k member => ?_, ?_⟩
  · rw [trim_of_trimmed (keys k member).2]
    exact (keys k member).1
  · rw [List.map_map]
    exact (List.map_congr_left fun e member => (writable e member).read).trans (List.map_id l)

/-! The other parts. -/

theorem composed_iff {text : List Char} : Composed text ↔ Sound text := by
  constructor
  · intro h
    exact ⟨h.nonempty, h.trimmed, clear_iff.mpr h.free⟩
  · intro h
    exact ⟨h.nonempty, h.trimmed, clear_iff.mp h.clear⟩

theorem object_clear {object : List Char} (word : ∀ c ∈ object, isWordChar c = true)
    (noKeyword : ∀ keyword ∈ ["SELECT", "FROM", "WHERE", "LIMIT", "OFFSET"],
      ¬Alike object keyword) :
    Clear object := by
  have run : object.takeWhile isWordChar = object := List.takeWhile_eq_self_iff.mpr word
  have behind : object.dropWhile isWordChar = [] := List.dropWhile_eq_nil_iff.mpr word
  refine clear_word word ?_
  rw [keyword_eq, run, behind]
  split
  · rfl
  · rw [Option.map_eq_none_iff, Option.eq_none_iff_forall_ne_some]
    intro clause named
    obtain ⟨other, alike⟩ := ofWord_eq_some.mp named
    cases clause with
    | ordering => exact other rfl
    | _ => exact noKeyword _ (by simp [Clause.label]) alike

theorem readable_of_composable {q : Query} (h : Composable q) : Readable q := by
  have read := readSelection_joined h.entries h.writable
  have clear : Clear ([','].intercalate (q.entries.map fun e => e.key.toList)) := by
    refine clear_joined fun k member => ?_
    obtain ⟨e, inList, rfl⟩ := List.mem_map.mp member
    exact clear_iff.mpr (h.writable e inList).free
  exact
    { selection := selection_sound clear read
      entries := readSelection_keys read
      object := isObjectName_iff.mpr ⟨h.objectNonempty, h.objectWord⟩
      objectClear := object_clear h.objectWord h.objectNoKeyword
      filter := fun text present => composed_iff.mp (h.filter text present)
      ordering := fun text present => composed_iff.mp (h.ordering text present) }

/-- A query of parts that are fit to be written is read back from its text. -/
theorem composed_text_read_back {q : Query} (h : Composable q) : parse q.compose = .ok q :=
  parse_compose (readable_of_composable h)

def crowdedOrders : Query :=
  { object := "Order"
    entries :=
      [.plain "by", .path "Order.By", .composite ["Name", "Unit Code"],
        .expression "format(Id, (from))"]
    filter := some "Note = 'it\\'s ) FROM' AND Id IN (SELECT Id FROM Line LIMIT 1) OR order"
    ordering := some "By, ORDER"
    limit := some 18446744073709551615
    offset := some 0 }

theorem composed_text_read_back_orders :
    Composable crowdedOrders ∧ parse crowdedOrders.compose = .ok crowdedOrders := by
  have composable : Composable crowdedOrders :=
    { objectNonempty := by decide
      objectWord := List.all_eq_true.mp (by decide)
      objectNoKeyword := by decide
      entries := by decide
      writable := by decide +kernel
      filter := by
        rintro text ⟨rfl⟩
        exact composed_iff.mpr ⟨by decide, by decide +kernel, by decide +kernel⟩
      ordering := by
        rintro text ⟨rfl⟩
        exact composed_iff.mpr ⟨by decide, by decide +kernel, by decide +kernel⟩ }
  exact ⟨composable, composed_text_read_back composable⟩

end MigrationPlan.Query
