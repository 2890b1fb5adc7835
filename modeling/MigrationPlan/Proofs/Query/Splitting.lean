import MigrationPlan.Proofs.Query.Entry
import MigrationPlan.Query.Parser

/- Splitting a select list at its commas. Only quotes, parentheses and commas matter, so that the
   keys of the entries, written with a comma and a blank between them, are split where the entries
   were. -/
namespace MigrationPlan.Query
open Text

def pass? (quoted : Bool) (depth : Int) (c : Char) : Option (Bool × Int) :=
  if c = '\'' then some (!quoted, depth)
  else if quoted then some (quoted, depth)
  else if c = '(' then some (quoted, depth + 1)
  else if c = ')' then some (quoted, depth - 1)
  else if c = ',' ∧ depth = 0 then none
  else some (quoted, depth)

def walk (quoted : Bool) (depth : Int) : List Char → Option (Bool × Int)
  | [] => some (quoted, depth)
  | c :: s => (pass? quoted depth c).bind fun state => walk state.1 state.2 s

def Parts (quoted : Bool) (depth : Int) : List (List Char) → Prop
  | [] => False
  | [u] => (walk quoted depth u).isSome = true
  | u :: v :: rest => walk quoted depth u = some (false, 0) ∧ Parts false 0 (v :: rest)

theorem splitEntries_cons (quoted : Bool) (depth : Int) (c : Char) (s : List Char) :
    splitEntries quoted depth (c :: s) =
      match pass? quoted depth c with
      | none => [] :: splitEntries quoted depth s
      | some state => (splitEntries state.1 state.2 s).modifyHead (c :: ·) := by
  unfold pass?
  rw [splitEntries]
  split_ifs <;> rfl

theorem pass_none {quoted : Bool} {depth : Int} {c : Char} (comma : pass? quoted depth c = none) :
    c = ',' ∧ quoted = false ∧ depth = 0 := by
  unfold pass? at comma
  split_ifs at comma with _ inside _ _ last
  exact ⟨last.1, by simpa using inside, last.2⟩

theorem splitEntries_ne_nil (quoted : Bool) (depth : Int) (s : List Char) :
    splitEntries quoted depth s ≠ [] := by
  induction s generalizing quoted depth with
  | nil => simp [splitEntries]
  | cons c s ih =>
    rw [splitEntries_cons]
    cases pass? quoted depth c with
    | none => simp
    | some state => simpa using ih state.1 state.2

theorem parts_cons {quoted : Bool} {depth : Int} {c : Char} {state : Bool × Int}
    {l : List (List Char)}
    (passed : pass? quoted depth c = some state) (parts : Parts state.1 state.2 l) :
    Parts quoted depth (l.modifyHead (c :: ·)) := by
  match l with
  | [] => exact parts
  | [u] => simpa [Parts, walk, passed] using parts
  | u :: v :: rest => simpa [Parts, walk, passed] using parts

theorem splitEntries_parts (quoted : Bool) (depth : Int) (s : List Char) :
    Parts quoted depth (splitEntries quoted depth s) := by
  induction s generalizing quoted depth with
  | nil => rfl
  | cons c s ih =>
    rw [splitEntries_cons]
    cases passed : pass? quoted depth c with
    | some state => exact parts_cons passed (ih _ _)
    | none =>
      obtain ⟨_, rfl, rfl⟩ := pass_none passed
      have rest := ih false 0
      cases later : splitEntries false 0 s with
      | nil => exact absurd later (splitEntries_ne_nil _ _ _)
      | cons v l =>
        rw [later] at rest
        exact ⟨rfl, rest⟩

theorem intercalate_modifyHead {sep : List Char} {c : Char} {l : List (List Char)}
    (nonempty : l ≠ []) :
    sep.intercalate (l.modifyHead (c :: ·)) = c :: sep.intercalate l := by
  match l with
  | [] => exact absurd rfl nonempty
  | [u] => simp
  | u :: v :: rest => simp [List.intercalate_cons_cons]

theorem splitEntries_join (quoted : Bool) (depth : Int) (s : List Char) :
    [','].intercalate (splitEntries quoted depth s) = s := by
  induction s generalizing quoted depth with
  | nil => rfl
  | cons c s ih =>
    rw [splitEntries_cons]
    cases passed : pass? quoted depth c with
    | some state => exact (intercalate_modifyHead (splitEntries_ne_nil _ _ _)).trans (by rw [ih])
    | none =>
      obtain ⟨rfl, _, _⟩ := pass_none passed
      rw [List.intercalate_cons_of_ne_nil (splitEntries_ne_nil _ _ _), ih]
      rfl

theorem splitEntries_alone {quoted : Bool} {depth : Int} {u : List Char}
    (walks : (walk quoted depth u).isSome = true) : splitEntries quoted depth u = [u] := by
  induction u generalizing quoted depth with
  | nil => rfl
  | cons c u ih =>
    rw [splitEntries_cons]
    cases passed : pass? quoted depth c with
    | none => simp [walk, passed] at walks
    | some state =>
      have rest : splitEntries state.1 state.2 u = [u] := ih (by simpa [walk, passed] using walks)
      simp [rest]

theorem splitEntries_comma {quoted : Bool} {depth : Int} {u : List Char} (t : List Char)
    (walks : walk quoted depth u = some (false, 0)) :
    splitEntries quoted depth (u ++ ',' :: t) = u :: splitEntries false 0 t := by
  induction u generalizing quoted depth with
  | nil =>
    obtain ⟨rfl, rfl⟩ := Prod.mk.inj (Option.some.inj walks)
    rfl
  | cons c u ih =>
    rw [List.cons_append, splitEntries_cons]
    cases passed : pass? quoted depth c with
    | none => simp [walk, passed] at walks
    | some state =>
      have rest : splitEntries state.1 state.2 (u ++ ',' :: t) = u :: splitEntries false 0 t :=
        ih (by simpa [walk, passed] using walks)
      simp [rest]

/-- Parts joined by commas are split where they were joined. -/
theorem splitEntries_intercalate {quoted : Bool} {depth : Int} {l : List (List Char)}
    (parts : Parts quoted depth l) :
    splitEntries quoted depth ([','].intercalate l) = l := by
  induction l generalizing quoted depth with
  | nil => cases parts
  | cons u l ih =>
    cases l with
    | nil => simpa using splitEntries_alone parts
    | cons v rest =>
      have later := ih parts.2
      rw [List.intercalate_cons_cons, List.append_assoc, List.singleton_append,
        splitEntries_comma _ parts.1, later]

def isMark (c : Char) : Bool := c == '\'' || c == '(' || c == ')' || c == ','

def marks (s : List Char) : List Char := s.filter isMark

theorem marks_append (s t : List Char) : marks (s ++ t) = marks s ++ marks t :=
  List.filter_append ..

theorem pass_unmarked (quoted : Bool) (depth : Int) {c : Char} (unmarked : isMark c = false) :
    pass? quoted depth c = some (quoted, depth) := by
  simp only [isMark, Bool.or_eq_false_iff, beq_eq_false_iff_ne] at unmarked
  obtain ⟨⟨⟨quote, opening⟩, closing⟩, comma⟩ := unmarked
  simp [pass?, quote, opening, closing, comma]

theorem walk_marks (quoted : Bool) (depth : Int) (s : List Char) :
    walk quoted depth (marks s) = walk quoted depth s := by
  induction s generalizing quoted depth with
  | nil => rfl
  | cons c s ih =>
    cases mark : isMark c with
    | true =>
      have kept : marks (c :: s) = c :: marks s := List.filter_cons_of_pos mark
      rw [kept]
      simp only [walk, ih]
    | false =>
      have dropped : marks (c :: s) = marks s := List.filter_cons_of_neg (by simp [mark])
      rw [dropped, ih]
      simp only [walk, pass_unmarked quoted depth mark, Option.bind_some]

theorem walk_congr {s t : List Char} (same : marks s = marks t) (quoted : Bool) (depth : Int) :
    walk quoted depth s = walk quoted depth t := by
  rw [← walk_marks, same, walk_marks]

theorem marks_blank {s : List Char} (blank : Blank s) : marks s = [] := by
  apply List.filter_eq_nil_iff.mpr
  intro c member
  have unmarked : ∀ d, isBlank d = false → (c == d) = false := by
    intro d noBlank
    rw [beq_eq_false_iff_ne]
    exact ne_of_test (blank c member) noBlank
  simp [isMark, unmarked '\'' (by decide), unmarked '(' (by decide), unmarked ')' (by decide),
    unmarked ',' (by decide)]

theorem marks_trim (s : List Char) : marks (trim s) = marks s := by
  obtain ⟨a, b, blankA, blankB, split⟩ := trim_parts s
  have whole := congrArg marks split
  rw [marks_append, marks_append, marks_blank blankA, marks_blank blankB] at whole
  simpa using whole.symm

theorem marks_intercalate (l : List (List Char)) :
    marks (['$'].intercalate l) = l.flatMap marks := by
  induction l with
  | nil => rfl
  | cons u l ih =>
    cases l with
    | nil => simp
    | cons v rest =>
      have dollar : marks ['$'] = [] := by decide
      rw [List.intercalate_cons_cons, marks_append, marks_append, ih, dollar, List.append_nil]
      rfl

/-- Parts that are dropped hold no mark, and trimming takes none away. -/
theorem marks_keptParts (s : List Char) :
    marks (['$'].intercalate (Entry.keptParts s)) = marks s := by
  have kept : ∀ l : List (List Char),
      ((l.map trim).filter (! ·.isEmpty)).flatMap marks = l.flatMap marks := by
    intro l
    induction l with
    | nil => rfl
    | cons u l ih =>
      rw [List.flatMap_cons, ← marks_trim u, List.map_cons]
      cases empty : (trim u).isEmpty with
      | true =>
        rw [List.filter_cons_of_neg (by simp [empty]), ih, List.isEmpty_iff.mp empty]
        rfl
      | false => rw [List.filter_cons_of_pos (by simp [empty]), List.flatMap_cons, ih]
  rw [marks_intercalate, Entry.keptParts, kept, ← marks_intercalate, List.intercalate_splitOn]

theorem marks_keyText (s : List Char) : marks (Entry.keyText s) = marks s := by
  by_cases mark : ∃ rest, trim s = '$' :: '$' :: rest
  · obtain ⟨rest, marked⟩ := mark
    have same : ∀ t, marks ('$' :: '$' :: t) = marks t := by
      intro t
      rfl
    rw [Entry.keyText_marked marked, same, marks_keptParts, ← marks_trim s, marked, same]
  · rw [not_exists] at mark
    rw [Entry.keyText_unmarked mark, marks_trim]

theorem readEntries_eq_ok (position : Nat) {parts : List (List Char)} {l : List Entry} :
    readEntries position parts = .ok l ↔ (∀ u ∈ parts, trim u ≠ []) ∧ parts.map Entry.read = l := by
  induction parts generalizing position l with
  | nil => simp [readEntries]
  | cons u parts ih =>
    unfold readEntries
    by_cases empty : trim u = []
    · simp [empty]
    · rw [if_neg (by simpa using empty)]
      cases rest : readEntries (position + 1) parts with
      | error e =>
        have failed := (not_congr (@ih (position + 1) (parts.map Entry.read))).mp (by simp [rest])
        simp only [Except.map, List.mem_cons, forall_eq_or_imp, reduceCtorEq, false_iff]
        exact fun all => failed ⟨all.1.2, rfl⟩
      | ok m =>
        obtain ⟨all, same⟩ := (ih (position + 1)).mp rest
        simp only [Except.map, Except.ok.injEq, List.mem_cons, forall_eq_or_imp,
          List.map_cons, same]
        exact ⟨fun eq => ⟨⟨empty, all⟩, eq⟩, fun eq => eq.2⟩

def keyParts : List (List Char) → List (List Char)
  | [] => []
  | u :: rest => Entry.keyText u :: rest.map fun v => ' ' :: Entry.keyText v

theorem keyParts_join (l : List (List Char)) :
    [','].intercalate (keyParts l) = [',', ' '].intercalate (l.map Entry.keyText) := by
  have later : ∀ (u : List Char) (l : List (List Char)),
      [','].intercalate (u :: l.map fun v => ' ' :: Entry.keyText v) =
        [',', ' '].intercalate (u :: l.map Entry.keyText) := by
    intro u l
    induction l generalizing u with
    | nil => simp
    | cons v l ih =>
      have shifted :
          [','].intercalate ((' ' :: Entry.keyText v) :: l.map fun v => ' ' :: Entry.keyText v) =
          ' ' :: [','].intercalate (Entry.keyText v :: l.map fun v => ' ' :: Entry.keyText v) :=
        intercalate_modifyHead (l := Entry.keyText v :: _) (by simp)
      simp only [List.map_cons, List.intercalate_cons_cons, shifted, ih]
      simp
  cases l with
  | nil => rfl
  | cons u l => exact later (Entry.keyText u) l

theorem marks_shifted (u : List Char) : marks (' ' :: Entry.keyText u) = marks u := marks_keyText u

theorem keyParts_parts {l : List (List Char)} (parts : Parts false 0 l) :
    Parts false 0 (keyParts l) := by
  have later : ∀ l : List (List Char), Parts false 0 l →
      Parts false 0 (l.map fun v => ' ' :: Entry.keyText v) := by
    intro l parts
    induction l with
    | nil => exact parts
    | cons u l ih =>
      have walked := walk_congr (marks_shifted u) false 0
      cases l with
      | nil => simpa [Parts, walked] using parts
      | cons v rest => exact ⟨walked.trans parts.1, ih parts.2⟩
  cases l with
  | nil => exact parts
  | cons u l =>
    have walked := walk_congr (marks_keyText u) false 0
    cases l with
    | nil => simpa [Parts, keyParts, walked] using parts
    | cons v rest => exact ⟨walked.trans parts.1, later _ parts.2⟩

theorem read_shifted (u : List Char) : Entry.read (' ' :: Entry.keyText u) = Entry.read u := by
  rw [← Entry.read_trim, trim_space, Entry.read_trim, Entry.read_keyText]

theorem keyParts_read (l : List (List Char)) : (keyParts l).map Entry.read = l.map Entry.read := by
  cases l with
  | nil => rfl
  | cons u l =>
    simp only [keyParts, List.map_cons, List.map_map, Entry.read_keyText,
      Function.comp_def, read_shifted]

theorem keyParts_nonblank {l : List (List Char)} (nonblank : ∀ u ∈ l, trim u ≠ []) :
    ∀ v ∈ keyParts l, trim v ≠ [] := by
  have key : ∀ u, trim u ≠ [] → trim (Entry.keyText u) ≠ [] := by
    intro u some
    rw [trim_of_trimmed (Entry.keyText_trimmed u)]
    exact Entry.keyText_ne_nil some
  have shifted : ∀ u, trim u ≠ [] → trim (' ' :: Entry.keyText u) ≠ [] := by
    intro u some
    rw [trim_space]
    exact key u some
  cases l with
  | nil => exact nonblank
  | cons u l =>
    intro v member
    rcases List.mem_cons.mp member with rfl | later
    · exact key u (nonblank u (List.mem_cons_self))
    · obtain ⟨w, inList, rfl⟩ := List.mem_map.mp later
      exact shifted w (nonblank w (List.mem_cons_of_mem _ inList))

theorem readSelection_parts {body : List Char} {l : List Entry}
    (read : readSelection body = .ok l) :
    ∃ parts, body = [','].intercalate parts ∧ Parts false 0 parts ∧ (∀ u ∈ parts, trim u ≠ []) ∧
      parts.map Entry.read = l := by
  unfold readSelection at read
  split at read
  · cases read
  · obtain ⟨nonblank, same⟩ := (readEntries_eq_ok 0).mp read
    exact ⟨_, (splitEntries_join false 0 body).symm, splitEntries_parts false 0 body,
      nonblank, same⟩

theorem keys_read (parts : List (List Char)) :
    (parts.map Entry.read).map (fun e => e.key.toList) = parts.map Entry.keyText := by
  simp only [List.map_map, Function.comp_def, Entry.key_read]

theorem keys_trimmed {ks : List (List Char)} (keys : ∀ k ∈ ks, k ≠ [] ∧ Trimmed k)
    (nonempty : ks ≠ []) :
    [',', ' '].intercalate ks ≠ [] ∧ Trimmed ([',', ' '].intercalate ks) := by
  induction ks with
  | nil => exact absurd rfl nonempty
  | cons k ks ih =>
    obtain ⟨some, trimmed⟩ := keys k (List.mem_cons_self)
    cases ks with
    | nil => simpa using ⟨some, trimmed⟩
    | cons next ks =>
      obtain ⟨someRest, trimmedRest⟩ :=
        ih (fun d member => keys d (List.mem_cons_of_mem _ member)) (by simp)
      rw [List.intercalate_cons_cons, List.append_assoc]
      refine ⟨by simp, trimmed_append trimmed.first ?_ some (by simp)⟩
      intro c last
      rw [List.getLast?_append_of_ne_nil _ someRest] at last
      exact trimmedRest.last c last

/-- The keys of a select list, written as they are composed, are read as the list. -/
theorem readSelection_keys {body : List Char} {l : List Entry} (read : readSelection body = .ok l) :
    readSelection ([',', ' '].intercalate (l.map fun e => e.key.toList)) = .ok l := by
  obtain ⟨parts, _, parted, nonblank, rfl⟩ := readSelection_parts read
  have some : parts ≠ [] := by
    intro empty
    rw [empty] at parted
    exact parted
  have keys : ∀ k ∈ parts.map Entry.keyText, k ≠ [] ∧ Trimmed k := by
    intro k member
    obtain ⟨u, inParts, rfl⟩ := List.mem_map.mp member
    exact ⟨Entry.keyText_ne_nil (nonblank u inParts), Entry.keyText_trimmed u⟩
  have nonempty := (keys_trimmed keys (by simpa using some)).1
  unfold readSelection
  rw [keys_read, if_neg (by simpa using nonempty), ← keyParts_join,
    splitEntries_intercalate (keyParts_parts parted)]
  exact (readEntries_eq_ok 0).mpr ⟨keyParts_nonblank nonblank, keyParts_read parts⟩

end MigrationPlan.Query
