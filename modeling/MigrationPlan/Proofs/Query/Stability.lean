import MigrationPlan.Proofs.Query.RoundTrip
import MigrationPlan.Proofs.Query.Splitting

/- Whatever text a query is parsed from, its canonical text stands for the same query: all that
   parsing gives can be written and read back. -/
namespace MigrationPlan.Query
open Text

structure Known (q : Query) : Prop where
  filter : ∀ s ∈ q.filter, Sound s.toList
  ordering : ∀ s ∈ q.ordering, Sound s.toList

def KnownEntries (l : List Entry) : Prop := ∃ body, Clear body ∧ readSelection body = .ok l

def KnownObject (object : String) : Prop := isObjectName object.toList = true ∧ Clear object.toList

theorem readText_known {clause : Clause} {p : Piece} {s : String} (clear : Clear p.body)
    (read : readText clause p.body = .ok s) : ∀ t ∈ some s, Sound t.toList := by
  rintro t ⟨rfl⟩
  unfold readText at read
  split at read
  · cases read
  · next nonempty =>
    rw [← Except.ok.inj read, String.toList_ofList]
    exact ⟨by simpa using nonempty, trim_trimmed _, clear⟩

theorem readObject_known {p : Piece} {object : String} (clear : Clear p.body)
    (read : readObject p.body = .ok object) : KnownObject object := by
  unfold readObject at read
  split at read
  · next name =>
    rw [← Except.ok.inj read]
    exact ⟨by rwa [String.toList_ofList], by rwa [String.toList_ofList]⟩
  · cases read

theorem map_ok {ε α β : Type} {x : Except ε α} {f : α → β} {b : β} (ok : x.map f = .ok b) :
    ∃ a, x = .ok a ∧ f a = b := by
  cases x with
  | error e => cases ok
  | ok a => exact ⟨a, rfl, Except.ok.inj ok⟩

theorem bind_ok {ε α β : Type} {x : Except ε α} {f : α → Except ε β} {b : β}
    (ok : x.bind f = .ok b) :
    ∃ a, x = .ok a ∧ f a = .ok b := by
  cases x with
  | error e => cases ok
  | ok a => exact ⟨a, rfl, ok⟩

structure Reads (q : Query) (clause : Clause) (q' : Query) : Prop where
  known : Known q → Known q'
  entries : KnownEntries q.entries ∨ clause = .selection → KnownEntries q'.entries
  object : KnownObject q.object ∨ clause = .object → KnownObject q'.object

theorem Reads.beside {q q' : Query} {clause : Clause} (known : Known q → Known q')
    (entries : q'.entries = q.entries)
    (object : q'.object = q.object) (other : clause ≠ .selection ∧ clause ≠ .object) :
    Reads q clause q' where
  known
  entries h := entries ▸ h.resolve_right other.1
  object h := object ▸ h.resolve_right other.2

theorem readClause_reads {q q' : Query} {p : Piece} (clear : Clear p.body)
    (read : readClause q p = .ok q') :
    Reads q p.clause q' := by
  unfold readClause at read
  cases clause : p.clause with
  | selection =>
    rw [clause] at read
    obtain ⟨l, entries, rfl⟩ := map_ok read
    exact
      { known := fun known => ⟨known.filter, known.ordering⟩
        entries := fun _ => ⟨p.body, clear, entries⟩
        object := fun object => object.resolve_right (by simp) }
  | object =>
    rw [clause] at read
    obtain ⟨o, object, rfl⟩ := map_ok read
    exact
      { known := fun known => ⟨known.filter, known.ordering⟩
        entries := fun entries => entries.resolve_right (by simp)
        object := fun _ => readObject_known clear object }
  | filter =>
    rw [clause] at read
    obtain ⟨s, text, rfl⟩ := map_ok read
    exact .beside (fun known => ⟨readText_known clear text, known.ordering⟩) rfl rfl (by simp)
  | ordering =>
    rw [clause] at read
    obtain ⟨s, text, rfl⟩ := map_ok read
    exact .beside (fun known => ⟨known.filter, readText_known clear text⟩) rfl rfl (by simp)
  | limit =>
    rw [clause] at read
    obtain ⟨n, _, rfl⟩ := map_ok read
    exact .beside (fun known => ⟨known.filter, known.ordering⟩) rfl rfl (by simp)
  | offset =>
    rw [clause] at read
    obtain ⟨n, _, rfl⟩ := map_ok read
    exact .beside (fun known => ⟨known.filter, known.ordering⟩) rfl rfl (by simp)

theorem readClauses_reads {q q' : Query} {ps : List Piece} (clear : ∀ p ∈ ps, Clear p.body)
    (read : readClauses q ps = .ok q') :
    (Known q → Known q') ∧
      (KnownEntries q.entries ∨ .selection ∈ ps.map Piece.clause → KnownEntries q'.entries) ∧
      (KnownObject q.object ∨ .object ∈ ps.map Piece.clause → KnownObject q'.object) := by
  induction ps generalizing q with
  | nil =>
    have same := Except.ok.inj read
    subst same
    exact ⟨id, fun entries => entries.resolve_right (by simp),
      fun object => object.resolve_right (by simp)⟩
  | cons p ps ih =>
    obtain ⟨middle, first, rest⟩ := bind_ok read
    obtain ⟨known, entries, object⟩ := readClause_reads (clear p (List.mem_cons_self)) first
    obtain ⟨known', entries', object'⟩ :=
      ih (fun d member => clear d (List.mem_cons_of_mem _ member)) rest
    refine ⟨fun h => known' (known h), fun h => entries' ?_, fun h => object' ?_⟩
    · rw [List.map_cons, List.mem_cons, ← or_assoc, eq_comm (b := p.clause)] at h
      rcases h with here | later
      · exact Or.inl (entries here)
      · exact Or.inr later
    · rw [List.map_cons, List.mem_cons, ← or_assoc, eq_comm (b := p.clause)] at h
      rcases h with here | later
      · exact Or.inl (object here)
      · exact Or.inr later

theorem selection_sound {body : List Char} {l : List Entry} (clear : Clear body)
    (read : readSelection body = .ok l) :
    Sound (keysText l) := by
  obtain ⟨parts, rfl, _, nonblank, rfl⟩ := readSelection_parts read
  have some : parts.map Entry.keyText ≠ [] := by
    intro none
    rw [List.map_eq_nil_iff.mp none] at read
    cases read
  have keys : ∀ k ∈ parts.map Entry.keyText, k ≠ [] ∧ Trimmed k := by
    intro k member
    obtain ⟨u, inParts, rfl⟩ := List.mem_map.mp member
    exact ⟨Entry.keyText_ne_nil (nonblank u inParts), Entry.keyText_trimmed u⟩
  obtain ⟨nonempty, trimmed⟩ := keys_trimmed keys some
  rw [keysText, keys_read]
  exact ⟨nonempty, trimmed, keys_clear clear⟩

theorem selection_mem {lead : List Char} {ps : List Piece}
    (starts : startsWithSelect lead ps = true) :
    Clause.selection ∈ ps.map Piece.clause := by
  simp only [startsWithSelect, Bool.and_eq_true, Option.any_eq_true, decide_eq_true_eq] at starts
  obtain ⟨_, p, first, isSelection⟩ := starts
  exact List.mem_map.mpr ⟨p, List.mem_of_mem_head? first, isSelection⟩

theorem object_mem {ps : List Piece} (from_ : ps.all (·.clause ≠ .object) ≠ true) :
    Clause.object ∈ ps.map Piece.clause := by
  simp only [ne_eq, decide_not, List.all_eq_true, Bool.not_eq_true',
    decide_eq_false_iff_not, not_forall, not_not] at from_
  obtain ⟨p, member, isObject⟩ := from_
  exact List.mem_map.mpr ⟨p, member, isObject⟩

/-- All that parsing gives can be read back from its canonical text. -/
theorem readable_of_parse {t : String} {q : Query} (parsed : parse t = .ok q) : Readable q := by
  unfold parse parseTrimmed at parsed
  split at parsed
  · cases parsed
  · obtain ⟨⟨lead, ps⟩, cuts, rest⟩ := bind_ok parsed
    simp only at rest
    split at rest
    · cases rest
    · next starts =>
      obtain ⟨_, _, rest⟩ := bind_ok rest
      split at rest
      · cases rest
      · next from_ =>
        obtain ⟨_, _, _, standing⟩ := cut_eq_ok.mp cuts
        obtain ⟨known, entries, object⟩ := readClauses_reads (bodies_clear standing) rest
        obtain ⟨body, clear, read⟩ := entries (Or.inr (selection_mem (by simpa using starts)))
        obtain ⟨name, objectClear⟩ := object (Or.inr (object_mem from_))
        -- the query that reading starts from has no clause yet
        obtain ⟨filter, ordering⟩ := known ⟨by rintro s ⟨⟩, by rintro s ⟨⟩⟩
        exact
          { selection := selection_sound clear read
            entries := readSelection_keys read
            object := name
            objectClear
            filter
            ordering }

/-- The canonical text of a query that was parsed is parsed as the same query, so that composing
    once more changes nothing. -/
theorem canonical_text_stable {t : String} {q : Query} (parsed : parse t = .ok q) :
    parse q.compose = .ok q ∧ (parse q.compose).map compose = .ok q.compose := by
  have again := parse_compose (readable_of_parse parsed)
  refine ⟨again, ?_⟩
  rw [again]
  rfl

def codedAccounts : Query :=
  { object := "Account"
    entries := [.plain "Id", .composite ["Name", "Code"], .expression "format('a\\'b')"]
    filter := some "Note = 'it\\'s FROM (here'"
    ordering := some "order DESC"
    limit := some 7 }

/-- A text whose blanks, dollar signs and plus sign are not those of the canonical text, with quotes
    that a backslash keeps from closing. -/
theorem canonical_text_stable_accounts :
    parse
      "select Id ,$$ Name $ $Code$ , format('a\\'b')\nFrom Account\twhere Note = 'it\\'s FROM (here' order  BY order DESC limit +007" =
        .ok codedAccounts ∧
      parse codedAccounts.compose = .ok codedAccounts := by
  have parsed :
      parse
        "select Id ,$$ Name $ $Code$ , format('a\\'b')\nFrom Account\twhere Note = 'it\\'s FROM (here' order  BY order DESC limit +007" =
      .ok codedAccounts := by decide +kernel
  exact ⟨parsed, (canonical_text_stable parsed).1⟩

end MigrationPlan.Query
