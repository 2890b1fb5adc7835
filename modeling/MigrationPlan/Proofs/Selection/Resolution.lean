import MigrationPlan.Proofs.Query.Stability
import MigrationPlan.Proofs.Selection.Keyword
import MigrationPlan.Proofs.Spelling.Selection

/- The resolution of a query text sorts the entries of its select list. The record id is put in
   front, plain names that are keywords make up the pattern, and all other entries stay as they are
   spelt. -/
namespace MigrationPlan
open Text SelectList

theorem Query.trimmed_of_parse {t : String} {q : Query} (parsed : parse t = .ok q) {name : String}
    (member : .plain name ∈ q.entries) : trimmed name = name := by
  obtain ⟨parts, _, _, _, entries⟩ := readSelection_parts (readable_of_parse parsed).entries
  rw [← entries] at member
  obtain ⟨part, _, read⟩ := List.mem_map.mp member
  have key : (Entry.plain name).key.toList = Entry.keyText part := read ▸ Entry.key_read part
  rw [trimmed, show name.toList = Entry.keyText part from key,
    trim_of_trimmed (Entry.keyText_trimmed part), ← key]
  exact String.ofList_toList

namespace Resolution
variable {l : List Entry}

theorem recordId_not_keyword {name : String} (same : sameName name recordId = true) :
    Pattern.isKeyword name = false := by
  rw [← Pattern.isKeyword_fold, (sameName_iff _ _).mp same, Pattern.isKeyword_fold]
  decide +kernel

def lifted (name : String) : Bool := sameName name recordId || Pattern.isKeyword name

theorem keyword_eq (e : Entry) : keyword? e = e.plainName?.filter Pattern.isKeyword := by
  unfold keyword?
  split
  next id =>
    obtain ⟨name, plain, same⟩ := (Option.any_eq_true _ _).mp id
    rw [plain, Option.filter_some_neg]
    simp [recordId_not_keyword same]
  next => rfl

theorem mem_keywords {token : String} :
    token ∈ keywords l ↔ .plain token ∈ l ∧ Pattern.isKeyword token = true := by
  simp only [keywords, keyword_eq, ← List.filter_filterMap, List.mem_filter, mem_plainNames]

theorem resolved_eq :
    resolved l = distinct (.plain recordId :: l.filter fun e => !e.plainName?.any lifted) := by
  unfold resolved
  congr 2
  apply List.filter_congr
  intro e _
  rw [keyword_eq, isRecordId]
  cases e.plainName? with
  | none => rfl
  | some name => cases keyword : Pattern.isKeyword name <;> simp [lifted, keyword]

theorem conditions_keywords :
    (keywords l).filterMap Condition.ofKeyword? =
      (l.filterMap Entry.plainName?).filterMap Condition.ofKeyword? := by
  rw [keywords, List.filterMap_filterMap, List.filterMap_filterMap]
  congr 1
  funext e
  rw [keyword_eq]
  cases e.plainName? with
  | none => rfl
  | some name =>
    rw [Option.filter_some]
    split
    next => rfl
    next other =>
      simp only [Pattern.isKeyword, Bool.or_eq_true, not_or, Bool.not_eq_true,
        Option.isSome_eq_false_iff, Option.isNone_iff_eq_none] at other
      simp [other.2]

theorem patternOf_none :
    patternOf l = none ↔ ∀ name, .plain name ∈ l → Pattern.isKeyword name = false := by
  have empty := Pattern.isEmpty_ofTokens (keywords l)
  have none : patternOf l = none ↔ (Pattern.ofTokens (keywords l)).isEmpty = true := by
    simp [patternOf]
  rw [none, empty]
  constructor
  · intro noKeyword name member
    cases keyword : Pattern.isKeyword name with
    | false => rfl
    | true => exact keyword.symm.trans (noKeyword name (mem_keywords.mpr ⟨member, keyword⟩))
  · intro noKeyword token member
    exact noKeyword token (mem_keywords.mp member).1

theorem patternOf_some {p : Pattern} (found : patternOf l = some p) :
    p = Pattern.ofTokens (keywords l) := by
  unfold patternOf at found
  dsimp only at found
  split at found
  · cases found
  · exact (Option.some.inj found).symm

/-- What a query and its resolution have in common, and what becomes of its keywords. -/
structure Lifts (q : Query) (x : Resolution) : Prop where
  rest : x.query = { q with entries := x.query.entries }
  selected : FirstSeen (fun d e => sameName d.key e.key)
    (.plain recordId :: q.entries.filter fun e => !e.plainName?.any lifted) x.query.entries
  recordIdOnce : ∃ others,
    x.query.entries = .plain recordId :: others ∧ ∀ e ∈ others, sameName e.key recordId = false
  keyword : ∀ name, .plain name ∈ q.entries → (Pattern.isKeyword name = true ↔ Pattern.Keyword name)
  noKeyword : ∀ name, .plain name ∈ x.query.entries → ¬ Pattern.Keyword name
  noPattern : x.pattern = none ↔ ∀ name, .plain name ∈ q.entries → ¬ Pattern.Keyword name
  all : ∀ p, x.pattern = some p →
    (p.all = true ↔ ∃ name, .plain name ∈ q.entries ∧ sameName name "all" = true)
  condition : ∀ name, .plain name ∈ q.entries → ∀ c,
    Condition.ofKeyword? name = some c ↔ Condition.Spelt (fold name) c
  conditions : ∀ p, x.pattern = some p →
    FirstSeen (· == ·) ((q.entries.filterMap Entry.plainName?).filterMap Condition.ofKeyword?)
      p.conditions

theorem recordId_once (l : List Entry) :
    ∃ others, resolved l = .plain recordId :: others ∧
      ∀ e ∈ others, sameName e.key recordId = false := by
  have head : (resolved l).head? = some (.plain recordId) := head_distinct _ _
  have nodup : (names (resolved l)).Nodup := names_distinct_nodup _
  obtain ⟨others, first⟩ := List.head?_eq_some_iff.mp head
  rw [first, names_nodup_cons] at nodup
  refine ⟨others, first, fun e member => (sameName_eq_false _ _).mpr fun same => ?_⟩
  exact nodup.1 (same ▸ key_mem_names member)

theorem plain_of_resolved {name : String} (selected : .plain name ∈ resolved l) :
    name = recordId ∨ .plain name ∈ l ∧ Pattern.isKeyword name = false := by
  rw [resolved_eq] at selected
  rcases List.mem_cons.mp ((distinct_sublist _).mem selected) with id | other
  · exact Or.inl (Entry.plain.inj id)
  · obtain ⟨inList, stays⟩ := List.mem_filter.mp other
    simp only [Entry.plainName?, Option.any_some, lifted, Bool.not_eq_true',
      Bool.or_eq_false_iff] at stays
    exact Or.inr ⟨inList, stays.2⟩

theorem ofKeywords_all (trim : ∀ name, .plain name ∈ l → trimmed name = name) :
    (Pattern.ofTokens (keywords l)).all = true ↔
      ∃ name, .plain name ∈ l ∧ sameName name "all" = true := by
  rw [Pattern.ofTokens_all, List.any_eq_true]
  constructor
  · rintro ⟨name, member, all⟩
    have inList := (mem_keywords.mp member).1
    rw [Pattern.isAll, trim name inList] at all
    exact ⟨name, inList, all⟩
  · rintro ⟨name, inList, all⟩
    rw [← trim name inList] at all
    have isAll : Pattern.isAll name = true := all
    exact ⟨name, mem_keywords.mpr ⟨inList, by simp [Pattern.isKeyword, isAll]⟩, isAll⟩

theorem ofQuery_lifts {q : Query} (trim : ∀ name, .plain name ∈ q.entries → trimmed name = name) :
    Lifts q (ofQuery q) where
  rest := rfl
  selected := by
    rw [show (ofQuery q).query.entries = _ from resolved_eq]
    exact firstSeen_distinct _
  recordIdOnce := recordId_once q.entries
  keyword := by
    intro name member
    rw [Pattern.isKeyword_iff, trim name member]
  noKeyword := by
    intro name selected
    rcases plain_of_resolved selected with rfl | ⟨inQuery, stays⟩
    · rw [show recordId = trimmed recordId by decide +kernel, ← Pattern.isKeyword_iff,
        recordId_not_keyword (sameName_self _)]
      exact Bool.false_ne_true
    · rw [← trim name inQuery, ← Pattern.isKeyword_iff, stays]
      exact Bool.false_ne_true
  noPattern := by
    refine patternOf_none.trans (forall₂_congr fun name member => ?_)
    rw [Bool.eq_false_iff, Ne, Pattern.isKeyword_iff, trim name member]
  all := by
    intro p found
    rw [patternOf_some found]
    exact ofKeywords_all trim
  condition := by
    intro name member c
    rw [Condition.ofKeyword_eq_some, trim name member]
  conditions := by
    intro p found
    rw [patternOf_some found, ← conditions_keywords]
    exact Pattern.ofTokens_conditions _

/-- A text that is no query is a fault of the configuration that shows the text and why it was
    refused. Of any other text exactly the keywords are lifted into the pattern, and the record id
    is put in front once. -/
theorem keywords_lifted (t : String) :
    (∀ e, Query.parse t = .error e → ∃ f, ofText t = .error f ∧ f.isConfiguration = true ∧
      ∃ object, f.message =
        "Configuration error for object " ++ object ++ ": "
          ++ ("malformed query \"" ++ trimmed t ++ "\": " ++ e.message)) ∧
      ∀ q, Query.parse t = .ok q → ∃ x, ofText t = .ok x ∧ Lifts q x := by
  constructor
  · intro e refused
    have fault : ofText t = .error (.object (hintedObject t) (.malformedQuery (trimmed t) e)) := by
      unfold ofText
      rw [refused]
    exact ⟨_, fault, rfl, hintedObject t, rfl⟩
  · intro q parsed
    have resolved : ofText t = .ok (ofQuery q) := by
      unfold ofText
      rw [parsed]
    exact ⟨ofQuery q, resolved, ofQuery_lifts fun name => Query.trimmed_of_parse parsed⟩

/-- Two spellings of one condition, the record id twice, a name again in another case, and a path
    and an expression that only look like keywords. -/
theorem keywords_lifted_contacts :
    ∃ x,
      ofText
        "SELECT createable_TRUE, ID, Name, all, Creatable_true, name, id, Account.all, (all) FROM Contact" =
        .ok x ∧
      x.query.entries = [.plain "Id", .plain "Name", .path "Account.all", .expression "(all)"] ∧
        x.pattern ≠ none := by
  have parsed : Query.parse
      "SELECT createable_TRUE, ID, Name, all, Creatable_true, name, id, Account.all, (all) FROM Contact" =
        .ok { object := "Contact"
              entries :=
                [.plain "createable_TRUE", .plain "ID", .plain "Name", .plain "all",
                  .plain "Creatable_true", .plain "name", .plain "id", .path "Account.all",
                  .expression "(all)"] } := by
    decide +kernel
  obtain ⟨x, resolved, lifts⟩ := (keywords_lifted _).2 _ parsed
  refine ⟨x, resolved, ?_, fun none => ?_⟩
  · rw [lifts.selected.unique (firstSeen_distinct _)]
    decide +kernel
  · have all : Pattern.Keyword "all" := Or.inl (sameName_self _)
    exact lifts.noPattern.mp none "all" (by simp) all

end Resolution

end MigrationPlan
