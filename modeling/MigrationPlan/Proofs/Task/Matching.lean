import MigrationPlan.Proofs.Task.Declaration
import MigrationPlan.Proofs.Task.ExternalId

/- What a set-up makes of the text that is configured as its external id. A blank text stands for
   the default, and a text of which no component is kept is refused. Any other is accepted, also
   where the two syntaxes are mixed and a component is empty. -/
namespace MigrationPlan
open Text SelectList

namespace Request
variable {r : Request} {t : String}

theorem originalId_blank (given : r.externalId = some t) (blank : Blank t.toList)
    (operation : Operation) :
    r.originalId operation = .defaultFor operation := by
  have none : trimmed? t = none := by simp [trimmed?, trim_eq_nil.mpr blank]
  rw [originalId, given, Option.bind_some, none, Option.elim_none]

theorem originalId_filled (given : r.externalId = some t) (filled : ¬ Blank t.toList)
    (operation : Operation) :
    r.originalId operation = .ofText t := by
  have some : trimmed? t = some (trimmed t) := by simp [trimmed?, trim_eq_nil, filled]
  have same : ExternalId.ofText (trimmed t) = .ofText t := by
    simp only [ExternalId.ofText, trimmed, String.toList_ofList, trim_trim]
  rw [originalId, given, Option.bind_some, some, Option.elim_some, same]

theorem originalId_empty (given : r.externalId = some t) (operation : Operation) :
    (r.originalId operation).text = "" ↔ ExternalId.NamesNothing t.toList := by
  rw [ExternalId.namesNothing_iff]
  by_cases blank : Blank t.toList
  · rw [originalId_blank given blank, ExternalId.defaultFor]
    refine iff_of_false ?_ fun nothing => nothing.1 blank
    split <;> decide
  · rw [originalId_filled given blank, ExternalId.text_eq_empty]
    simp [blank]

theorem configuredId_eq (given : r.externalId = some t) (object : String) (operation : Operation) :
    r.configuredId object operation =
      if (r.originalId operation).text = "" then .error (.object object (.emptyExternalId t))
      else .ok (r.originalId operation) := by
  simp only [configuredId, given, Option.getD_some, String.isEmpty_iff, originalId]

theorem setUp_eq {c : Context} {q : Query} {operation : Operation} (given : r.externalId = some t)
    (parsed : Query.parse r.query = .ok q)
    (meant : r.operation.operationFor q.object = .ok operation) :
    r.setUp c =
      if (r.originalId operation).text = "" then .error (.object q.object (.emptyExternalId t))
      else .ok (r.workOf c (.ofQuery q) operation (r.originalId operation)) := by
  have resolved : Resolution.ofText r.query = .ok (.ofQuery q) :=
    Resolution.ofText_eq_ok.mpr ⟨q, parsed, rfl⟩
  have object : (Resolution.ofQuery q).query.object = q.object := rfl
  rw [setUp_bind, resolved]
  simp only [Except.bind, object, meant, configuredId_eq given]
  split_ifs <;> rfl

/-- No exclusion removes what a configured id needs, whether or not the operation matches by it. -/
theorem selects_originalId {c : Context} {operation : Operation} (keeps : operation ≠ .delete)
    (x : Resolution) {e : Entry} (needed : e ∈ (r.originalId operation).required) :
    selects ((r.brief x operation (r.originalId operation)).selection c x.query.entries) e.key =
      true := by
  have declares : e ∈ r.declared c x.query operation := by
    by_cases same : r.originalId operation = r.effectiveId operation
    · simp [declared, ← same, needed]
    · simp [declared, same, needed]
  have spared : r.spares operation e = true := by
    have named : e.isNamed e.key = true := sameName_self _
    simp only [spares, Bool.or_eq_true, List.any_append, List.any_eq_true]
    exact Or.inr (Or.inr ⟨e, needed, named⟩)
  rw [selection_declared keeps, selects_iff, mem_names_distinct]
  exact key_mem_names (List.mem_filter.mpr ⟨declares, spared⟩)

end Request

namespace ExternalId

structure SelectedIn (x : ExternalId) (l : List Entry) : Prop where
  entry : selects l x.entry.key = true
  component : 2 ≤ x.components.length →
    ∀ part ∈ x.components, selects l (Entry.read part).key = true

theorem selectedIn_of_required {x : ExternalId} {l : List Entry}
    (required : ∀ e ∈ x.required, selects l e.key = true) :
    x.SelectedIn l where
  entry := required _ List.mem_cons_self
  component := by
    intro composite part member
    refine required _ (List.mem_cons_of_mem _ ?_)
    rw [if_pos (x.isComposite_iff.mpr composite)]
    exact List.mem_map_of_mem member

theorem key_of_canonical {x : ExternalId} (canonical : x.Canonical) {part : List Char}
    (member : part ∈ x.components) :
    (Entry.read part).key = String.ofList part := by
  rw [← String.toList_inj, String.toList_ofList, Entry.key_read]
  rcases canonical with empty | isComponent
  · simp only [components, empty, String.toList_empty, List.splitOn_nil,
      List.mem_singleton] at member
    rw [member]
    rfl
  · have component := isComponent part member
    have same : trim part = part := trim_of_trimmed component.trimmed
    have unmarked : ∀ rest, trim part ≠ '$' :: '$' :: rest := by
      rw [same]
      exact component.unmarked
    rw [Entry.keyText_unmarked unmarked, same]

/-- The id of a text is canonical exactly if the text does not mix the two syntaxes; the canonical
    text then stands for itself, and the entry of the id is a composite if it has several
    components. A set-up whose query and operation are known refuses the texts of which no component
    is kept, and those alone; else it matches by the id of the text, or by the default if that is
    blank, and selects what matching needs, unless it deletes. -/
theorem normal_unless_mixed (t : String) :
    ((ofText t).Canonical ↔ Unmixed (trim t.toList)) ∧
      ((ofText t).Canonical → ofText (ofText t).text = ofText t ∧
        ((∃ parts, (ofText t).entry = .composite parts) ↔ 2 ≤ (ofText t).components.length) ∧
        ∀ part ∈ (ofText t).components, (Entry.read part).key = String.ofList part) ∧
      ∀ (r : Request) (c : Context) (q : Query) (operation : Operation), r.externalId = some t →
        Query.parse r.query = .ok q → r.operation.operationFor q.object = .ok operation →
        let made := Task.setUp c { request := r }
        (NamesNothing t.toList → ∃ f, made.result = .error f ∧
          f.message =
            "Configuration error for object " ++ q.object ++ ": " ++
              ("external id '" ++ t ++ "' names no field")) ∧
        (¬ NamesNothing t.toList → made.result = .ok () ∧
          (Blank t.toList → made.state.brief.configuredId = .defaultFor operation) ∧
          (¬ Blank t.toList → made.state.brief.configuredId = ofText t) ∧
          (operation ≠ .delete →
            made.state.brief.configuredId.SelectedIn made.state.query.entries) ∧
          (operation = .delete → made.state.query.entries = [.plain recordId])) := by
  refine ⟨canonical_ofText t, ?_, ?_⟩
  · intro canonical
    exact ⟨ofText_of_canonical canonical, entry_of_canonical canonical,
      fun part => key_of_canonical canonical⟩
  · intro r c q operation given parsed meant made
    have setUp := Request.setUp_eq (c := c) given parsed meant
    have empty := Request.originalId_empty given operation
    constructor
    · intro nothing
      rw [if_pos (empty.mpr nothing)] at setUp
      exact ⟨_, (Task.setUp_error c (t := { request := r }) rfl setUp).2, rfl⟩
    · intro something
      rw [if_neg (mt empty.mp something)] at setUp
      obtain ⟨state, result⟩ := Task.setUp_ok c (t := { request := r }) rfl setUp
      have work : made.state.work = r.workOf c (.ofQuery q) operation (r.originalId operation) :=
        congrArg Task.work state
      have id : made.state.brief.configuredId = r.originalId operation := by
        rw [Task.brief, work]
        rfl
      rw [id, Task.query, work]
      refine ⟨result, fun blank => Request.originalId_blank given blank operation,
        fun filled => Request.originalId_filled given filled operation, fun keeps => ?_,
          fun deletes => ?_⟩
      · exact selectedIn_of_required fun e needed =>
          Request.selects_originalId keeps (.ofQuery q) needed
      · subst deletes
        rfl

def contactsMatchedBy (text : String) : Request :=
  { query := "SELECT Email FROM Contact"
    operation := .ofOperation .upsert
    externalId := some text
    excludedFields := ["Birthdate"] }

theorem normal_unless_mixed_contacts :
    ofText (ofText " $$LastName$ $Birthdate$ ").text = ofText " $$LastName$ $Birthdate$ " ∧
      selects (Task.setUp Task.betweenOrgs
        { request := contactsMatchedBy " $$LastName$ $Birthdate$ " }).state.query.entries
          "Birthdate" = true ∧
      (Task.setUp Task.betweenOrgs { request := contactsMatchedBy " " }).state.brief.configuredId =
        .defaultFor .upsert ∧
      ∃ f, (Task.setUp Task.betweenOrgs { request := contactsMatchedBy "; ;" }).result = .error f ∧
        f.message = "Configuration error for object Contact: external id '; ;' names no field" := by
  have parsed :
      Query.parse "SELECT Email FROM Contact" =
        .ok { object := "Contact", entries := [.plain "Email"] } := by
    decide +kernel
  have meant : (OperationSetting.ofOperation .upsert).operationFor "Contact" = .ok .upsert := by
    decide +kernel
  refine ⟨?_, ?_, ?_, ?_⟩
  · obtain ⟨canonical, normal, _⟩ := normal_unless_mixed " $$LastName$ $Birthdate$ "
    have unmixed : Unmixed (trim " $$LastName$ $Birthdate$ ".toList) := by
      rw [show trim " $$LastName$ $Birthdate$ ".toList =
        '$' :: '$' :: "LastName$ $Birthdate$".toList by decide +kernel]
      show ∀ piece ∈ pieces '$' _, ∀ part ∈ piece.splitOn ';', part ≠ [] ∧ Trimmed part
      decide +kernel
    exact (normal (canonical.mpr unmixed)).1
  · obtain ⟨_, _, setsUp⟩ := normal_unless_mixed " $$LastName$ $Birthdate$ "
    have something : ¬ NamesNothing " $$LastName$ $Birthdate$ ".toList := by
      rw [namesNothing_iff]
      exact fun nothing => absurd nothing.2 (by decide +kernel)
    have filled : ¬ Blank " $$LastName$ $Birthdate$ ".toList := by
      rw [← trim_eq_nil]
      decide +kernel
    obtain ⟨_, _, id, selected, _⟩ :=
      (setsUp (contactsMatchedBy _) Task.betweenOrgs _ _ rfl parsed meant).2 something
    have component := (selected (by decide)).component
    rw [id filled] at component
    exact component (by decide +kernel) "Birthdate".toList (by decide +kernel)
  · obtain ⟨_, _, setsUp⟩ := normal_unless_mixed " "
    have blank : Blank " ".toList := by
      rw [← trim_eq_nil]
      decide +kernel
    obtain ⟨_, default, _⟩ :=
      (setsUp (contactsMatchedBy _) Task.betweenOrgs _ _ rfl parsed meant).2 fun nothing =>
        nothing.1 blank
    exact default blank
  · obtain ⟨_, _, setsUp⟩ := normal_unless_mixed "; ;"
    have nothing : NamesNothing "; ;".toList := by
      rw [namesNothing_iff, ← trim_eq_nil]
      decide +kernel
    exact (setsUp (contactsMatchedBy _) Task.betweenOrgs _ _ rfl parsed meant).1 nothing

/-- Where the syntaxes are mixed, an id that names nothing can pass: its components are empty, its
    text does not stand for itself, and the query that is made gets an entry without a name. -/
theorem mixed_id_not_normal :
    ofText (ofText "$$;").text ≠ ofText "$$;" ∧ (ofText "$$;").text ≠ "" ∧
      [] ∈ (ofText "$$;").components ∧
      (Task.setUp Task.betweenOrgs { request := contactsMatchedBy "$$;" }).result = .ok () ∧
      (Task.setUp Task.betweenOrgs { request := contactsMatchedBy "$$;" }).state.queryText =
        "SELECT Id, Email, $$$, , IsPersonAccount FROM Contact" := by
  decide +kernel

end ExternalId

end MigrationPlan
