import MigrationPlan.Proofs.Job.FirstSeen
import MigrationPlan.Proofs.Task.Selection

/- The select list that a set-up makes, in the terms of its request: what the query lists, what
   records are matched by, without what is excluded, and each name once. The set-up adds an entry
   only where its name is not yet selected, and drops and removes behind that; the order of these
   steps makes no difference. -/
namespace MigrationPlan
open Text

namespace SelectList

theorem insert_distinct {l : List Entry} {e : Entry} (selected : selects l e.key = true) :
    insert (distinct l) e = distinct l := by
  have again : selects (distinct l) e.key = true := by
    rw [selects_iff] at selected ⊢
    exact (mem_names_distinct l _).mpr selected
  rw [insert, if_pos again]

section Filter
variable {p : Entry → Bool} (byName : ∀ a b, sameName a.key b.key = true → p a = p b)
include byName

/-- An entry that is not inserted, as its name is selected, would be removed as a repetition. -/
theorem distinct_filter_insert (l : List Entry) (e : Entry) :
    distinct ((insert l e).filter p) = distinct ((l ++ [e]).filter p) := by
  unfold insert
  split
  next selected =>
    cases kept : p e with
    | false => simp [kept]
    | true =>
      obtain ⟨d, member, named⟩ := List.any_eq_true.mp selected
      have stays : selects (l.filter p) e.key = true :=
        List.any_eq_true.mpr ⟨d, List.mem_filter.mpr ⟨member, (byName d e named).trans kept⟩, named⟩
      rw [List.filter_append, List.filter_cons_of_pos kept, List.filter_nil, distinct_concat,
        insert_distinct stays]
  next => rfl

theorem distinct_filter_insertAll (l more : List Entry) :
    distinct ((insertAll l more).filter p) = distinct ((l ++ more).filter p) := by
  induction more using List.reverseRecOn with
  | nil => simp [insertAll]
  | append_singleton more e ih =>
    have last : insertAll l (more ++ [e]) = insert (insertAll l more) e :=
      insertAll_append l more [e]
    rw [last, distinct_filter_insert byName, List.filter_append, ← List.append_assoc,
      List.filter_append]
    cases kept : p e with
    | false => simpa [kept] using ih
    | true =>
      rw [List.filter_cons_of_pos kept, List.filter_nil, distinct_concat, distinct_concat, ih]

end Filter

end SelectList

namespace Request
variable {r : Request} {c : Context} {operation : Operation}

def originalId (r : Request) (operation : Operation) : ExternalId :=
  (r.externalId.bind trimmed?).elim (.defaultFor operation) .ofText

/-- Inserted records are matched by the record id, whatever is configured. -/
def effectiveId (r : Request) (operation : Operation) : ExternalId :=
  if operation = .insert then .ofRecordId else r.originalId operation

/-- The entries that a request declares for a resolved query, in their order and with their
    repetitions. -/
def declared (r : Request) (c : Context) (q : Query) (operation : Operation) : List Entry :=
  q.entries ++ (r.effectiveId operation).required
    ++ (if r.originalId operation = r.effectiveId operation then []
      else (r.originalId operation).required)
    ++ if c.personAccounts && hasPersons q.object then [.plain personMark] else []

def spares (r : Request) (operation : Operation) (e : Entry) : Bool :=
  !(NameSet.ofList r.excludedFields).contains e.key || e.isNamed recordId
    || ((r.effectiveId operation).required ++ (r.originalId operation).required).any fun d =>
      d.isNamed e.key

theorem configuredId_ok {object : String} {x : ExternalId}
    (named : r.configuredId object operation = .ok x) :
    r.originalId operation = x := by
  unfold configuredId at named
  dsimp only at named
  split at named
  · cases named
  · exact Except.ok.inj named

theorem brief_externalId (r : Request) (x : Resolution) (operation : Operation) :
    (r.brief x operation (r.originalId operation)).externalId = r.effectiveId operation := by
  simp [brief, effectiveId]

theorem spares_iff (r : Request) (x : Resolution) (operation : Operation) (e : Entry) :
    r.spares operation e = true ↔
      ((r.brief x operation (r.originalId operation)).excluded.contains e.key = true →
        (r.brief x operation (r.originalId operation)).mandatory.contains e.key = true) := by
  rw [Brief.contains_mandatory, Brief.IsMandatory, Brief.IsCritical, brief_externalId]
  simp only [spares, brief, Bool.or_eq_true, Bool.not_eq_true', List.any_append, List.any_eq_true,
    Entry.isNamed]
  cases (NameSet.ofList r.excludedFields).contains e.key <;> simp [or_assoc]

theorem spares_eq (r : Request) (x : Resolution) (operation : Operation) :
    (fun e => !(r.brief x operation (r.originalId operation)).excluded.contains e.key
      || (r.brief x operation (r.originalId operation)).mandatory.contains e.key) =
        r.spares operation := by
  funext e
  rw [Bool.eq_iff_iff, spares_iff r x]
  cases (r.brief x operation (r.originalId operation)).excluded.contains e.key <;> simp

theorem spares_congr (r : Request) (x : Resolution) (operation : Operation) {d e : Entry}
    (same : sameName d.key e.key = true) : r.spares operation d = r.spares operation e := by
  have key := (sameName_iff _ _).mp same
  simp only [← spares_eq r x, NameSet.contains_congr _ key]

theorem selection_declared (keeps : operation ≠ .delete) (x : Resolution) :
    (r.brief x operation (r.originalId operation)).selection c x.query.entries =
      SelectList.distinct ((r.declared c x.query operation).filter (r.spares operation)) := by
  have deletes : (r.brief x operation (r.originalId operation)).operation = operation := rfl
  rw [Brief.selection, deletes, if_neg (by simpa using keeps), SelectList.exclude, spares_eq,
    SelectList.distinct_filter_insertAll fun d e same => spares_congr r x operation same]
  congr 2
  rw [Brief.required, brief_externalId, declared]
  simp only [List.append_assoc]
  rfl

end Request

namespace Task

/-- A set-up that succeeds, and not in order to delete, selects what the request declares: what its
    query lists, the external ids with their components, and the mark of persons where there are
    any; without what is excluded, unless records are matched by it, and of each name the first. -/
theorem selects_as_declared (r : Request) (c : Context)
    (ok : (setUp c { request := r }).isOk = true)
    (keeps : (setUp c { request := r }).state.brief.operation ≠ .delete) :
    let t := (setUp c { request := r }).state
    ∃ x operation, Resolution.ofText r.query = .ok x ∧
      r.operation.operationFor x.query.object = .ok operation ∧
      t.brief.operation = operation ∧ t.brief.externalId = r.effectiveId operation ∧
      t.brief.configuredId = r.originalId operation ∧
      FirstSeen (fun d e => sameName d.key e.key)
        ((r.declared c x.query operation).filter (r.spares operation))
        t.query.entries ∧
      t.query = { x.query with entries := t.query.entries } ∧ t.queryText = t.query.compose ∧
      t.brief.deleteQuery.isSome = r.deleteOldData := by
  cases made : r.setUp c with
  | error f =>
    rw [Outcome.isOk_error (setUp_error c (t := { request := r }) rfl made).2] at ok
    cases ok
  | ok w =>
    obtain ⟨x, operation, configuredId, resolved, meant, named, rfl⟩ := Request.setUp_eq_ok.mp made
    obtain rfl := Request.configuredId_ok named
    have state := (setUp_ok c (t := { request := r }) rfl made).1
    intro t
    have known : t.work = r.workOf c x operation (r.originalId operation) :=
      congrArg Task.work state
    have notDeleting : operation ≠ .delete := by
      rw [state] at keeps
      exact keeps
    rw [brief, query, queryText, known]
    refine ⟨x, operation, resolved, meant, rfl, r.brief_externalId x operation, rfl,
      ?_, rfl, rfl, ?_⟩
    · have selected : (r.workOf c x operation (r.originalId operation)).query.entries =
          SelectList.distinct ((r.declared c x.query operation).filter (r.spares operation)) :=
        Request.selection_declared notDeleting x
      rw [selected]
      exact SelectList.firstSeen_distinct _
    · have deletes : (operation == .delete) = false := by simpa using notDeleting
      cases old : r.deleteOldData <;> simp [Request.workOf, Request.brief, deletes, old]

/-- The last name is listed and part of the external id, and of the two excluded fields one is
    needed. -/
def insertedContacts : Request :=
  { query := "SELECT all, Phone, LASTNAME, Email FROM Contact"
    operation := .ofOperation .insert
    externalId := some "LastName; Birthdate"
    excludedFields := ["email", "birthdate"]
    deleteOldData := true }

theorem selects_as_declared_contacts :
    (setUp betweenOrgs { request := insertedContacts }).isOk = true ∧
      (setUp betweenOrgs { request := insertedContacts }).state.brief.operation ≠ .delete ∧
      FirstSeen (fun d e => sameName d.key e.key)
        [.plain "Id", .plain "Phone", .plain "LASTNAME", .plain "Id",
          .composite ["LastName", "Birthdate"],
          .plain "LastName", .plain "Birthdate", .plain "IsPersonAccount"]
        (setUp betweenOrgs { request := insertedContacts }).state.query.entries ∧
      (setUp betweenOrgs { request := insertedContacts }).state.brief.deleteQuery.isSome =
        true := by
  have ok : (setUp betweenOrgs { request := insertedContacts }).isOk = true := by decide +kernel
  have keeps :
      (setUp betweenOrgs { request := insertedContacts }).state.brief.operation ≠ .delete := by
        decide +kernel
  obtain ⟨x, operation, resolved, meant, _, _, _, selected, _, _, deletes⟩ :=
    selects_as_declared insertedContacts betweenOrgs ok keeps
  have reads : Resolution.ofText insertedContacts.query = .ok
      { query :=
          { object := "Contact",
            entries := [.plain "Id", .plain "Phone", .plain "LASTNAME", .plain "Email"] }
        pattern := some { all := true } } := by decide +kernel
  rw [reads] at resolved
  cases resolved
  have inserts : insertedContacts.operation.operationFor "Contact" = .ok .insert := by
    decide +kernel
  rw [inserts] at meant
  cases meant
  have declared : (insertedContacts.declared betweenOrgs
      { object := "Contact",
        entries := [.plain "Id", .plain "Phone", .plain "LASTNAME", .plain "Email"] }
        .insert).filter (insertedContacts.spares .insert) =
      [.plain "Id", .plain "Phone", .plain "LASTNAME", .plain "Id",
        .composite ["LastName", "Birthdate"], .plain "LastName", .plain "Birthdate",
        .plain "IsPersonAccount"] := by decide +kernel
  rw [declared] at selected
  exact ⟨ok, keeps, selected, deletes⟩

end Task

end MigrationPlan
