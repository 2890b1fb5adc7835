import MigrationPlan.Proofs.Spelling.Outcome
import MigrationPlan.Proofs.Spelling.Selection
import MigrationPlan.Proofs.Task.Setup

/- Setting up in lowercase. Requests that differ in the case of their texts make the same work of
   it, up to case. The one exact comparison, of the external id with the id as configured, only
   saves inserting entries a second time. -/
namespace MigrationPlan
open Text SelectList

namespace ExternalId

def folded (x : ExternalId) : ExternalId := { text := fold x.text }

theorem folded_folded (x : ExternalId) : x.folded.folded = x.folded :=
  congrArg ExternalId.mk (fold_fold x.text)

theorem readComponents_lower (s : List Char) :
    readComponents (lower s) = (readComponents s).map lower := by
  have pieces : ∀ {k : Char} (t : List Char), k.isAlpha = false →
      (((lower t).splitOn k).map trim).filter (! ·.isEmpty) =
        (((t.splitOn k).map trim).filter (! ·.isEmpty)).map lower := by
    intro k t mark
    rw [splitOn_lower mark, kept_lower]
  have plain : ∀ {t : List Char}, (∀ rest, t ≠ '$' :: '$' :: rest) →
      readComponents t = ((t.splitOn ';').map trim).filter (! ·.isEmpty) := by
    intro t unmarked
    unfold readComponents
    split
    next rest => exact absurd rfl (unmarked rest)
    next => rfl
  by_cases mark : ∃ rest, s = '$' :: '$' :: rest
  · obtain ⟨rest, rfl⟩ := mark
    exact pieces rest (by decide)
  · rw [not_exists] at mark
    rw [plain mark, plain (unmarked_lower (by decide) mark), pieces s (by decide)]

theorem ofText_fold (s : String) : ofText (fold s) = (ofText s).folded := by
  rw [ofText, toList_fold, trim_lower, readComponents_lower, ofText, folded, fold_ofList,
    lower_intercalate]
  rfl

theorem isComposite_folded (x : ExternalId) : x.folded.isComposite = x.isComposite := by
  rw [isComposite, folded, toList_fold, contains_lower (by decide), isComposite]

theorem components_folded (x : ExternalId) : x.folded.components = x.components.map lower := by
  rw [components, folded, toList_fold, splitOn_lower (by decide), components]

theorem entry_folded (x : ExternalId) : x.folded.entry = x.entry.folded := by
  have texts :
      (x.components.map lower).map String.ofList = (x.components.map String.ofList).map fold := by
    rw [List.map_map, List.map_map]
    exact List.map_congr_left fun part _ => (fold_ofList part).symm
  rw [entry, isComposite_folded, components_folded, texts, folded, toList_fold,
    Entry.read_lower, entry]
  split <;> rfl

theorem required_folded (x : ExternalId) : x.folded.required = x.required.map Entry.folded := by
  rw [required, entry_folded, isComposite_folded, components_folded, List.map_map, required,
    List.map_cons]
  split
  · rw [List.map_map]
    exact congrArg (_ :: ·) (List.map_congr_left fun part _ => Entry.read_lower part)
  · rfl

end ExternalId

/-! Briefs. -/

namespace Brief

def folded (b : Brief) : Brief :=
  { b with
    object := fold b.object
    externalId := b.externalId.folded
    configuredId := b.configuredId.folded
    deleteQuery := b.deleteQuery.map Query.folded }

theorem folded_folded (b : Brief) : b.folded.folded = b.folded := by
  simp [folded, ExternalId.folded_folded, Function.comp_def]

theorem keysOf_folded (l : List Entry) : keysOf (l.map Entry.folded) = (keysOf l).map fold := by
  rw [keysOf, List.map_map, keysOf, List.map_map]
  exact List.map_congr_left fun e _ => e.key_folded

@[simp] theorem critical_folded (b : Brief) : b.folded.critical = b.critical := by
  rw [critical, folded, ExternalId.required_folded, keysOf_folded,
    NameSet.insertAll_folded, critical]

@[simp] theorem mandatory_folded (b : Brief) : b.folded.mandatory = b.mandatory := by
  rw [mandatory, critical_folded, folded, ExternalId.required_folded, keysOf_folded,
    NameSet.insertAll_folded, mandatory]

def allRequired (c : Context) (b : Brief) : List Entry :=
  b.externalId.required ++ (b.configuredId.required ++
    if c.personAccounts && hasPersons b.object then [.plain personMark] else [])

theorem insertAll_required (c : Context) (b : Brief) (l : List Entry) :
    insertAll l (b.required c) = insertAll l (b.allRequired c) := by
  -- the ids are compared with their case; where they agree, inserting the same entries again
  -- changes nothing
  by_cases same : b.configuredId = b.externalId
  · have again : insertAll (insertAll l b.externalId.required) b.externalId.required =
        insertAll l b.externalId.required :=
      insertAll_of_selected fun e member => name_mem_insertAll member
    rw [required, allRequired, if_pos same, List.append_nil, same, insertAll_append,
      insertAll_append, insertAll_append, again]
  · rw [required, allRequired, if_neg same, List.append_assoc]

theorem allRequired_folded (c : Context) (b : Brief) :
    (b.folded.allRequired c).map Entry.folded = (b.allRequired c).map Entry.folded := by
  have persons : hasPersons b.folded.object = hasPersons b.object := by simp [hasPersons, folded]
  rw [allRequired, persons, folded, ExternalId.required_folded,
    ExternalId.required_folded, allRequired]
  simp only [List.map_append, Entry.map_folded_folded]

theorem selection_folded (c : Context) (b : Brief) (l : List Entry) :
    (b.folded.selection c (l.map Entry.folded)).map Entry.folded =
      (b.selection c l).map Entry.folded := by
  have operation : b.folded.operation = b.operation := rfl
  have excluded : b.folded.excluded = b.excluded := rfl
  rw [selection, selection, operation, excluded, mandatory_folded]
  split
  · rfl
  · rw [← distinct_folded, ← distinct_folded, ← exclude_folded, ← exclude_folded,
      insertAll_required, insertAll_required, ← insertAll_folded, ← insertAll_folded,
      allRequired_folded, Entry.map_folded_folded]

end Brief

/-! Requests and the work made of them. -/

theorem Query.ParseError.kind_folded (e : ParseError) : e.folded.kind = e.kind := by
  cases e <;> rfl

namespace Resolution

def folded (x : Resolution) : Resolution := { query := x.query.folded, pattern := x.pattern }

theorem ofQuery_folded (q : Query) : (ofQuery q.folded).folded = (ofQuery q).folded := by
  have pattern : patternOf q.folded.entries = patternOf q.entries := patternOf_folded q.entries
  have query := Query.entries_alike q.folded_folded (resolved_folded q.entries)
  rw [ofQuery, ofQuery, folded, folded, pattern]
  exact congrArg (Resolution.mk · _) query

theorem ofText_fold (s : String) : upTo folded (ofText (fold s)) = upTo folded (ofText s) := by
  rw [ofText, Query.parse_fold, ofText]
  cases Query.parse s with
  | error e =>
    exact congrArg (fun kind =>
      Except.error (Fault.object "" (.malformedQuery "" kind))) e.kind_folded
  | ok q => exact congrArg Except.ok (ofQuery_folded q)

end Resolution

namespace Schemas

def folded : Schemas → Schemas
  | none => none
  | sourceOnly s => sourceOnly s.folded
  | pair s t => pair s.folded t.folded
  | shared s => shared s.folded

theorem folded_folded (x : Schemas) : x.folded.folded = x.folded := by
  cases x <;> simp [folded]

theorem source_folded (x : Schemas) : x.folded.source? = x.source?.map Snapshot.folded := by
  cases x <;> rfl

end Schemas

def Work.folded (w : Work) : Work where
  brief := w.brief.folded
  query := w.query.folded
  queryText := fold w.queryText
  schemas := w.schemas.folded
  warnings := w.warnings.map Warning.folded

theorem Work.alike {v w : Work} (brief : v.brief.folded = w.brief.folded)
    (query : v.query.folded = w.query.folded) (queryText : fold v.queryText = fold w.queryText)
    (schemas : v.schemas.folded = w.schemas.folded)
    (warnings : v.warnings.map Warning.folded = w.warnings.map Warning.folded) :
    v.folded = w.folded := by
  rw [folded, folded, brief, query, queryText, schemas, warnings]

namespace Request

def folded (r : Request) : Request :=
  { r with
    query := fold r.query, externalId := r.externalId.map fold,
    excludedFields := r.excludedFields.map fold }

theorem nonempty_alike {x x' : ExternalId} (same : x.folded = x'.folded) (fault fault' : Fault)
    (kind : fault.kind = fault'.kind) :
    upTo ExternalId.folded (if x.text.isEmpty then .error fault else .ok x) =
      upTo ExternalId.folded (if x'.text.isEmpty then .error fault' else .ok x') := by
  have text : fold x.text = fold x'.text := congrArg ExternalId.text same
  have empty : x.text.isEmpty = x'.text.isEmpty := by rw [← isEmpty_fold, text, isEmpty_fold]
  by_cases none : x.text.isEmpty = true
  · rw [if_pos none, if_pos (empty ▸ none)]
    exact congrArg Except.error kind
  · rw [if_neg none, if_neg (empty ▸ none)]
    exact congrArg Except.ok same

theorem configuredId_folded (r : Request) (object object' : String) (operation : Operation) :
    upTo ExternalId.folded (r.folded.configuredId object operation) =
      upTo ExternalId.folded (r.configuredId object' operation) := by
  have given : r.folded.externalId.bind trimmed? = (r.externalId.bind trimmed?).map fold := by
    cases text : r.externalId with
    | none => simp [folded, text]
    | some s => simp [folded, text, trimmed?_fold]
  rw [configuredId, configuredId, given]
  refine nonempty_alike ?_ _ _ rfl
  cases r.externalId.bind trimmed? with
  | none => rfl
  | some s =>
    rw [Option.map_some, Option.elim_some, Option.elim_some, ExternalId.ofText_fold]
    exact (ExternalId.ofText s).folded_folded

theorem deleteQuery_folded (r : Request) (operation : Operation) (q : Query) :
    (r.folded.deleteQuery operation q.folded).folded = (r.deleteQuery operation q).folded := by
  have own : r.folded.deleteWhere = r.deleteWhere := rfl
  have filter : (if operation == .delete then q.folded.filter else none) =
      (if operation == .delete then q.filter else none).map fold := by
    split <;> rfl
  rw [deleteQuery, deleteQuery, own, filter]
  cases r.deleteWhere.bind trimmed? <;> simp [Query.folded, Function.comp_def]

theorem brief_folded (r : Request) (x : Resolution) (operation : Operation)
    (configuredId : ExternalId) :
    (r.folded.brief x.folded operation configuredId.folded).folded =
      (r.brief x operation configuredId).folded := by
  have excluded : NameSet.ofList r.folded.excludedFields = .ofList r.excludedFields :=
    NameSet.ofList_folded r.excludedFields
  have deletion := deleteQuery_folded r operation x.query
  have matched :
      (if operation == .insert then .ofRecordId else configuredId.folded : ExternalId).folded =
      (if operation == .insert then .ofRecordId else configuredId : ExternalId).folded := by
    split
    · rfl
    · exact configuredId.folded_folded
  have deletions :
      (if operation == .delete || r.deleteOldData then
          some (r.folded.deleteQuery operation x.query.folded)
        else none).map Query.folded =
      (if operation == .delete || r.deleteOldData then some (r.deleteQuery operation x.query)
        else none).map Query.folded := by
    split
    · exact congrArg some deletion
    · rfl
  rw [brief, brief, excluded, Brief.folded, Brief.folded, matched, configuredId.folded_folded]
  simp only [Brief.mk.injEq, true_and]
  exact ⟨fold_fold x.query.object, rfl, deletions⟩

theorem workOf_folded (r : Request) (c : Context) (x : Resolution) (operation : Operation)
    (configuredId : ExternalId) :
    (r.folded.workOf c x.folded operation configuredId.folded).folded =
      (r.workOf c x operation configuredId).folded := by
  have brief := brief_folded r x operation configuredId
  generalize made : r.folded.brief x.folded operation configuredId.folded = b at brief
  generalize made' : r.brief x operation configuredId = b' at brief
  have entries : (b.selection c x.folded.query.entries).map Entry.folded =
      (b'.selection c x.query.entries).map Entry.folded := by
    rw [← Brief.selection_folded, ← Brief.selection_folded c b', brief]
    exact congrArg _ (congrArg _ (Entry.map_folded_folded x.query.entries))
  have query := Query.entries_alike x.query.folded_folded entries
  rw [workOf, workOf, made, made']
  exact Work.alike brief query (Query.compose_alike query) rfl rfl

theorem setUp_alike {r r' : Request} (same : r.folded = r'.folded) (c : Context) :
    upTo Work.folded (r.setUp c) = upTo Work.folded (r'.setUp c) := by
  have query : fold r.query = fold r'.query := congrArg Request.query same
  have operation : r.operation = r'.operation :=
    (congrArg Request.operation same : r.folded.operation = r'.folded.operation)
  -- the object stands in the fault alone, and faults are compared by kind
  have meant : ∀ object object',
      upTo id (r.operation.operationFor object) = upTo id (r.operation.operationFor object') := by
    intro object object'
    unfold OperationSetting.operationFor
    cases r.operation.operation? <;> rfl
  rw [setUp_bind, setUp_bind, ← operation]
  refine upTo_bind (f := Resolution.folded) ?_ fun x x' resolved =>
    upTo_bind (meant _ _) fun o o' chosen => ?_
  · rw [← Resolution.ofText_fold, query, Resolution.ofText_fold]
  · obtain rfl : o = o' := chosen
    refine upTo_bind (f := ExternalId.folded) ?_ fun i i' named => ?_
    · rw [← configuredId_folded r x.query.object, same, configuredId_folded]
    · refine congrArg Except.ok ?_
      rw [← workOf_folded r, ← workOf_folded r', same, resolved, named]

end Request

end MigrationPlan
