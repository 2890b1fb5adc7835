import MigrationPlan.Proofs.Spelling.SetUp
import MigrationPlan.Proofs.Task.Attempts

/- Describing in lowercase. Work that is alike is settled alike by snapshots that are alike, and
   fails alike. -/
namespace MigrationPlan
open Text

namespace ValidationScope

def folded (c : ValidationScope) : ValidationScope := { c with object := fold c.object }

theorem isChecked_folded (c : ValidationScope) : c.folded.isChecked = c.isChecked := by
  rw [isChecked, folded, isSpecialObject_fold, isChecked]

theorem missing_folded (c : ValidationScope) (name : String) :
    (c.folded.missing (fold name)).kind = (c.missing name).kind := by
  rw [missing, sameName_fold_left, missing]
  split <;> rfl

end ValidationScope

def foldedSelection (p : List Entry × List Warning) : List Entry × List Warning :=
  (p.1.map Entry.folded, p.2.map Warning.folded)

theorem validateSelection_folded (l : List Entry) (s : Snapshot) (scope : ValidationScope) :
    upTo id (validateSelection (l.map Entry.folded) s.folded scope.folded) =
      upTo foldedSelection (validateSelection l s scope) := by
  have empty : (l.map Entry.folded).isEmpty = l.isEmpty := List.isEmpty_map
  have critical : ((missingNames l s).map fold).find? scope.folded.critical.contains =
      ((missingNames l s).find? scope.critical.contains).map fold := by
    have same : scope.critical.contains ∘ fold = scope.critical.contains :=
      funext scope.critical.contains_fold
    rw [← same, List.find?_map]
    rfl
  rw [validateSelection, validateSelection, empty, scope.isChecked_folded, missingNames_folded]
  dsimp only
  rw [critical]
  split
  · rfl
  · split
    · rfl
    · cases (missingNames l s).find? scope.critical.contains with
      | some name => exact congrArg Except.error (scope.missing_folded name)
      | none =>
        refine congrArg Except.ok ?_
        simp only [foldedSelection, dropNamed_folded, List.map_map, id]
        rfl

theorem Brief.expanded_folded (c : Context) (b : Brief) (l : List Entry) (s : Snapshot)
    (counterpart : Option Snapshot) :
    b.folded.expanded c (l.map Entry.folded) s.folded (counterpart.map Snapshot.folded) =
      (b.expanded c l s counterpart).map Entry.folded := by
  have rules : b.folded.rules c = b.rules c := by
    rw [Brief.rules, b.mandatory_folded, Brief.rules]
    rfl
  have operation : b.folded.operation = b.operation := rfl
  have pattern : b.folded.pattern = b.pattern := rfl
  rw [expanded, expanded, operation, pattern, rules, expand_folded]
  split <;> rfl

namespace Work

section Settle
variable (c : Context) (unchecked : Bool) (side : Side)

theorem settle_folded (w : Work) (s : Snapshot) (counterpart : Option Snapshot) :
    Outcome.Alike folded id
      (w.folded.settle c unchecked side s.folded (counterpart.map Snapshot.folded))
      (w.settle c unchecked side s counterpart) := by
  let scope : ValidationScope :=
    { object := w.brief.object, side, critical := w.brief.critical, unchecked }
  have entries := w.brief.expanded_folded c w.query.entries s counterpart
  have same :
      { object := w.brief.folded.object, side, critical := w.brief.folded.critical,
        unchecked : ValidationScope } =
      scope.folded := by
    rw [w.brief.critical_folded]
    rfl
  have valid := validateSelection_folded (w.brief.expanded c w.query.entries s counterpart) s scope
  rw [← entries, ← same] at valid
  rcases upTo_cases valid with ⟨p', p, kept', kept, left⟩ | ⟨fault', fault, failed', failed, kinds⟩
  · obtain rfl : p' = foldedSelection p := left
    obtain ⟨ok', state'⟩ := settle_valid (w := w.folded) c unchecked side _ kept'
    obtain ⟨ok, state⟩ := settle_valid c unchecked side counterpart kept
    have query : ({ w.folded.query with entries := (foldedSelection p).1 } : Query).folded =
        ({ w.query with entries := p.1 } : Query).folded :=
      Query.entries_alike w.query.folded_folded (Entry.map_folded_folded p.1)
    have warnings : (w.folded.warnings ++ (foldedSelection p).2).map Warning.folded =
        (w.warnings ++ p.2).map Warning.folded := by
      rw [folded, foldedSelection, List.map_append, List.map_append, Warning.map_folded_folded,
        Warning.map_folded_folded]
    refine ⟨?_, congrArg (upTo id) (ok'.trans ok.symm)⟩
    rw [state', state]
    exact alike w.brief.folded_folded query (Query.compose_alike query)
      w.schemas.folded_folded warnings
  · obtain ⟨error', state'⟩ := settle_invalid (w := w.folded) c unchecked side _ failed'
    obtain ⟨error, state⟩ := settle_invalid c unchecked side counterpart failed
    have query := Query.entries_alike w.query.folded_folded
      ((congrArg (List.map Entry.folded) entries).trans (Entry.map_folded_folded _))
    refine ⟨?_, ?_⟩
    · rw [state', state]
      exact alike w.brief.folded_folded query (fold_fold w.queryText) w.schemas.folded_folded
        (Warning.map_folded_folded w.warnings)
    · rw [error', error]
      exact congrArg Except.error kinds

variable {w w' : Work} (same : w.folded = w'.folded)
include same

theorem settle_alike {s s' : Snapshot} (snapshot : s.folded = s'.folded)
    (counterpart counterpart' : Option Snapshot)
    (counterparts : counterpart.map Snapshot.folded = counterpart'.map Snapshot.folded) :
    Outcome.Alike folded id (w.settle c unchecked side s counterpart)
      (w'.settle c unchecked side s' counterpart') := by
  have first := (w.settle_folded c unchecked side s counterpart).symm
  rw [same, snapshot, counterparts] at first
  exact first.trans (w'.settle_folded c unchecked side s' counterpart')

theorem fetch_alike {systems systems' : Systems}
    (answers : upTo Snapshot.folded ((systems.on side).describe w.brief.object) =
      upTo Snapshot.folded ((systems'.on side).describe w'.brief.object)) :
    upTo Snapshot.folded (w.fetch systems side) =
      upTo Snapshot.folded (w'.fetch systems' side) := by
  have object : fold w.brief.object = fold w'.brief.object := congrArg (·.brief.object) same
  unfold fetch
  rcases upTo_cases answers with ⟨s, s', read, read', snapshot⟩ | ⟨f, f', failed, failed', kinds⟩
  · rw [read, read']
    refine congrArg Except.ok ?_
    rw [← s.ownedBy_folded, ← s'.ownedBy_folded, object, snapshot]
  · have configuration : f.isConfiguration = f'.isConfiguration := by
      rw [← f.isConfiguration_kind, kinds, f'.isConfiguration_kind]
    rw [failed, failed']
    simp only [configuration]
    split
    · exact congrArg Except.error kinds
    · rfl

theorem take_alike {systems systems' : Systems}
    (read : upTo Snapshot.folded (w.fetch systems side) =
      upTo Snapshot.folded (w'.fetch systems' side))
    (counterpart counterpart' : Option Snapshot)
    (counterparts : counterpart.map Snapshot.folded = counterpart'.map Snapshot.folded) :
    Outcome.Alike folded Snapshot.folded (w.take c systems unchecked side counterpart)
      (w'.take c systems' unchecked side counterpart') := by
  rcases upTo_cases read with ⟨s, s', fetched, fetched', snapshot⟩ | ⟨f, f', failed, failed', kinds⟩
  · obtain ⟨state, result⟩ := take_read c systems unchecked side counterpart fetched
    obtain ⟨state', result'⟩ := take_read c systems' unchecked side counterpart' fetched'
    have settled :=
      settle_alike c unchecked side same snapshot counterpart counterpart' counterparts
    refine ⟨by rw [state, state', settled.state], ?_⟩
    rw [result, result']
    rcases upTo_cases settled.result with ⟨_, _, ok, ok', _⟩ | ⟨f, f', error, error', kinds⟩
    · rw [ok, ok']
      exact congrArg Except.ok snapshot
    · rw [error, error']
      exact congrArg Except.error kinds
  · obtain ⟨state, result⟩ := take_unread c systems unchecked side counterpart failed
    obtain ⟨state', result'⟩ := take_unread c systems' unchecked side counterpart' failed'
    refine ⟨by rw [state, state', same], ?_⟩
    rw [result, result']
    exact congrArg Except.error kinds

end Settle

theorem store_alike {v v' : Work} (same : v.folded = v'.folded) (schemas schemas' : Schemas)
    (stored : schemas.folded = schemas'.folded) :
    ({ v with schemas } : Work).folded = ({ v' with schemas := schemas' } : Work).folded :=
  alike (congrArg Work.brief same) (congrArg Work.query same) (congrArg Work.queryText same) stored
    (congrArg Work.warnings same)

theorem keep_alike {v v' : Work} (same : v.folded = v'.folded) {schemas schemas' : Schemas}
    (stored : schemas.folded = schemas'.folded) :
    Outcome.Alike folded id (v.keep schemas) (v'.keep schemas') :=
  ⟨store_alike same schemas schemas' stored, rfl⟩

theorem describe_alike (c : Context) (unchecked : Bool) {w w' : Work} (same : w.folded = w'.folded)
    {systems systems' : Systems}
    (answers : ∀ side, (c.medium side).isDescribable = true →
      upTo Snapshot.folded ((systems.on side).describe w.brief.object) =
        upTo Snapshot.folded ((systems'.on side).describe w'.brief.object)) :
    Outcome.Alike folded id (w.describe c systems unchecked)
      (w'.describe c systems' unchecked) := by
  have read : ∀ side, (c.medium side).isDescribable = true →
      upTo Snapshot.folded (w.fetch systems side) = upTo Snapshot.folded (w'.fetch systems' side) :=
    fun side describable => fetch_alike side same (answers side describable)
  cases onSource : c.source.isDescribable with
  | false =>
    cases onTarget : c.target.isDescribable with
    | false =>
      simp only [describe, onSource, onTarget]
      exact ⟨same, rfl⟩
    | true =>
      simp only [describe, onSource, onTarget]
      have sources :
          w.schemas.source?.map Snapshot.folded = w'.schemas.source?.map Snapshot.folded := by
        have schemas : w.schemas.folded = w'.schemas.folded := congrArg Work.schemas same
        rw [← Schemas.source_folded, schemas, Schemas.source_folded]
      have taken := take_alike c unchecked .target same (read .target onTarget) _ _ sources
      exact taken.andThen fun s s' snapshot =>
        keep_alike taken.state (congrArg Schemas.shared snapshot)
  | true =>
    have first := take_alike c unchecked .source same (read .source onSource) none none rfl
    cases onTarget : c.target.isDescribable with
    | false =>
      simp only [describe, onSource, onTarget]
      exact first.andThen fun s s' snapshot =>
        keep_alike first.state (congrArg Schemas.shared snapshot)
    | true =>
      simp only [describe, onSource, onTarget]
      refine first.andThen fun s s' snapshot => ?_
      have between :=
        store_alike first.state (.sourceOnly s) (.sourceOnly s')
          (congrArg Schemas.sourceOnly snapshot)
      -- the brief, and with it the object that is asked for, is still that of the start
      have target := read .target onTarget
      rw [← fetch_congr (w.take_brief c systems unchecked .source none),
        ← fetch_congr (w'.take_brief c systems' unchecked .source none)] at target
      have second :=
        take_alike c unchecked .target between target (some s) (some s') (congrArg some snapshot)
      refine second.andThen fun t t' snapshot' => keep_alike second.state ?_
      rw [Schemas.folded, Schemas.folded, snapshot, snapshot']

end Work

end MigrationPlan
