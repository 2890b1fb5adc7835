import MigrationPlan.Proofs.Selection.Validation
import MigrationPlan.Proofs.Spelling.Query
import MigrationPlan.Selection.Resolution
import MigrationPlan.Task.Relationships

/- Select lists, patterns and snapshots in lowercase. Every comparison of names folds both, so the
   selection of lowercase names from lowercase lists is the selection, in lowercase. -/
namespace MigrationPlan
open Text

theorem filter_map_of {α β : Type} {f : α → β} {p : β → Bool} {q : α → Bool}
    (same : ∀ a, p (f a) = q a) (l : List α) :
    (l.map f).filter p = (l.filter q).map f := by
  rw [List.filter_map]
  exact congrArg (List.map f) (List.filter_congr fun a _ => same a)

theorem eraseDupsBy_map {α β : Type} {r : α → α → Bool} {r' : β → β → Bool} {f : α → β}
    (same : ∀ a b, r' (f a) (f b) = r a b) (l : List α) :
    (l.map f).eraseDupsBy r' = (l.eraseDupsBy r).map f := by
  -- what is kept of the rest is not a tail of the list, so the induction is on its length
  induction h : l.length using Nat.strongRecOn generalizing l with
  | ind n ih =>
    cases l with
    | nil => rfl
    | cons a l =>
      have short := List.length_filter_le (fun b => decide (r b a = false)) l
      have later := ih (l.filter fun b => decide (r b a = false)).length (by simp at h; omega) _ rfl
      rw [List.map_cons, List.eraseDupsBy_cons, List.eraseDupsBy_cons, List.map_cons, ← later,
        List.filter_map]
      simp only [Function.comp_def, same]

namespace NameSet

@[simp] theorem contains_fold (s : NameSet) (name : String) :
    s.contains (fold name) = s.contains name := by
  rw [contains, fold_fold, contains]

theorem ofList_folded (l : List String) : ofList (l.map fold) = ofList l := by
  have same : (fun s => fold (trimmed s)) ∘ fold = fun s => fold (trimmed s) := by
    funext s
    rw [Function.comp_apply, trimmed_fold, fold_fold]
  rw [ofList, List.map_map, same, ofList]

theorem insertAll_folded (s : NameSet) (l : List String) :
    s.insertAll (l.map fold) = s.insertAll l := by
  induction l generalizing s with
  | nil => rfl
  | cons name l ih =>
    have first : s.insert (fold name) = s.insert name := by rw [insert, fold_fold, insert]
    rw [List.map_cons, insertAll, List.foldl_cons, first, ← insertAll, ih]
    rfl

end NameSet

namespace SelectList

theorem selects_folded (l : List Entry) (name : String) :
    selects (l.map Entry.folded) name = selects l name := by
  rw [selects, List.any_map, selects]
  exact congrArg l.any (funext fun e => e.isNamed_folded name)

@[simp] theorem selects_fold (l : List Entry) (name : String) :
    selects l (fold name) = selects l name :=
  congrArg l.any (funext fun e => e.isNamed_fold name)

theorem insert_folded (l : List Entry) (e : Entry) :
    insert (l.map Entry.folded) e.folded = (insert l e).map Entry.folded := by
  rw [insert, selects_folded, Entry.key_folded, selects_fold, insert]
  split
  · rfl
  · simp

theorem insertAll_folded (l more : List Entry) :
    insertAll (l.map Entry.folded) (more.map Entry.folded) =
      (insertAll l more).map Entry.folded := by
  induction more generalizing l with
  | nil => rfl
  | cons e more ih =>
    rw [List.map_cons, insertAll, List.foldl_cons, insert_folded, ← insertAll, ih]
    rfl

theorem distinct_folded (l : List Entry) :
    distinct (l.map Entry.folded) = (distinct l).map Entry.folded :=
  eraseDupsBy_map (fun a b => by simp) l

theorem exclude_folded (excluded mandatory : NameSet) (l : List Entry) :
    exclude excluded mandatory (l.map Entry.folded) =
      (exclude excluded mandatory l).map Entry.folded :=
  filter_map_of (fun e => by rw [e.key_folded, NameSet.contains_fold, NameSet.contains_fold]) l

end SelectList

/-! Keywords. -/

theorem Condition.ofKeyword_fold (token : String) : ofKeyword? (fold token) = ofKeyword? token := by
  rw [ofKeyword?, trimmed_fold, fold_fold, ofKeyword?]

namespace Pattern

theorem isAll_fold (token : String) : isAll (fold token) = isAll token := by
  rw [isAll, trimmed_fold, sameName_fold_left, isAll]

theorem isKeyword_fold (token : String) : isKeyword (fold token) = isKeyword token := by
  rw [isKeyword, isAll_fold, Condition.ofKeyword_fold, isKeyword]

theorem ofTokens_folded (l : List String) : ofTokens (l.map fold) = ofTokens l := by
  rw [ofTokens, List.foldl_map, ofTokens]
  congr 1
  funext p token
  rw [accept, isAll_fold, Condition.ofKeyword_fold, accept]

end Pattern

namespace Resolution

theorem isRecordId_folded (e : Entry) : isRecordId e.folded = isRecordId e := by
  rw [isRecordId, Entry.plainName_folded, Option.any_map, isRecordId]
  congr 1
  funext name
  exact sameName_fold_left name recordId

theorem keyword_folded (e : Entry) : keyword? e.folded = (keyword? e).map fold := by
  rw [keyword?, isRecordId_folded, Entry.plainName_folded, keyword?]
  split
  · rfl
  · cases e.plainName? with
    | none => rfl
    | some name =>
      rw [Option.map_some, Option.filter_some, Option.filter_some, Pattern.isKeyword_fold]
      split <;> rfl

theorem patternOf_folded (l : List Entry) : patternOf (l.map Entry.folded) = patternOf l := by
  have keywords : keywords (l.map Entry.folded) = (keywords l).map fold := by
    simp only [keywords, List.filterMap_map, List.map_filterMap, Function.comp_def, keyword_folded]
  rw [patternOf, keywords, Pattern.ofTokens_folded, patternOf]

theorem resolved_folded (l : List Entry) :
    (resolved (l.map Entry.folded)).map Entry.folded = (resolved l).map Entry.folded := by
  have kept : ∀ e : Entry,
      (!isRecordId e.folded && (keyword? e.folded).isNone) =
        (!isRecordId e && (keyword? e).isNone) := by
    intro e
    rw [isRecordId_folded, keyword_folded, Option.isNone_map]
  rw [resolved, resolved, ← SelectList.distinct_folded, ← SelectList.distinct_folded,
    List.map_cons, List.map_cons, List.filter_map, List.map_map]
  simp only [Function.comp_def, kept, Entry.folded_folded]

end Resolution

/-! Fields and snapshots. -/

def Field.folded (f : Field) : Field :=
  { f with name := fold f.name, referenceTo := f.referenceTo.map fold, owner := f.owner.map fold }

namespace Field

@[simp] theorem name_folded (f : Field) : f.folded.name = fold f.name := rfl

@[simp] theorem folded_folded (f : Field) : f.folded.folded = f.folded := by
  simp [folded, Function.comp_def]

@[simp] theorem referenceTarget_folded (f : Field) :
    f.folded.referenceTarget? = f.referenceTarget?.map fold :=
  List.head?_map

@[simp] theorem relationship_folded (f : Field) : f.folded.relationship? = f.relationship? := by
  rw [relationship?, referenceTarget_folded, Option.map_map, relationship?]
  rfl

end Field

namespace Snapshot

theorem foldedNames_folded (l : List Field) : foldedNames (l.map Field.folded) = foldedNames l := by
  simp [foldedNames]

def folded (s : Snapshot) : Snapshot where
  name := fold s.name
  label := s.label
  custom := s.custom
  fields := s.fields.map Field.folded
  nodup := by
    rw [foldedNames_folded]
    exact s.nodup

@[simp] theorem folded_folded (s : Snapshot) : s.folded.folded = s.folded := by
  simp [folded, Function.comp_def]

@[simp] theorem field_folded (s : Snapshot) (name : String) :
    s.folded.field? (fold name) = (s.field? name).map Field.folded := by
  rw [field?, folded, List.find?_map, field?]
  simp only [Function.comp_def, Field.name_folded, sameName_fold_left, sameName_fold_right]

@[simp] theorem hasField_folded (s : Snapshot) (name : String) :
    s.folded.hasField (fold name) = s.hasField name := by
  rw [hasField, folded, List.any_map, hasField]
  simp only [Function.comp_def, Field.name_folded, sameName_fold_left, sameName_fold_right]

theorem ownedBy_folded (s : Snapshot) (owner : String) :
    s.folded.ownedBy (fold owner) = (s.ownedBy owner).folded := by
  simp [ownedBy, folded, Field.folded, Function.comp_def]

end Snapshot

theorem Pattern.isMatch_folded (p : Pattern) (f : Field) : p.isMatch f.folded = p.isMatch f := by
  have isOf :
      ∀ kind, decide (f.folded.relationship? = some kind) =
        decide (f.relationship? = some kind) := by
    intro kind
    rw [Field.relationship_folded]
  have holds : Condition.holds f.folded = Condition.holds f := by
    funext c
    cases c with
    | lookup value => exact congrArg (· == value) (isOf .lookup)
    | masterDetail value => exact congrArg (· == value) (isOf .masterDetail)
    | _ => rfl
  rw [isMatch, holds, isMatch]

/-! Expansion. -/

section Expansion
variable (l : List Entry) (pattern : Option Pattern) (s : Snapshot) (counterpart : Option Snapshot)
  (rules : ExpansionRules)

theorem admits_folded (f : Field) :
    rules.admits (counterpart.map Snapshot.folded) f.folded = rules.admits counterpart f := by
  rw [ExpansionRules.admits, ExpansionRules.admits, Field.name_folded, NameSet.contains_fold,
    Field.referenceTarget_folded, Option.any_map, Option.all_map]
  simp only [NameSet.contains_fold, Snapshot.hasField_folded]

theorem joiningFields_folded :
    joiningFields (l.map Entry.folded) pattern s.folded (counterpart.map Snapshot.folded) rules =
      (joiningFields l pattern s counterpart rules).map Field.folded := by
  refine filter_map_of (fun f => ?_) s.fields
  simp only [Pattern.isMatch_folded, SelectList.selects_folded, Field.name_folded,
    SelectList.selects_fold, admits_folded]

theorem expand_folded :
    expand (l.map Entry.folded) pattern s.folded (counterpart.map Snapshot.folded) rules =
      (expand l pattern s counterpart rules).map Entry.folded := by
  rw [expand, expand, joiningFields_folded, ← SelectList.distinct_folded,
    ← SelectList.exclude_folded, List.map_append, List.map_map, List.map_map]
  rfl

end Expansion

theorem parentObjects_folded (fields : List Field) (kind : RelationshipKind) :
    parentObjects (fields.map Field.folded) kind = (parentObjects fields kind).map fold := by
  have ofKind : (fields.map Field.folded).filter (fun f => f.relationship? = some kind) =
      (fields.filter fun f => f.relationship? = some kind).map Field.folded :=
    filter_map_of (fun f => by rw [f.relationship_folded]) fields
  have targets : ∀ l : List Field,
      (l.map Field.folded).filterMap Field.referenceTarget? =
        (l.filterMap Field.referenceTarget?).map fold := by
    intro l
    rw [List.filterMap_map, List.map_filterMap]
    exact List.filterMap_congr fun f _ => f.referenceTarget_folded
  have distinct : ∀ a b, sameName (fold a) (fold b) = sameName a b := by
    intro a b
    rw [sameName_fold_left, sameName_fold_right]
  rw [parentObjects, ofKind, targets, eraseDupsBy_map distinct, parentObjects]

/-! Validation. -/

def Warning.folded (w : Warning) : Warning :=
  { w with object := fold w.object, field := fold w.field }

@[simp] theorem Warning.folded_folded (w : Warning) : w.folded.folded = w.folded := by
  simp [folded]

theorem Warning.map_folded_folded (l : List Warning) :
    (l.map folded).map folded = l.map folded := by
  rw [List.map_map]
  exact List.map_congr_left fun w _ => w.folded_folded

theorem missingNames_folded (l : List Entry) (s : Snapshot) :
    missingNames (l.map Entry.folded) s.folded = (missingNames l s).map fold := by
  rw [missingNames, Entry.plainNames_folded]
  exact filter_map_of (fun name => by rw [Snapshot.hasField_folded]) _

theorem dropNamed_folded (names : List String) (l : List Entry) :
    dropNamed (names.map fold) (l.map Entry.folded) = (dropNamed names l).map Entry.folded := by
  refine filter_map_of (fun e => ?_) l
  rw [List.any_map]
  exact congrArg (!names.any ·)
    (funext fun name => by rw [Function.comp_apply, e.isNamed_folded, e.isNamed_fold])

@[simp] theorem isSpecialObject_fold (object : String) :
    isSpecialObject (fold object) = isSpecialObject object := by
  simp [isSpecialObject]

end MigrationPlan
