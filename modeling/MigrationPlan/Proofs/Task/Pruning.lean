import MigrationPlan.Proofs.Selection.Validation
import MigrationPlan.Proofs.Task.Attempts

/- What a validation leaves of a select list whose names differ. It drops the plain names that the
   snapshot lacks and reports exactly these, or else it ends with a fault, names the first field
   that records are matched by and that is missing, and drops nothing at all. -/
namespace MigrationPlan
open Text SelectList

namespace ValidationScope
variable (scope : ValidationScope) (s : Snapshot)

def Misses (name : String) : Prop := scope.critical.contains name = true ∧ s.hasField name = false

def MissesFirst (l : List Entry) (name : String) : Prop :=
  ∃ before after, l = before ++ .plain name :: after ∧ scope.Misses s name ∧
    ∀ earlier, .plain earlier ∈ before → ¬ scope.Misses s earlier

def drops (e : Entry) : Bool := scope.isChecked && e.plainName?.any fun name => !s.hasField name

def warning (e : Entry) : Warning := { object := scope.object, field := e.key, side := scope.side }

def Refuses (l : List Entry) : Prop :=
  l = [] ∨ scope.isChecked = true ∧ ∃ name, .plain name ∈ l ∧ scope.Misses s name

variable {scope s} {l : List Entry}

theorem missingCritical_some {name : String} :
    missingCritical? scope.critical l s = some name ↔ scope.MissesFirst s l name := by
  have found : missingCritical? scope.critical l s =
      (l.find? fun e => e.plainName?.any fun name =>
        scope.critical.contains name && !s.hasField name).bind
        Entry.plainName? := List.find?_filterMap
  have misses : ∀ e : Entry,
      (e.plainName?.any fun name => scope.critical.contains name && !s.hasField name) = true ↔
      ∃ n, e = .plain n ∧ scope.Misses s n := by
    intro e
    cases e <;> simp [Entry.plainName?, Misses]
  rw [found, Option.bind_eq_some_iff]
  constructor
  · rintro ⟨e, first, plain⟩
    obtain ⟨missed, before, after, parts, earlier⟩ := List.find?_eq_some_iff_append.mp first
    obtain rfl := Entry.eq_plain_of_plainName plain
    obtain ⟨n, same, missed⟩ := (misses _).mp missed
    cases same
    refine ⟨before, after, parts, missed, fun n member missesEarlier => ?_⟩
    have none := earlier _ member
    rw [(misses _).mpr ⟨n, rfl, missesEarlier⟩] at none
    cases none
  · rintro ⟨before, after, parts, missed, earlier⟩
    refine ⟨.plain name, List.find?_eq_some_iff_append.mpr ⟨(misses _).mpr ⟨name, rfl, missed⟩,
      before, after, parts, ?_⟩, rfl⟩
    intro e member
    rw [Bool.not_eq_true', Bool.eq_false_iff, Ne, misses]
    rintro ⟨n, rfl, missesEarlier⟩
    exact earlier n member missesEarlier

theorem missingCritical_isSome :
    (∃ name, missingCritical? scope.critical l s = some name) ↔
      ∃ name, .plain name ∈ l ∧ scope.Misses s name := by
  rw [← Option.isSome_iff_exists, ← Option.ne_none_iff_isSome, Ne, missingCritical_none]
  simp [Misses]

theorem filter_keeps (checked : scope.isChecked = true) :
    l.filter s.keeps = l.filter fun e => !scope.drops s e := by
  apply List.filter_congr
  intro e _
  cases e <;> simp [Snapshot.keeps, drops, checked, Entry.plainName?]

theorem warningsOf_eq (checked : scope.isChecked = true) :
    warningsOf scope.object scope.side l s = (l.filter (scope.drops s)).map scope.warning := by
  have names : missingNames l s = (l.filter (scope.drops s)).map Entry.key := by
    induction l with
    | nil => rfl
    | cons e l ih =>
      unfold missingNames at ih ⊢
      cases e with
      | plain name =>
        cases lacking : s.hasField name <;>
          simp [drops, checked, Entry.plainName?, Entry.key, lacking, ih]
      | path _ | composite _ | expression _ =>
        simp [List.filterMap_cons, drops, Entry.plainName?, ih]
  rw [warningsOf, names, List.map_map]
  rfl

theorem missing_message (scope : ValidationScope) (name : String) :
    (scope.missing name).message =
      "Configuration error for object " ++ scope.object ++ ": "
        ++ missingText (if sameName name recordId then "record id"
          else "external id") name scope.side := by
  unfold missing
  split <;> rfl

theorem validateSelection_refused (nodup : (names l).Nodup) :
    scope.Refuses s l ↔ ∃ f, validateSelection l s scope = .error f := by
  by_cases empty : l = []
  · simp [Refuses, validateSelection, empty]
  · cases checked : scope.isChecked with
    | false => simp [Refuses, validateSelection, empty, checked]
    | true =>
      rw [validateSelection_checked scope nodup empty checked]
      simp only [Refuses, empty, checked, false_or, true_and]
      rw [← missingCritical_isSome]
      cases missingCritical? scope.critical l s <;> simp

theorem validateSelection_fault {f : Fault} (nodup : (names l).Nodup)
    (refused : validateSelection l s scope = .error f) :
    (l = [] ∧ f = .object scope.object .nothingSelected) ∨ ∃ name, scope.MissesFirst s l name ∧
      f = scope.missing name := by
  by_cases empty : l = []
  · left
    simpa [empty, validateSelection, eq_comm] using refused
  · right
    cases checked : scope.isChecked with
    | false => simp [validateSelection, empty, checked] at refused
    | true =>
      rw [validateSelection_checked scope nodup empty checked] at refused
      cases first : missingCritical? scope.critical l s with
      | none => simp [first] at refused
      | some name =>
        simp only [first, Except.error.injEq] at refused
        exact ⟨name, missingCritical_some.mp first, refused.symm⟩

theorem validateSelection_pruned (nodup : (names l).Nodup) (accepted : ¬ scope.Refuses s l) :
    validateSelection l s scope =
      .ok (l.filter fun e => !scope.drops s e, (l.filter (scope.drops s)).map scope.warning) := by
  have nonempty : l ≠ [] := fun empty => accepted (Or.inl empty)
  cases checked : scope.isChecked with
  | false =>
    have dropsNone : scope.drops s = fun _ => false := by
      funext e
      simp [drops, checked]
    simp [validateSelection, nonempty, checked, dropsNone, List.filter_eq_self.mpr]
  | true =>
    have complete : missingCritical? scope.critical l s = none := by
      rw [← Option.not_isSome_iff_eq_none, Option.isSome_iff_exists, missingCritical_isSome]
      exact fun missed => accepted (Or.inr ⟨checked, missed⟩)
    rw [validateSelection_checked scope nodup nonempty checked, complete]
    simp only [filter_keeps checked, warningsOf_eq checked]

end ValidationScope

open ValidationScope in
/-- A select list whose names differ is refused exactly if it is empty or lacks, where fields are
    checked, a field that records are matched by; the fault names the first one, and a task keeps
    the list as it was before. Any other list loses the plain names that the snapshot lacks, each
    with a warning, and validating again finds nothing more. -/
theorem validation_partitions (l : List Entry) (s : Snapshot) (scope : ValidationScope)
    (nodup : (l.map fun e => fold e.key).Nodup) :
    let kept := l.filter fun e => !scope.drops s e
    (scope.Refuses s l ↔ ∃ f, validateSelection l s scope = .error f) ∧
      (∀ f, validateSelection l s scope = .error f →
        (l = [] ∧ f = .object scope.object .nothingSelected) ∨
          ∃ name, scope.MissesFirst s l name ∧ f = scope.missing name ∧
            f.message = "Configuration error for object " ++ scope.object ++ ": "
              ++ missingText (if sameName name recordId then "record id" else "external id") name
                scope.side) ∧
      (∀ (w : Work) c unchecked side counterpart f,
        (w.settle c unchecked side s counterpart).result = .error f →
        (w.settle c unchecked side s counterpart).state =
          { w with
            query :=
              { w.query with entries := w.brief.expanded c w.query.entries s counterpart } }) ∧
      (¬ scope.Refuses s l →
        validateSelection l s scope = .ok (kept, (l.filter (scope.drops s)).map scope.warning) ∧
          (kept ≠ [] → validateSelection kept s scope = .ok (kept, []))) := by
  intro kept
  refine ⟨validateSelection_refused nodup, ?_, ?_, ?_⟩
  · intro f refused
    refine (validateSelection_fault nodup refused).imp_right ?_
    rintro ⟨name, first, rfl⟩
    exact ⟨name, first, rfl, missing_message scope name⟩
  · intro w c unchecked side counterpart f failed
    cases valid : validateSelection (w.brief.expanded c w.query.entries s counterpart) s
        { object := w.brief.object, side, critical := w.brief.critical, unchecked } with
    | error g => exact (Work.settle_invalid c unchecked side counterpart valid).2
    | ok p =>
      rw [(Work.settle_valid c unchecked side counterpart valid).1] at failed
      cases failed
  · intro accepted
    have pruned := validateSelection_pruned nodup accepted
    exact ⟨pruned, fun nonempty => validateSelection_again nodup pruned nonempty scope rfl⟩

def matchedContacts : ValidationScope :=
  { object := "Contact", side := .target,
    critical := (NameSet.ofList [recordId]).insertAll ["LastName"] }

def barePersons : Snapshot :=
  (Snapshot.ofName "Contact").addAll [.ofType "ID" .id, .ofType "lastname" .string]

/-- Two plain names are missing; a path and a composite that look like missing fields are not looked
    up. -/
def personEntries : List Entry :=
  [.plain "Id", .plain "Phone", .path "Account.Name", .plain "LastName",
    .composite ["Phone", "Email"], .plain "Email"]

theorem validation_partitions_contacts :
    (personEntries.map fun e => fold e.key).Nodup ∧
      validateSelection personEntries barePersons matchedContacts =
        .ok ([.plain "Id", .path "Account.Name", .plain "LastName", .composite ["Phone", "Email"]],
          [{ object := "Contact", field := "Phone", side := .target },
           { object := "Contact", field := "Email", side := .target }]) ∧
      validateSelection
          [.plain "Id", .path "Account.Name", .plain "LastName", .composite ["Phone", "Email"]]
          barePersons matchedContacts =
        .ok ([.plain "Id", .path "Account.Name", .plain "LastName",
          .composite ["Phone", "Email"]], []) := by
  have nodup : (personEntries.map fun e => fold e.key).Nodup := by decide +kernel
  obtain ⟨refused, _, _, accepted⟩ :=
    validation_partitions personEntries barePersons matchedContacts nodup
  have dropped :
      personEntries.filter (matchedContacts.drops barePersons) =
        [.plain "Phone", .plain "Email"] := by
    decide +kernel
  have kept : (personEntries.filter fun e => !matchedContacts.drops barePersons e) =
      [.plain "Id", .path "Account.Name", .plain "LastName", .composite ["Phone", "Email"]] := by
        decide +kernel
  have found : ¬ matchedContacts.Refuses barePersons personEntries := by
    rw [refused]
    rintro ⟨f, fails⟩
    have ends : (validateSelection personEntries barePersons matchedContacts).isOk = true := by
      decide +kernel
    rw [fails] at ends
    cases ends
  obtain ⟨pruned, again⟩ := accepted found
  rw [kept] at pruned again
  rw [dropped] at pruned
  exact ⟨nodup, pruned, again (by simp)⟩

end MigrationPlan
