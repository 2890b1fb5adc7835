import Mathlib.Data.List.Find
import MigrationPlan.Proofs.Task.Selection

/- Describing both sides reconciles them: the select list that two passes of expansion and
   validation leave is given in one formula over the list before and the two snapshots. The passes
   are followed once each, by what settling by one snapshot does to a well-formed list. -/
namespace MigrationPlan
open Text SelectList

namespace Snapshot

theorem hasField_ownedBy (s : Snapshot) (owner name : String) :
    (s.ownedBy owner).hasField name = s.hasField name := by
  simp [hasField, ownedBy, List.any_map, Function.comp_def]

theorem keeps_ownedBy (s : Snapshot) (owner : String) : (s.ownedBy owner).keeps = s.keeps := by
  funext e
  unfold keeps
  cases e.plainName? with
  | none => rfl
  | some name => exact hasField_ownedBy s owner name

end Snapshot

namespace Brief
variable (c : Context) (b : Brief)

def eligible (f : Field) : Bool :=
  b.pattern.any (·.isMatch f) && !b.excluded.contains f.name &&
    !f.referenceTarget?.any c.deniedParents.contains

def fromSource (l : List Entry) (s : Snapshot) : List Field :=
  s.fields.filter fun f => b.eligible c f && !selects l f.name

/-- The fields of the target that the pattern adds behind those of the source: the source has them,
    and they are neither in the list nor added already. -/
def fromTarget (l : List Entry) (s t : Snapshot) : List Field :=
  t.fields.filter fun g =>
    b.eligible c g && s.hasField g.name && !selects l g.name
      && !(b.fromSource c l s).any fun f => sameName f.name g.name

def reconciled (l : List Entry) (s t : Snapshot) : List Entry :=
  (l.filter fun e => e.plainName?.all fun name => s.hasField name && t.hasField name)
    ++ plainEntries ((b.fromSource c l s).filter fun f => t.hasField f.name)
    ++ plainEntries (b.fromTarget c l s t)

/-- What is reported of the fields that one side lacks: first the plain names that the source lacks,
    then those of the rest, and of the fields that the source adds, that the target lacks. -/
def reconciliationWarnings (l : List Entry) (s t : Snapshot) : List Warning :=
  let named side := fun field => ({ object := b.object, field, side } : Warning)
  (((l.filterMap Entry.plainName?).filter fun name => !s.hasField name).map (named .source))
    ++ (((l.filterMap Entry.plainName?).filter fun name =>
      s.hasField name && !t.hasField name).map (named .target))
    ++ (((b.fromSource c l s).map Field.name).filter fun name =>
      !t.hasField name).map (named .target)

def missingFault (side : Side) (name : String) : Fault :=
  .object b.object (if sameName name recordId then .missingRecordId name side
    else .missingExternalId name side)

variable {c b}

theorem joining_first (keeps : b.operation ≠ .delete) (l : List Entry) (s : Snapshot) :
    b.joining c l s none = b.fromSource c l s := by
  simp only [joining, beq_iff_eq, keeps, ↓reduceIte, joiningFields, fromSource]
  apply List.filter_congr
  intro f _
  simp only [eligible, ExpansionRules.admits, rules, Option.all_none, Bool.and_true]
  ac_rfl

theorem joining_second (keeps : b.operation ≠ .delete) (l : List Entry) (s t : Snapshot) :
    b.joining c l t (some s) =
      t.fields.filter fun g => b.eligible c g && s.hasField g.name && !selects l g.name := by
  simp only [joining, beq_iff_eq, keeps, ↓reduceIte, joiningFields]
  apply List.filter_congr
  intro f _
  simp only [eligible, ExpansionRules.admits, rules, Option.all_some]
  ac_rfl

/-! Owners play no part: the passes may be followed on the snapshots as they were described. -/

theorem joining_ownedBy (l : List Entry) (s : Snapshot) (owner : String)
    (counterpart : Option Snapshot) :
    plainEntries (b.joining c l (s.ownedBy owner) counterpart) =
      plainEntries (b.joining c l s counterpart) := by
  unfold joining
  split
  · rfl
  · simp only [joiningFields, Snapshot.ownedBy, plainEntries, List.filter_map, List.map_map,
      Function.comp_def]
    -- no condition reads the owner, so that both filters test the same
    congr 1

theorem joining_counterpart (l : List Entry) (s t : Snapshot) (owner : String) :
    b.joining c l t (some (s.ownedBy owner)) = b.joining c l t (some s) := by
  simp only [joining, joiningFields, ExpansionRules.admits, Option.all_some,
    Snapshot.hasField_ownedBy]

end Brief

namespace Snapshot

theorem missingNames_ownedBy (l : List Entry) (s : Snapshot) (owner : String) :
    missingNames l (s.ownedBy owner) = missingNames l s := by
  simp only [missingNames, hasField_ownedBy]

theorem missingCritical_ownedBy (critical : NameSet) (l : List Entry) (s : Snapshot)
    (owner : String) :
    missingCritical? critical l (s.ownedBy owner) = missingCritical? critical l s := by
  simp only [missingCritical?, hasField_ownedBy]

end Snapshot

theorem missingNames_append (l m : List Entry) (s : Snapshot) :
    missingNames (l ++ m) s = missingNames l s ++ missingNames m s := by
  simp [missingNames]

theorem plainNames_plainEntries (fields : List Field) :
    (plainEntries fields).filterMap Entry.plainName? = fields.map Field.name := by
  simp [plainEntries, List.filterMap_map, Function.comp_def, Entry.plainName?]

theorem plainNames_kept (l : List Entry) (s : Snapshot) :
    (l.filter s.keeps).filterMap Entry.plainName? =
      (l.filterMap Entry.plainName?).filter s.hasField := by
  rw [List.filterMap_filter, List.filter_filterMap]
  congr 1
  funext e
  unfold Snapshot.keeps
  cases e.plainName? with
  | none => simp
  | some name => cases present : s.hasField name <;> simp [Option.filter, present]

theorem keeps_plainEntries (fields : List Field) (s : Snapshot) :
    (plainEntries fields).filter s.keeps =
      plainEntries (fields.filter fun f => s.hasField f.name) := by
  simp [plainEntries, List.filter_map, Function.comp_def, Snapshot.keeps, Entry.plainName?]

namespace Brief
variable {c : Context} {b : Brief} {l : List Entry} {s t : Snapshot}

theorem fromSource_in_source :
    (b.fromSource c l s).filter (fun f => s.hasField f.name) = b.fromSource c l s := by
  apply List.filter_eq_self.mpr
  intro f member
  exact Snapshot.hasField_of_mem (List.mem_filter.mp member).1

theorem fromTarget_in_target :
    (b.fromTarget c l s t).filter (fun f => t.hasField f.name) = b.fromTarget c l s t := by
  apply List.filter_eq_self.mpr
  intro f member
  exact Snapshot.hasField_of_mem (List.mem_filter.mp member).1

theorem present_not_missing {fields : List Field}
    (present : fields.filter (fun f => s.hasField f.name) = fields) :
    missingNames (plainEntries fields) s = [] := by
  rw [missingNames, plainNames_plainEntries, List.filter_eq_nil_iff]
  intro name member
  obtain ⟨f, inFields, rfl⟩ := List.mem_map.mp member
  simpa using List.filter_eq_self.mp present f inFields

def afterSource (c : Context) (b : Brief) (l : List Entry) (s : Snapshot) : List Entry :=
  l.filter s.keeps ++ plainEntries (b.fromSource c l s)

theorem first_pass :
    (l ++ plainEntries (b.fromSource c l s)).filter s.keeps = b.afterSource c l s := by
  rw [List.filter_append, keeps_plainEntries, fromSource_in_source, afterSource]

theorem selects_afterSource {name : String} (present : s.hasField name = true) :
    selects (b.afterSource c l s) name =
      (selects l name || (b.fromSource c l s).any fun f => sameName f.name name) := by
  have new : selects (plainEntries (b.fromSource c l s)) name =
      (b.fromSource c l s).any fun f => sameName f.name name := by
    simp [selects, plainEntries, List.any_map, Function.comp_def, Entry.isNamed, Entry.key]
  rw [← selects_kept l present, ← new, afterSource, selects, List.any_append]
  rfl

theorem second_pass_joining (keeps : b.operation ≠ .delete) :
    b.joining c (b.afterSource c l s) t (some s) = b.fromTarget c l s t := by
  rw [joining_second keeps, fromTarget]
  apply List.filter_congr
  intro g _
  cases present : s.hasField g.name with
  | false => simp
  | true =>
    rw [selects_afterSource present]
    simp [Bool.and_assoc]

theorem second_pass : (b.afterSource c l s ++ plainEntries (b.fromTarget c l s t)).filter t.keeps =
    b.reconciled c l s t := by
  rw [List.filter_append, keeps_plainEntries, fromTarget_in_target, afterSource, List.filter_append,
    keeps_plainEntries, List.filter_filter, reconciled]
  congr 2
  apply List.filter_congr
  intro e _
  unfold Snapshot.keeps
  cases e.plainName? with
  | none => rfl
  | some name => simp [Bool.and_comm]

theorem warnings_of_passes :
    warningsOf b.object .source (l ++ plainEntries (b.fromSource c l s)) s
        ++ warningsOf b.object .target
          (b.afterSource c l s ++ plainEntries (b.fromTarget c l s t)) t =
      b.reconciliationWarnings c l s t := by
  have rest : missingNames (l.filter s.keeps) t =
      (l.filterMap Entry.plainName?).filter fun name => s.hasField name && !t.hasField name := by
    rw [missingNames, plainNames_kept, List.filter_filter]
    exact List.filter_congr fun name _ => Bool.and_comm _ _
  rw [warningsOf, warningsOf, missingNames_append, missingNames_append, afterSource,
    missingNames_append, rest, present_not_missing fromSource_in_source,
    present_not_missing fromTarget_in_target]
  simp [missingNames, plainNames_plainEntries, reconciliationWarnings]

/-! Whatever records are matched by is selected already, so that no pass adds it and the fault of a
    missing field is decided by the list before. -/

theorem critical_selected (h : b.WellSelected l) (keeps : b.operation ≠ .delete) {name : String}
    (critical : b.critical.contains name = true) : fold name ∈ names l := by
  rcases (b.contains_critical name).mp critical with isId | ⟨e, member, same⟩
  · rw [(sameName_iff _ _).mp isId]
    exact key_mem_names (List.mem_of_mem_head? h.recordIdFirst)
  · rw [← (sameName_iff _ _).mp same]
    exact (selects_iff _ _).mp (h.externalIdSelected keeps e member)

theorem complete_iff :
    (∀ name, .plain name ∈ l → b.IsCritical name →
      s.hasField name = true ∧ t.hasField name = true) ↔
    missingCritical? b.critical l s = none ∧ missingCritical? b.critical l t = none := by
  simp only [missingCritical_none, contains_critical]
  constructor
  · intro h
    exact ⟨fun n member critical => (h n member critical).1,
      fun n member critical => (h n member critical).2⟩
  · intro h n member critical
    exact ⟨h.1 n member critical, h.2 n member critical⟩

theorem missingCritical_append {critical : NameSet} {fields : List Field} (s : Snapshot)
    (fresh : ∀ f ∈ fields, critical.contains f.name = true → s.hasField f.name = true) :
    missingCritical? critical (l ++ plainEntries fields) s = missingCritical? critical l s := by
  have none :
      (fields.map Field.name).find? (fun name => critical.contains name && !s.hasField name) =
        none := by
    rw [List.find?_eq_none]
    intro name member
    obtain ⟨f, inFields, rfl⟩ := List.mem_map.mp member
    cases isCritical : critical.contains f.name with
    | false => simp
    | true => simp [fresh f inFields isCritical]
  rw [missingCritical?, List.filterMap_append, List.find?_append, plainNames_plainEntries, none,
    Option.or_none]
  rfl

theorem first_missing : missingCritical? b.critical (l ++ plainEntries (b.fromSource c l s)) s =
    missingCritical? b.critical l s :=
  missingCritical_append s fun _ member _ => Snapshot.hasField_of_mem (List.mem_filter.mp member).1

theorem second_missing (h : b.WellSelected l) (keeps : b.operation ≠ .delete)
    (complete : missingCritical? b.critical l s = none) :
    missingCritical? b.critical (b.afterSource c l s ++ plainEntries (b.fromTarget c l s t)) t =
      missingCritical? b.critical l t := by
  have targetHas : ∀ f ∈ b.fromTarget c l s t, b.critical.contains f.name = true →
      t.hasField f.name = true :=
    fun f member _ => Snapshot.hasField_of_mem (List.mem_filter.mp member).1
  -- critical names are selected, and the pass adds none that is
  have notAdded : ∀ f ∈ b.fromSource c l s, b.critical.contains f.name = true →
      t.hasField f.name = true := by
    intro f member critical
    have selected := critical_selected h keeps critical
    have fresh := (List.mem_filter.mp member).2
    rw [Bool.and_eq_true, Bool.not_eq_true', ← Bool.not_eq_true, selects_iff] at fresh
    exact absurd selected fresh.2
  have notDropped :
      missingCritical? b.critical (l.filter s.keeps) t = missingCritical? b.critical l t := by
    rw [missingCritical?, plainNames_kept, List.find?_filter]
    apply List.find?_congr
    intro name member
    have present := missingCritical_none.mp complete name (mem_plainNames.mp member)
    cases critical : b.critical.contains name with
    | false => simp
    | true => simp [present critical]
  rw [missingCritical_append t targetHas, afterSource,
    missingCritical_append t notAdded, notDropped]

end Brief

namespace Work
variable (c : Context) {w : Work} (side : Side) {s : Snapshot} (counterpart : Option Snapshot)

def settledBy (w : Work) (side : Side) (joined : List Entry) (s : Snapshot) : Work :=
  let query := { w.query with entries := joined.filter s.keeps }
  { w with
    query, queryText := query.compose,
    warnings := w.warnings ++ warningsOf w.brief.object side joined s }

section Settle
variable (h : w.brief.WellSelected w.query.entries)
  (ordinary : isSpecialObject w.brief.object = false) {joined : List Entry}
  (added : w.query.entries ++
    plainEntries (w.brief.joining c w.query.entries s counterpart) = joined)
include h ordinary added

theorem validate_joined :
    validateSelection (w.brief.expanded c w.query.entries s counterpart) s
        { object := w.brief.object, side, critical := w.brief.critical } =
      match missingCritical? w.brief.critical joined s with
      | some name => .error (w.brief.missingFault side name)
      | none => .ok (joined.filter s.keeps, warningsOf w.brief.object side joined s) := by
  have expanded := h.expanded c s counterpart
  rw [validateSelection_checked _ expanded.nodup expanded.ne_nil
    (by simp [ValidationScope.isChecked, ordinary]), h.expanded_eq, added]
  rfl

theorem settle_missing {name : String}
    (missing : missingCritical? w.brief.critical joined s = some name) :
    (w.settle c false side s counterpart).result = .error (w.brief.missingFault side name) := by
  have invalid := validate_joined c side counterpart h ordinary added
  simp only [missing] at invalid
  simp only [settle, invalid]

theorem settle_complete (complete : missingCritical? w.brief.critical joined s = none) :
    (w.settle c false side s counterpart).result = .ok () ∧
      (w.settle c false side s counterpart).state = w.settledBy side joined s := by
  have valid := validate_joined c side counterpart h ordinary added
  simp only [complete] at valid
  simp only [settle, valid]
  exact ⟨trivial, rfl⟩

end Settle

/-! Taking in one side is settling by the snapshot that the side described, whose fields get their
    owner. -/

section Take
variable {systems : Systems} (h : w.brief.WellSelected w.query.entries)
  (ordinary : isSpecialObject w.brief.object = false)
  (described : (systems.on side).describe w.brief.object = .ok s) {joined : List Entry}
  (added : w.query.entries ++
    plainEntries (w.brief.joining c w.query.entries s counterpart) = joined)
include h ordinary described added

theorem take_missing {name : String}
    (missing : missingCritical? w.brief.critical joined s = some name) :
    (w.take c systems false side counterpart).result = .error (w.brief.missingFault side name) := by
  rw [← Brief.joining_ownedBy _ _ w.brief.object] at added
  rw [← Snapshot.missingCritical_ownedBy _ _ _ w.brief.object] at missing
  have failed := settle_missing c side counterpart h ordinary added missing
  simp only [take, fetch, described, failed]
  rfl

theorem take_complete (complete : missingCritical? w.brief.critical joined s = none) :
    (w.take c systems false side counterpart).result = .ok (s.ownedBy w.brief.object) ∧
      (w.take c systems false side counterpart).state = w.settledBy side joined s := by
  rw [← Brief.joining_ownedBy _ _ w.brief.object] at added
  rw [← Snapshot.missingCritical_ownedBy _ _ _ w.brief.object] at complete
  obtain ⟨result, state⟩ := settle_complete c side counterpart h ordinary added complete
  rw [settledBy, Snapshot.keeps_ownedBy, warningsOf, Snapshot.missingNames_ownedBy,
    ← warningsOf] at state
  simp only [take, fetch, described, result, state]
  exact ⟨rfl, rfl⟩

end Take

def halfway (c : Context) (w : Work) (s : Snapshot) : Work :=
  { w.settledBy .source
      (w.query.entries ++ plainEntries (w.brief.fromSource c w.query.entries s)) s with
    schemas := .sourceOnly (s.ownedBy w.brief.object) }

def reconciled (c : Context) (w : Work) (s t : Snapshot) : Work :=
  let query := { w.query with entries := w.brief.reconciled c w.query.entries s t }
  { w with
    query
    queryText := query.compose
    schemas := .pair (s.ownedBy w.brief.object) (t.ownedBy w.brief.object)
    warnings := w.warnings ++ w.brief.reconciliationWarnings c w.query.entries s t }

section Describe
variable {systems : Systems} {t : Snapshot} (h : w.brief.WellSelected w.query.entries)
  (keeps : w.brief.operation ≠ .delete) (ordinary : isSpecialObject w.brief.object = false)
include h keeps ordinary

theorem halfway_wellSelected
    (complete : missingCritical? w.brief.critical w.query.entries s = none) :
    (halfway c w s).brief.WellSelected (halfway c w s).query.entries := by
  have added :=
    congrArg (w.query.entries ++ plainEntries ·)
      (Brief.joining_first (c := c) keeps w.query.entries s)
  have first := settle_complete c .source none h ordinary added (Brief.first_missing.trans complete)
  have settled := settle_wellSelected h c false .source s none
  rw [first.2] at settled
  exact settled

omit h ordinary in
theorem halfway_added :
    (halfway c w s).query.entries
        ++ plainEntries ((halfway c w s).brief.joining c (halfway c w s).query.entries t
          (some (s.ownedBy w.brief.object))) =
      w.brief.afterSource c w.query.entries s ++
        plainEntries (w.brief.fromTarget c w.query.entries s t) := by
  have entries : (halfway c w s).query.entries = w.brief.afterSource c w.query.entries s :=
    Brief.first_pass
  rw [Brief.joining_counterpart, entries]
  exact congrArg _ (congrArg _ (Brief.second_pass_joining keeps))

variable (sides : c.source.isDescribable = true ∧ c.target.isDescribable = true)
  (source : (systems.on .source).describe w.brief.object = .ok s)
include sides source

theorem describe_source_missing {name : String}
    (missing : missingCritical? w.brief.critical w.query.entries s = some name) :
    (w.describe c systems false).result = .error (w.brief.missingFault .source name) := by
  have added :=
    congrArg (w.query.entries ++ plainEntries ·)
      (Brief.joining_first (c := c) keeps w.query.entries s)
  have failed :=
    take_missing c .source none h ordinary source added (Brief.first_missing.trans missing)
  simp only [describe, sides.1, sides.2]
  exact (Outcome.andThen_error failed _).2

variable (complete : missingCritical? w.brief.critical w.query.entries s = none)
include complete

theorem describe_past_source :
    let second := (halfway c w s).take c systems false .target (some (s.ownedBy w.brief.object))
    let stored := second.andThen fun v u => v.keep (.pair (s.ownedBy w.brief.object) u)
    (w.describe c systems false).result = stored.result ∧
      (w.describe c systems false).state = stored.state := by
  have added :=
    congrArg (w.query.entries ++ plainEntries ·)
      (Brief.joining_first (c := c) keeps w.query.entries s)
  have first :=
    take_complete c .source none h ordinary source added (Brief.first_missing.trans complete)
  simp only [describe, sides.1, sides.2]
  have onward := Outcome.andThen_ok first.1 fun w s =>
    (({ w with schemas := .sourceOnly s } : Work).take c systems false .target (some s)).andThen
      fun w t => w.keep (.pair s t)
  rw [first.2] at onward
  exact ⟨onward.2, onward.1⟩

variable (target : (systems.on .target).describe w.brief.object = .ok t)
include target

theorem describe_target_missing {name : String}
    (missing : missingCritical? w.brief.critical w.query.entries t = some name) :
    (w.describe c systems false).result = .error (w.brief.missingFault .target name) := by
  have selected := halfway_wellSelected c h keeps ordinary complete
  have failed := take_missing c .target (some (s.ownedBy w.brief.object)) selected ordinary target
    (halfway_added c keeps) ((Brief.second_missing h keeps complete).trans missing)
  rw [(describe_past_source c h keeps ordinary sides source complete).1]
  exact (Outcome.andThen_error failed _).2

theorem describe_complete (complete' : missingCritical? w.brief.critical w.query.entries t = none) :
    (w.describe c systems false).result = .ok () ∧
      (w.describe c systems false).state = w.reconciled c s t := by
  have selected := halfway_wellSelected c h keeps ordinary complete
  have second := take_complete c .target (some (s.ownedBy w.brief.object)) selected ordinary target
    (halfway_added c keeps) ((Brief.second_missing h keeps complete).trans complete')
  have stored := Outcome.andThen_ok second.1 fun v u => v.keep (.pair (s.ownedBy w.brief.object) u)
  have past := describe_past_source c h keeps ordinary sides source complete
  rw [second.2] at stored
  rw [past.1, past.2, stored.1, stored.2]
  refine ⟨rfl, ?_⟩
  have list := Brief.second_pass (c := c) (b := w.brief) (l := w.query.entries) (s := s) (t := t)
  have warned :=
    Brief.warnings_of_passes (c := c) (b := w.brief) (l := w.query.entries) (s := s) (t := t)
  simp only [keep, settledBy, halfway, reconciled, ← list, ← warned, List.append_assoc]

end Describe

end Work

namespace Task

theorem configured_of_setUp {r : Request} {c : Context} {w : Work}
    (configured : (setUp c { request := r }).state.stage = .configured w) :
    (setUp c { request := r }).state = { request := r, stage := .configured w } ∧
      r.setUp c = .ok w := by
  cases made : r.setUp c with
  | error f => simp [(setUp_error c (t := { request := r }) rfl made).1] at configured
  | ok v =>
    have state := (setUp_ok c (t := { request := r }) rfl made).1
    simp only [state, Stage.configured.injEq] at configured
    exact ⟨configured ▸ state, congrArg _ configured⟩

/-- A task that has just been set up and whose two sides can be described: describing it succeeds
    exactly if both sides have every critical field, names the first that is missing otherwise, and
    on success leaves the list that reconciles both sides, its text, both snapshots and the
    warnings. -/
theorem describe_reconciles (r : Request) (c₀ c : Context) (systems : Systems) (w : Work)
    (s t : Snapshot) (setUp : (Task.setUp c₀ { request := r }).state.stage = .configured w)
    (keeps : w.brief.operation ≠ .delete)
    (checked : r.isExtraObject = false) (ordinary : isSpecialObject w.brief.object = false)
    (sides : c.source.isDescribable = true ∧ c.target.isDescribable = true)
    (source : systems.source.describe w.brief.object = .ok s)
    (target : systems.target.describe w.brief.object = .ok t) :
    let l := w.query.entries
    let o := (Task.setUp c₀ { request := r }).state.describe c systems
    (o.isOk = true ↔
      ∀ name, .plain name ∈ l → w.brief.IsCritical name →
        s.hasField name = true ∧ t.hasField name = true) ∧
    (∀ name, missingCritical? w.brief.critical l s = some name →
      o.result = .error (w.brief.missingFault .source name)) ∧
    (missingCritical? w.brief.critical l s = none →
      ∀ name, missingCritical? w.brief.critical l t = some name →
      o.result = .error (w.brief.missingFault .target name)) ∧
    (o.isOk = true →
      let query := { w.query with entries := w.brief.reconciled c l s t }
      o.state =
        { request := r
          stage := .described
            { brief := w.brief
              query
              queryText := query.compose
              schemas := .pair (s.ownedBy w.brief.object) (t.ownedBy w.brief.object)
              warnings := w.brief.reconciliationWarnings c l s t } }) := by
  obtain ⟨state, made⟩ := configured_of_setUp setUp
  have selected : w.brief.WellSelected w.query.entries :=
    ((Work.wellFormed_kept r).setUp c₀ w made).selection
  have fresh : w.warnings = [] := by
    obtain ⟨x, operation, configuredId, _, _, _, rfl⟩ := Request.setUp_eq_ok.mp made
    rfl
  intro l o
  have described : o = describe c systems { request := r, stage := .configured w } :=
    congrArg (fun u : Task => u.describe c systems) state
  have failed : ∀ f, (w.describe c systems false).result = .error f → o.result = .error f := by
    intro f error
    rw [described]
    exact (describe_error (t := { request := r,
                                  stage := .configured w }) rfl (checked.symm ▸ error)).2
  rw [Brief.complete_iff]
  -- whether both sides are complete is known from the list before: three ways to end
  cases onSource : missingCritical? w.brief.critical l s with
  | some name =>
    have error :=
      failed _ (Work.describe_source_missing c selected keeps ordinary sides source onSource)
    have notOk := Outcome.isOk_error error
    refine ⟨by simp [notOk], ?_, by simp, fun ok => absurd ok (by simp [notOk])⟩
    rintro _ ⟨rfl⟩
    exact error
  | none =>
    cases onTarget : missingCritical? w.brief.critical l t with
    | some name =>
      have error := failed _
        (Work.describe_target_missing c selected keeps ordinary sides source onSource
          target onTarget)
      have notOk := Outcome.isOk_error error
      refine ⟨by simp [notOk], by simp, ?_, fun ok => absurd ok (by simp [notOk])⟩
      rintro - _ ⟨rfl⟩
      exact error
    | none =>
      obtain ⟨ok, work⟩ :=
        Work.describe_complete c selected keeps ordinary sides source onSource target onTarget
      obtain ⟨stored, result⟩ :=
        describe_ok (t := { request := r, stage := .configured w }) rfl (checked.symm ▸ ok)
      rw [← described] at stored result
      refine ⟨by simp [Outcome.isOk_ok result], by simp, by simp, fun _ => ?_⟩
      simp only [stored, checked, work, Work.reconciled, fresh, List.nil_append, l]

def contactsByName : Request :=
  { query := "SELECT all, LastName, Fax, Account.Name FROM Contact"
    operation := .ofOperation .upsert
    externalId := some "LastName"
    excludedFields := ["Phone"] }

def oldContacts : Snapshot where
  name := "Contact"
  label := "Contact"
  fields :=
    [.ofType "Id" .id, .ofType "LastName" .string, .ofType "Phone" .string, .ofType "Email" .string,
    .ofType "Birthdate" .date, (Field.ofType "OwnerId" .id).lookupTo "Group"]
  nodup := by decide +kernel

def newContacts : Snapshot where
  name := "Contact"
  label := "Person"
  fields :=
    [.ofType "ID" .id, .ofType "Fax" .string, .ofType "EMAIL" .string, .ofType "lastname" .string]
  nodup := by decide +kernel

def driftedContacts : Systems :=
  { source := { name := "old", describe := fun _ => .ok oldContacts }
    target := { name := "new", describe := fun _ => .ok newContacts } }

def contactsWork : Work :=
  { brief :=
      { object := "Contact"
        operation := .upsert
        externalId := { text := "LastName" }
        configuredId := { text := "LastName" }
        excluded := { names := ["phone"] }
        pattern := some { all := true } }
    query :=
      { object := "Contact"
        entries :=
          [.plain "Id", .plain "LastName", .plain "Fax", .path "Account.Name",
            .plain "IsPersonAccount"] }
    queryText := "SELECT Id, LastName, Fax, Account.Name, IsPersonAccount FROM Contact" }

theorem describe_reconciles_contacts :
    (setUp betweenOrgs { request := contactsByName }).state.stage = .configured contactsWork ∧
      ((setUp betweenOrgs { request := contactsByName }).state.describe betweenOrgs
        driftedContacts).isOk = true ∧
      ((setUp betweenOrgs { request := contactsByName }).state.describe betweenOrgs
          driftedContacts).state.query.keys =
        ["Id", "LastName", "Account.Name", "Email"] := by
  have configured :
      (setUp betweenOrgs { request := contactsByName }).state.stage = .configured contactsWork := by
    decide +kernel
  have complete :
      missingCritical? contactsWork.brief.critical contactsWork.query.entries oldContacts = none ∧
      missingCritical? contactsWork.brief.critical contactsWork.query.entries newContacts =
        none := by
    decide +kernel
  have reconciled :=
    describe_reconciles contactsByName betweenOrgs betweenOrgs driftedContacts contactsWork
    oldContacts newContacts configured (by decide) rfl (by decide +kernel) ⟨rfl, rfl⟩ rfl rfl
  have ok := reconciled.1.mpr (Brief.complete_iff.mpr complete)
  refine ⟨configured, ok, ?_⟩
  rw [reconciled.2.2.2 ok]
  decide +kernel

end Task

end MigrationPlan
