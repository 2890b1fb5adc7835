import MigrationPlan.Proofs.Selection.Validation
import MigrationPlan.Proofs.Task.Calls
import MigrationPlan.Proofs.Task.Setup

/- The select list of a task over all its calls. Setting up makes a well-formed list, and expanding,
   dropping and failing on the way keep it well-formed, whatever snapshots the systems answer
   with. -/
namespace MigrationPlan
open Text SelectList

namespace Brief

/-- What holds of the select list of every task that is set up. -/
structure WellSelected (b : Brief) (l : List Entry) : Prop where
  recordIdFirst : l.head? = some (.plain recordId)
  nodup : (names l).Nodup
  excludedMandatory : ∀ e ∈ l, b.excluded.contains e.key = true → b.IsMandatory e.key
  externalIdSelected : b.operation ≠ .delete → ∀ e ∈ b.externalId.required, selects l e.key = true
  onlyRecordId : b.operation = .delete → l = [.plain recordId]

theorem recordId_alone (b : Brief) (deletes : b.operation = .delete) :
    b.WellSelected [.plain recordId] where
  recordIdFirst := rfl
  nodup := by simp [names]
  excludedMandatory e member _ := by
    rw [List.mem_singleton.mp member]
    exact (b.contains_mandatory _).mp (critical_mandatory b.recordId_critical)
  externalIdSelected keeps := absurd deletes keeps
  onlyRecordId _ := rfl

namespace WellSelected
variable {b : Brief} {l : List Entry}

theorem spared (h : b.WellSelected l) :
    ∀ e ∈ l, b.excluded.contains e.key = true → b.mandatory.contains e.key = true :=
  fun e member excluded => (b.contains_mandatory _).mpr (h.excludedMandatory e member excluded)

theorem ne_nil (h : b.WellSelected l) : l ≠ [] := by
  intro empty
  have first := h.recordIdFirst
  simp [empty] at first

theorem expanded_eq (h : b.WellSelected l) (c : Context) (s : Snapshot)
    (counterpart : Option Snapshot) :
    b.expanded c l s counterpart = l ++ plainEntries (b.joining c l s counterpart) := by
  unfold expanded joining
  split
  · simp [plainEntries]
  · exact expand_eq_append _ _ _ _ h.nodup h.spared

theorem expanded (h : b.WellSelected l) (c : Context) (s : Snapshot)
    (counterpart : Option Snapshot) :
    b.WellSelected (b.expanded c l s counterpart) := by
  by_cases deletes : b.operation = .delete
  · simpa [Brief.expanded, deletes] using h
  · have joins :
        b.joining c l s counterpart = joiningFields l b.pattern s counterpart (b.rules c) := by
      simp [joining, deletes]
    rw [h.expanded_eq, joins]
    exact
      { recordIdFirst := by rw [List.head?_append, h.recordIdFirst]; rfl
        nodup := names_joined_nodup _ _ _ _ h.nodup
        excludedMandatory := fun e member excluded =>
          (b.contains_mandatory _).mp (joined_spared _ _ _ (b.rules c) h.spared e member excluded)
        externalIdSelected := fun keeps e member => by
          have selected := (selects_iff _ _).mp (h.externalIdSelected keeps e member)
          rw [selects_iff, names_append]
          exact List.mem_append_left _ selected
        onlyRecordId := fun d => absurd d deletes }

theorem validated (h : b.WellSelected l) {s : Snapshot} {scope : ValidationScope}
    {kept : List Entry} {warnings : List Warning} (critical : scope.critical = b.critical)
    (ok : validateSelection l s scope = .ok (kept, warnings)) : b.WellSelected kept := by
  have sub := validateSelection_sublist h.nodup ok
  have stays : ∀ e ∈ l, b.critical.contains e.key = true → e ∈ kept :=
    fun e member isCritical => critical_stays h.nodup ok member (critical ▸ isCritical)
  have first : kept.head? = some (.plain recordId) := by
    rcases validateSelection_ok h.nodup ok with rfl | ⟨rfl, complete⟩
    · exact h.recordIdFirst
    · obtain ⟨rest, rfl⟩ : ∃ rest, l = .plain recordId :: rest :=
        List.head?_eq_some_iff.mp h.recordIdFirst
      have stands := keeps_critical complete (List.mem_cons_self) (critical ▸ b.recordId_critical)
      rw [List.filter_cons_of_pos stands]
      rfl
  exact
    { recordIdFirst := first
      nodup := names_nodup_of_sublist sub h.nodup
      excludedMandatory := fun e member => h.excludedMandatory e (sub.mem member)
      externalIdSelected := fun keeps e member => by
        obtain ⟨d, inList, key⟩ :=
          mem_names.mp ((selects_iff _ _).mp (h.externalIdSelected keeps e member))
        have isCritical : b.critical.contains d.key = true := by
          rw [b.critical.contains_congr key]
          exact required_critical member
        exact (selects_iff _ _).mpr (mem_names.mpr ⟨d, stays d inList isCritical, key⟩)
      onlyRecordId := fun deletes => by
        -- the record id is first and the list is no longer than before
        have short := sub.length_le
        obtain ⟨rest, rfl⟩ := List.head?_eq_some_iff.mp first
        rw [h.onlyRecordId deletes] at short
        have none : rest = [] := List.length_eq_zero_iff.mp (by simpa using short)
        rw [none] }

end WellSelected

theorem selection_wellSelected (b : Brief) (c : Context) {l : List Entry}
    (first : l.head? = some (.plain recordId)) : b.WellSelected (b.selection c l) := by
  unfold selection
  by_cases deletes : b.operation = .delete
  · simpa [deletes] using b.recordId_alone deletes
  · simp only [beq_iff_eq, deletes, ↓reduceIte]
    have chosen := insertAll_extends l (b.required c)
    generalize all : insertAll l (b.required c) = m at chosen
    exact
      { recordIdFirst := by
          obtain ⟨rest, rfl⟩ : ∃ rest, l = .plain recordId :: rest :=
            List.head?_eq_some_iff.mp first
          obtain ⟨more, rfl⟩ := chosen
          have spared := critical_mandatory b.recordId_critical
          simp only [exclude, List.cons_append, List.filter_cons, Entry.key, spared,
            Bool.or_true, ↓reduceIte]
          exact head_distinct _ _
        nodup := names_distinct_nodup _
        excludedMandatory := fun e member excluded => by
          have inList := (distinct_sublist _).mem member
          exact (b.contains_mandatory _).mp ((mem_exclude.mp inList).2 excluded)
        externalIdSelected := fun _ e member => by
          have required : e ∈ b.required c := by simp [required, member]
          have inserted : fold e.key ∈ names m := all ▸ name_mem_insertAll required
          rw [selects_iff, mem_names_distinct]
          exact name_survives_exclude inserted (critical_mandatory (required_critical member))
        onlyRecordId := fun d => absurd d deletes }

end Brief

namespace Work

/-- The invariant of the tasks of one request: a well-formed select list, the exclusions of the
    request, and a delete query by record ids. -/
structure WellFormed (r : Request) (w : Work) : Prop where
  selection : w.brief.WellSelected w.query.entries
  excluded : w.brief.excluded = .ofList r.excludedFields
  deletion : w.brief.operation = .delete →
    ∃ q, w.brief.deleteQuery = some q ∧ q.entries = [.plain recordId]

theorem settle_wellSelected {w : Work} (h : w.brief.WellSelected w.query.entries) (c : Context)
    (unchecked : Bool) (side : Side) (s : Snapshot) (counterpart : Option Snapshot) :
    w.brief.WellSelected (w.settle c unchecked side s counterpart).state.query.entries := by
  have expanded := h.expanded c s counterpart
  unfold settle
  dsimp only
  split
  next f error => exact expanded
  next kept warnings ok => exact expanded.validated rfl ok

theorem settle_wellFormed {r : Request} {w : Work} (h : w.WellFormed r) (c : Context)
    (unchecked : Bool) (side : Side) (s : Snapshot) (counterpart : Option Snapshot) :
    (w.settle c unchecked side s counterpart).state.WellFormed r := by
  have brief := settle_brief w c unchecked side s counterpart
  have selection := settle_wellSelected h.selection c unchecked side s counterpart
  exact ⟨brief.symm ▸ selection, brief.symm ▸ h.excluded, brief.symm ▸ h.deletion⟩

theorem wellFormed_kept (r : Request) : Task.Kept r (WellFormed r) where
  setUp c w made := by
    obtain ⟨x, operation, configuredId, resolved, _, _, rfl⟩ := Request.setUp_eq_ok.mp made
    obtain ⟨q, _, rfl⟩ := Resolution.ofText_eq_ok.mp resolved
    refine ⟨Brief.selection_wellSelected _ c (Resolution.head_resolved q.entries), rfl,
      fun deletes => ?_⟩
    have chosen : operation = .delete := deletes
    subst chosen
    exact ⟨r.deleteQuery .delete (Resolution.ofQuery q).query, rfl, rfl⟩
  describe c systems w h :=
    describe_keeps (P := WellFormed r) (fun side s counterpart _ hv =>
      settle_wellFormed hv c _ side s counterpart)
      (fun _ _ hv => ⟨hv.selection, hv.excluded, hv.deletion⟩) h

end Work

namespace Task

/-- In every state after a successful set-up, whatever was called before and since, the select list
    is well-formed. -/
theorem select_list_well_formed (r : Request) (before after : List Call) (c : Context)
    (ok : ((run { request := r } before).setUp c).isOk = true) :
    let w := (run { request := r } (before ++ .setUp c :: after)).work
    w.query.entries.head? = some (.plain recordId) ∧
      (w.query.entries.map fun e => fold e.key).Nodup ∧
      (∀ e ∈ w.query.entries, (NameSet.ofList r.excludedFields).contains e.key = true →
        sameName e.key recordId = true ∨
          ∃ m ∈ w.brief.externalId.required ++ w.brief.configuredId.required,
            sameName m.key e.key = true) ∧
      (w.brief.operation ≠ .delete →
        ∀ m ∈ w.brief.externalId.required, selects w.query.entries m.key = true) ∧
      (w.brief.operation = .delete →
        w.query.entries = [.plain recordId] ∧
          w.brief.deleteQuery.map (·.entries) = some [.plain recordId]) := by
  have reached : (run { request := r } (before ++ .setUp c :: after)).stage ≠ .unconfigured := by
    rw [run_append]
    exact run_ne_unconfigured (t := ((run { request := r } before).setUp c).state)
      (setUp_succeeded ok) after
  have knows :=
    run_keeps (t := { request := r }) (Work.wellFormed_kept r) trivial (before ++ .setUp c :: after)
  have formed : (run { request := r } (before ++ .setUp c :: after)).work.WellFormed r := by
    unfold work
    cases stage : (run { request := r } (before ++ .setUp c :: after)).stage with
    | unconfigured => exact absurd stage reached
    | configured w => rwa [stage] at knows
    | described w => rwa [stage] at knows
  obtain ⟨selection, excluded, deletion⟩ := formed
  refine ⟨selection.recordIdFirst, selection.nodup, ?_, selection.externalIdSelected, ?_⟩
  · intro e member isExcluded
    rcases selection.excludedMandatory e member (excluded ▸ isExcluded) with (isId | ⟨m, hm, same⟩)
      | ⟨m, hm, same⟩
    · exact Or.inl isId
    · exact Or.inr ⟨m, List.mem_append_left _ hm, same⟩
    · exact Or.inr ⟨m, List.mem_append_right _ hm, same⟩
  · intro deletes
    obtain ⟨q, present, entries⟩ := deletion deletes
    exact ⟨selection.onlyRecordId deletes, by simp [present, entries]⟩

def contactsByNameAndBirth : Request :=
  { query := "SELECT all, LastName, id FROM Contact"
    operation := .ofOperation .upsert
    externalId := some "LastName; Birthdate"
    excludedFields := ["BIRTHDATE", "Phone"] }

def betweenOrgs : Context :=
  { source := .org, target := .org, personAccounts := true,
    deniedParents := .ofList defaultDeniedParents }

def unevenContacts : Systems :=
  { source := (Catalog.ofList "old"
      [(Snapshot.ofName "Contact").addAll
        [.ofType "Id" .id, .ofType "LastName" .string, .ofType "birthdate" .string,
          .ofType "Phone" .string]]).system
    target := (Catalog.ofList "new"
      [(Snapshot.ofName "contact").addAll
        [.ofType "ID" .id, .ofType "lastname" .string, .ofType "Email" .string]]).system }

theorem select_list_well_formed_contacts :
    ((run { request := contactsByNameAndBirth } [.describe betweenOrgs unevenContacts]).setUp
      betweenOrgs).isOk = true ∧
      ((run { request := contactsByNameAndBirth }
          ([.describe betweenOrgs unevenContacts] ++
            .setUp betweenOrgs :: [.describe betweenOrgs unevenContacts])).work.query.entries.map
        fun e => fold e.key).Nodup := by
  have ok :
      ((run { request := contactsByNameAndBirth } [.describe betweenOrgs unevenContacts]).setUp
      betweenOrgs).isOk = true := by decide +kernel
  exact ⟨ok, (select_list_well_formed contactsByNameAndBirth [.describe betweenOrgs unevenContacts]
    [.describe betweenOrgs unevenContacts] betweenOrgs ok).2.1⟩

end Task

end MigrationPlan
