import Mathlib.Data.List.Nodup
import MigrationPlan.Proofs.Task.Lifecycle
import MigrationPlan.Proofs.Task.Reconciliation
import MigrationPlan.Proofs.Task.Attempts

/- References to denied parents. A side that is settled asks the deny-list about its own description
   of a field, and not about that of the other side: where the two list the parents of a field in
   another order, one refuses the field and the other pulls it in. -/
namespace MigrationPlan
open Text SelectList

def Context.denies (c : Context) (f : Field) : Bool :=
  f.referenceTarget?.any c.deniedParents.contains

namespace Snapshot
variable {s : Snapshot}

theorem field_unique {f g : Field} (inFields : f ∈ s.fields) (inFields' : g ∈ s.fields)
    (same : fold f.name = fold g.name) : f = g :=
  List.inj_on_of_nodup_map s.nodup inFields inFields' same

theorem mem_ownedBy {owner : String} {f : Field} :
    f ∈ (s.ownedBy owner).fields ↔ ∃ g ∈ s.fields, { g with owner := some owner } = f :=
      List.mem_map

end Snapshot

theorem mem_validated {l kept : List Entry} {s : Snapshot} {scope : ValidationScope}
    {warnings : List Warning} (ok : validateSelection l s scope = .ok (kept, warnings)) {e : Entry}
    (member : e ∈ kept) : e ∈ l := by
  unfold validateSelection at ok
  split_ifs at ok
  · cases ok
    exact member
  · dsimp only at ok
    split at ok
    · cases ok
    · cases ok
      exact (List.mem_filter.mp member).1

namespace Brief
variable {c : Context} {b : Brief} {l : List Entry} {s : Snapshot}
  {counterpart : Option Snapshot} {f : Field}

theorem not_denied (eligible : b.eligible c f = true) : c.denies f = false := by
  rw [Brief.eligible, Bool.and_eq_true, Bool.not_eq_true'] at eligible
  exact eligible.2

theorem eligible_ownedBy (c : Context) (b : Brief) (f : Field) (owner : String) :
    b.eligible c { f with owner := some owner } = b.eligible c f := rfl

theorem mem_joining :
    f ∈ b.joining c l s counterpart ↔
      b.operation ≠ .delete ∧ f ∈ s.fields ∧ b.eligible c f = true ∧ selects l f.name = false ∧
        counterpart.all (fun t => t.hasField f.name) = true := by
  by_cases deletes : b.operation = .delete
  · simp [joining, deletes]
  · simp only [joining, beq_iff_eq, deletes, ↓reduceIte, joiningFields, List.mem_filter,
      ExpansionRules.admits, rules, eligible, Bool.and_eq_true, Bool.not_eq_true', ne_eq,
      not_false_eq_true, true_and]
    tauto

theorem mem_expanded {e : Entry} (member : e ∈ b.expanded c l s counterpart) :
    e ∈ l ∨ ∃ f ∈ b.joining c l s counterpart, .plain f.name = e := by
  unfold expanded joining at *
  split at member
  · exact Or.inl member
  next keeps =>
    rw [if_neg keeps]
    obtain ⟨joined, _⟩ := mem_exclude.mp ((distinct_sublist _).mem member)
    rcases List.mem_append.mp joined with old | new
    · exact Or.inl old
    · exact Or.inr (mem_plainEntries.mp new)

def PullsIn (b : Brief) (answered : Context → Snapshot → Prop) (e : Entry) : Prop :=
  ∃ c s f, answered c s ∧ f ∈ s.fields ∧ b.eligible c f = true ∧ .plain f.name = e

end Brief

namespace Work
variable {answered answered' : Context → Snapshot → Prop} {c : Context} {systems : Systems}
  {unchecked : Bool} {u v w : Work} {side : Side} {counterpart : Option Snapshot}

structure Grown (answered : Context → Snapshot → Prop) (v w : Work) : Prop where
  brief : w.brief = v.brief
  entries : ∀ e ∈ w.query.entries, e ∈ v.query.entries ∨ v.brief.PullsIn answered e

theorem Grown.refl (answered : Context → Snapshot → Prop) (w : Work) : Grown answered w w :=
  ⟨rfl, fun _ member => Or.inl member⟩

theorem Grown.trans (h : Grown answered u v) (h' : Grown answered v w) : Grown answered u w where
  brief := h'.brief.trans h.brief
  entries e member := by
    rcases h'.entries e member with old | pulled
    · exact h.entries e old
    · exact Or.inr (h.brief ▸ pulled)

theorem Grown.mono (h : Grown answered v w) (more : ∀ c s, answered c s → answered' c s) :
    Grown answered' v w where
  brief := h.brief
  entries e member := by
    refine (h.entries e member).imp_right ?_
    rintro ⟨c, s, f, answer, pulled⟩
    exact ⟨c, s, f, more c s answer, pulled⟩

theorem mem_settled {unchecked : Bool} {s : Snapshot} {e : Entry}
    (member : e ∈ (w.settle c unchecked side s counterpart).state.query.entries) :
    e ∈ w.brief.expanded c w.query.entries s counterpart := by
  unfold settle at member
  dsimp only at member
  split at member
  · exact member
  next ok => exact mem_validated ok member

theorem settle_grown (w : Work) (unchecked : Bool) (side : Side) (counterpart : Option Snapshot)
    {s : Snapshot} (owner : String) (answer : answered c s) :
    Grown answered w (w.settle c unchecked side (s.ownedBy owner) counterpart).state where
  brief := settle_brief w c unchecked side _ counterpart
  entries e member := by
    rcases Brief.mem_expanded (mem_settled member) with old | ⟨f, joins, rfl⟩
    · exact Or.inl old
    · obtain ⟨_, inFields, eligible, _⟩ := Brief.mem_joining.mp joins
      obtain ⟨g, described, rfl⟩ := Snapshot.mem_ownedBy.mp inFields
      exact Or.inr ⟨c, s, g, answer, described, eligible, rfl⟩

theorem describe_grown (w : Work) (c : Context) (systems : Systems) (unchecked : Bool)
    (answers : ∀ side s, (c.medium side).isDescribable = true →
      (systems.on side).describe w.brief.object = .ok s →
      answered c s) :
    Grown answered w (w.describe c systems unchecked).state := by
  refine describe_keeps_read (P := Grown answered w) ?_ (fun _ _ h => ⟨h.brief, h.entries⟩)
    (.refl answered w)
  intro side s counterpart v asked read h
  obtain ⟨t, answer, rfl⟩ := fetch_eq_ok.mp read
  rw [h.brief] at answer
  exact h.trans (settle_grown v unchecked side counterpart _ (answers side t asked answer))

theorem settle_selects {s : Snapshot} {f : Field} (h : w.brief.WellSelected w.query.entries)
    (ok : (w.settle c unchecked side s counterpart).result = .ok ()) (inFields : f ∈ s.fields) :
    selects (w.settle c unchecked side s counterpart).state.query.entries f.name = true ↔
      selects w.query.entries f.name = true ∨
        w.brief.operation ≠ .delete ∧ w.brief.eligible c f = true ∧
          counterpart.all (fun t => t.hasField f.name) = true := by
  obtain ⟨kept, warnings, valid, state⟩ := settle_ok c unchecked side counterpart ok
  have same :
      selects kept f.name = selects (w.brief.expanded c w.query.entries s counterpart) f.name := by
    rcases validateSelection_ok (h.expanded c s counterpart).nodup valid with rfl | ⟨rfl, _⟩
    · rfl
    · exact selects_kept _ (Snapshot.hasField_of_mem inFields)
  have joins :
      fold f.name ∈ names (plainEntries (w.brief.joining c w.query.entries s counterpart)) ↔
      f ∈ w.brief.joining c w.query.entries s counterpart := by
    rw [names_plainEntries, foldedNames, List.mem_map]
    constructor
    · rintro ⟨g, joins, named⟩
      exact Snapshot.field_unique (Brief.mem_joining.mp joins).2.1 inFields named ▸ joins
    · intro joins
      exact ⟨f, joins, rfl⟩
  rw [state]
  simp only [same, h.expanded_eq, selects_iff, names_append, List.mem_append, joins,
    Brief.mem_joining]
  rw [← selects_iff]
  cases selects w.query.entries f.name <;> simp [inFields]

theorem describe_passes {s t : Snapshot} (both : c.isTwoSided = true)
    (ok : (w.describe c systems unchecked).result = .ok ())
    (source : w.fetch systems .source = .ok s) (target : w.fetch systems .target = .ok t) :
    w.PassesSource c systems unchecked s ∧
      ((w.betweenSides c unchecked s).settle c unchecked .target t (some s)).result = .ok () ∧
      (w.describe c systems unchecked).state =
        { ((w.betweenSides c unchecked s).settle c unchecked .target t (some s)).state with
          schemas := .pair s t } := by
  obtain ⟨onSource, onTarget⟩ := Context.sides_of_isTwoSided both
  simp only [describe, onSource, onTarget] at ok ⊢
  obtain ⟨s', taken, later, state⟩ := Outcome.andThen_eq_ok ok
  obtain ⟨read, settled, between⟩ := take_eq_ok taken
  obtain rfl : s' = s := Except.ok.inj (read.symm.trans source)
  rw [between] at later state
  obtain ⟨t', taken', state'⟩ := keep_ok later
  obtain ⟨read', settled', last⟩ := take_eq_ok taken'
  have same : (w.betweenSides c unchecked s').fetch systems .target = .ok t :=
    (fetch_congr (settle_brief w c unchecked .source s' none)).trans target
  obtain rfl : t' = t := Except.ok.inj (read'.symm.trans same)
  exact ⟨⟨read, settled⟩, settled', by rw [state, state', last]; rfl⟩

/-- After both sides are settled: of the fields that both have, those that were selected and those
    that the pattern pulls in as one side or the other describes them. -/
theorem describe_selects {s t : Snapshot} {f g : Field} (h : w.brief.WellSelected w.query.entries)
    (both : c.isTwoSided = true) (ok : (w.describe c systems unchecked).result = .ok ())
    (source : systems.source.describe w.brief.object = .ok s)
    (target : systems.target.describe w.brief.object = .ok t)
    (inSource : f ∈ s.fields) (inTarget : g ∈ t.fields) (same : fold f.name = fold g.name) :
    selects (w.describe c systems unchecked).state.query.entries f.name = true ↔
      selects w.query.entries f.name = true ∨
        w.brief.operation ≠ .delete ∧
          (w.brief.eligible c f = true ∨ w.brief.eligible c g = true) := by
  have first : w.fetch systems .source = .ok (s.ownedBy w.brief.object) :=
    fetch_eq_ok.mpr ⟨s, source, rfl⟩
  have second : w.fetch systems .target = .ok (t.ownedBy w.brief.object) :=
    fetch_eq_ok.mpr ⟨t, target, rfl⟩
  obtain ⟨passes, settled, state⟩ := describe_passes both ok first second
  have brief : (w.betweenSides c unchecked (s.ownedBy w.brief.object)).brief = w.brief :=
    settle_brief w c unchecked .source _ none
  have between : (w.betweenSides c unchecked (s.ownedBy w.brief.object)).brief.WellSelected
      (w.betweenSides c unchecked (s.ownedBy w.brief.object)).query.entries := by
    rw [brief]
    exact settle_wellSelected h c unchecked .source _ none
  have onSource := settle_selects h passes.settled (Snapshot.mem_ownedBy.mpr ⟨f, inSource, rfl⟩)
  have onTarget := settle_selects between settled (Snapshot.mem_ownedBy.mpr ⟨g, inTarget, rfl⟩)
  have named : ∀ l, selects l g.name = selects l f.name := by
    intro l
    rw [Bool.eq_iff_iff, selects_iff, selects_iff, same]
  have onBoth : (s.ownedBy w.brief.object).hasField g.name = true := by
    rw [Snapshot.hasField_ownedBy, Snapshot.hasField_iff, ← same, ← Snapshot.hasField_iff]
    exact Snapshot.hasField_of_mem inSource
  simp only [named, brief, Option.all_some, onBoth, Brief.eligible_ownedBy, and_true] at onTarget
  simp only [Option.all_none, Brief.eligible_ownedBy, and_true] at onSource
  rw [state, onTarget]
  refine (or_congr_left onSource).trans ?_
  rw [or_assoc, ← and_or_left]

end Work

namespace Task
variable {calls more : List Call} {object : String} {c : Context} {s : Snapshot}

/-- The answers that the descriptions among the calls have about an object, each with its
    context. -/
inductive Answered (calls : List Call) (object : String) : Context → Snapshot → Prop where
  | describe {c : Context} {systems : Systems} {side : Side} {s : Snapshot}
      (called : .describe c systems ∈ calls) (asked : (c.medium side).isDescribable = true)
      (answer : (systems.on side).describe object = .ok s) :
      Answered calls object c s

theorem Answered.mono (h : Answered calls object c s) (sub : calls ⊆ more) :
    Answered more object c s := by
  cases h with
  | describe called asked answer => exact .describe (sub called) asked answer

theorem call_grown {t : Task} (setUp : t.stage ≠ .unconfigured) (called : Call) :
    Work.Grown (Answered [called] t.object) t.work (t.call called).work := by
  cases called with
  | setUp c =>
    rw [call, (setUp_of_work c setUp).1]
    exact .refl _ _
  | describe c systems =>
    cases stage : t.stage with
    | unconfigured => exact absurd stage setUp
    | configured w =>
      have known : t.work = w := congrArg Stage.work stage
      have grown : Work.Grown (Answered [.describe c systems] t.object) w
          (w.describe c systems t.request.isExtraObject).state := by
        apply Work.describe_grown
        intro side s asked answer
        rw [← known] at answer
        exact .describe (List.mem_singleton_self _) asked answer
      rw [known, call]
      cases result : (w.describe c systems t.request.isExtraObject).result with
      | error f =>
        rw [(describe_error stage result).1]
        exact grown
      | ok u =>
        rw [(describe_ok stage result).1]
        exact grown
    | described w =>
      rw [call, (describe_described c systems stage).1]
      exact .refl _ _

theorem run_grown {t : Task} (setUp : t.stage ≠ .unconfigured) (calls : List Call) :
    Work.Grown (Answered calls t.object) t.work (t.run calls).work := by
  induction calls generalizing t with
  | nil => exact .refl _ _
  | cons call calls ih =>
    have first := call_grown setUp call
    have object : (t.call call).object = t.object := congrArg Brief.object first.brief
    have rest := ih (call_ne_unconfigured setUp call)
    rw [object] at rest
    exact (first.mono fun c s answer => answer.mono (by simp)).trans (rest.mono fun c s answer =>
      answer.mono (by simp))

/-- Every entry that descriptions have added, those of interrupted attempts included, is a field
    that some answer allows as it describes it. A field that both sides have comes in exactly if one
    side or the other allows it; a denied parent stays out where every answer that has the field
    denies it. -/
theorem pulled_in_by_one_side (r : Request) (c₀ c : Context) (systems : Systems)
    (calls : List Call) (w : Work)
    (s t : Snapshot) (setUp : (Task.setUp c₀ { request := r }).state.stage = .configured w)
    (waiting : (run (Task.setUp c₀ { request := r }).state calls).progress = .configured)
    (sides : c.source.isDescribable = true ∧ c.target.isDescribable = true)
    (source : systems.source.describe w.brief.object = .ok s)
    (target : systems.target.describe w.brief.object = .ok t)
    (ok : ((run (Task.setUp c₀ { request := r }).state calls).describe c systems).isOk = true) :
    let before := (run (Task.setUp c₀ { request := r }).state calls).query.entries
    let after :=
      ((run (Task.setUp c₀ { request := r }).state calls).describe c systems).state.query.entries
    let answered := Answered (calls ++ [.describe c systems]) w.brief.object
    (∀ e ∈ after, selects w.query.entries e.key = false → w.brief.PullsIn answered e) ∧
    (∀ f ∈ s.fields, ∀ g ∈ t.fields, sameName f.name g.name = true →
      (selects after f.name = true ↔
        selects before f.name = true ∨
          w.brief.operation ≠ .delete ∧
            (w.brief.eligible c f = true ∨ w.brief.eligible c g = true))) ∧
    ((∀ c' u, answered c' u → ∀ f ∈ u.fields, ∀ g, g ∈ s.fields ∨ g ∈ t.fields →
      sameName f.name g.name = true →
        c.denies g = true → c'.denies f = true) →
      ∀ e ∈ after, selects w.query.entries e.key = false → ∀ g, g ∈ s.fields ∨ g ∈ t.fields →
        sameName e.key g.name = true → c.denies g = false) := by
  obtain ⟨state, made⟩ := configured_of_setUp setUp
  rw [state] at waiting ok ⊢
  intro before after answered
  have reached : (Stage.configured w) ≠ .unconfigured := by simp
  have added : ∀ e ∈ after, selects w.query.entries e.key = false → w.brief.PullsIn answered e := by
    intro e member fresh
    have grown :=
      run_grown (t := { request := r, stage := .configured w }) reached
        (calls ++ [.describe c systems])
    rw [run_append] at grown
    rcases grown.entries e member with old | pulled
    · rw [← Bool.not_eq_true, selects_iff] at fresh
      exact absurd (key_mem_names old) fresh
    · exact pulled
  refine ⟨added, ?_, ?_⟩
  · intro f inSource g inTarget same
    obtain ⟨v, stage⟩ := progress_configured.mp waiting
    have knows := run_keeps (t := { request := r, stage := .configured w }) (Work.wellFormed_kept r)
      ((Work.wellFormed_kept r).setUp c₀ w made) calls
    rw [stage] at knows
    have known : (run { request := r, stage := .configured w } calls).work = v :=
      congrArg Stage.work stage
    subst known
    have brief : (run { request := r, stage := .configured w } calls).work.brief = w.brief :=
      (run_framed (t := { request := r, stage := .configured w }) reached calls).brief
    rw [← brief] at source target ⊢
    obtain ⟨succeeded, described⟩ := describe_succeeded stage ok
    have selected :=
      Work.describe_selects knows.selection (Bool.and_eq_true_iff.mpr sides) succeeded source target
      inSource inTarget ((sameName_iff _ _).mp same)
    rwa [← described] at selected
  · intro agree e member fresh g described named
    obtain ⟨c', u, f, answer, inFields, eligible, rfl⟩ := added e member fresh
    rw [← Bool.not_eq_true]
    intro denied
    have refused := agree c' u answer f inFields g described named denied
    rw [Brief.not_denied eligible] at refused
    cases refused

def allLeads : Request := { query := "SELECT all FROM Lead" }

def ownerAmong (owners : List String) : Field :=
  { name := "OwnerId", type := .reference, referenceTo := owners }

def oldLeads : Snapshot where
  name := "Lead"
  label := "Lead"
  fields := [.ofType "Id" .id, ownerAmong ["Group", "User"]]
  nodup := by decide +kernel

def newLeads : Snapshot where
  name := "Lead"
  label := "Lead"
  fields := [.ofType "Id" .id, ownerAmong ["User", "Group"]]
  nodup := by decide +kernel

def leadsOfBoth : Systems :=
  { source := { name := "old", describe := fun _ => .ok oldLeads }
    target := { name := "new", describe := fun _ => .ok newLeads } }

def leadsTargetDown : Systems :=
  { source := leadsOfBoth.source
    target :=
      { name := "new", describe := fun _ => .error (.describe (.reported "session expired")) } }

def leadsWork : Work :=
  { brief := { object := "Lead", pattern := some { all := true } }
    query := { object := "Lead", entries := [.plain "Id"] }
    queryText := "SELECT Id FROM Lead" }

theorem leads_configured :
    (setUp betweenOrgs { request := allLeads }).state.stage = .configured leadsWork := by
  decide +kernel

theorem pulled_in_by_one_side_leads :
    (run (setUp betweenOrgs
      { request := allLeads }).state [.describe betweenOrgs leadsTargetDown]).progress =
        .configured ∧
      ((run (setUp betweenOrgs
        { request := allLeads }).state [.describe betweenOrgs leadsTargetDown]).describe
        betweenOrgs leadsOfBoth).isOk = true ∧
      selects ((run (setUp betweenOrgs { request := allLeads }).state
        [.describe betweenOrgs leadsTargetDown]).describe betweenOrgs
          leadsOfBoth).state.query.entries "OwnerId" = true := by
  have waiting : (run (setUp betweenOrgs { request := allLeads }).state
      [.describe betweenOrgs leadsTargetDown]).progress = .configured := by decide +kernel
  have ok :
      ((run (setUp betweenOrgs
        { request := allLeads }).state [.describe betweenOrgs leadsTargetDown]).describe
      betweenOrgs leadsOfBoth).isOk = true := by decide +kernel
  obtain ⟨_, selected, _⟩ := pulled_in_by_one_side allLeads betweenOrgs betweenOrgs leadsOfBoth
    [.describe betweenOrgs leadsTargetDown] leadsWork oldLeads newLeads leads_configured waiting
      ⟨rfl, rfl⟩ rfl rfl ok
  refine ⟨waiting, ok, ?_⟩
  have owner :=
    selected (ownerAmong ["Group", "User"]) (by simp [oldLeads]) (ownerAmong ["User", "Group"])
    (by simp [newLeads]) (by decide +kernel)
  exact owner.mpr (Or.inr ⟨by decide, Or.inr (by decide +kernel)⟩)

/-- The owner is pulled in, although the source has a denied parent for it. -/
theorem denied_parent_pulled_in :
    betweenOrgs.isTwoSided = true ∧
      (setUp betweenOrgs { request := allLeads }).state.stage = .configured leadsWork ∧
      ((setUp betweenOrgs { request := allLeads }).state.describe betweenOrgs leadsOfBoth).isOk =
        true ∧
      selects leadsWork.query.entries "OwnerId" = false ∧
      selects ((setUp betweenOrgs
        { request := allLeads }).state.describe betweenOrgs leadsOfBoth).state.query.entries
        "OwnerId" = true ∧
      leadsOfBoth.source.describe leadsWork.brief.object = .ok oldLeads ∧
      ∃ f ∈ oldLeads.fields, f.name = "OwnerId" ∧ betweenOrgs.denies f = true := by
  refine ⟨rfl, leads_configured, by decide +kernel, by decide +kernel, by decide +kernel, rfl, ?_⟩
  exact ⟨ownerAmong ["Group", "User"], List.mem_cons_of_mem _ List.mem_cons_self,
    rfl, by decide +kernel⟩

end Task

end MigrationPlan
