import Mathlib.Data.List.Induction
import MigrationPlan.Proofs.Task.Selection

/- The life of a task over all its calls. It is set up and described once each, in this order; a
   call that fails takes it no further. What the set-up fixes stays fixed: descriptions work on the
   select list and on nothing else of the query, wherever they end. -/
namespace MigrationPlan

namespace Work
variable {c : Context} {systems : Systems} {unchecked : Bool} {u v w : Work}

/-- What the later work has in common with the earlier: the brief, and the query up to its select
    list. -/
structure Framed (v w : Work) : Prop where
  brief : w.brief = v.brief
  query : w.query = { v.query with entries := w.query.entries }

theorem Framed.refl (w : Work) : Framed w w := ⟨rfl, rfl⟩

theorem Framed.trans (h : Framed u v) (h' : Framed v w) : Framed u w := by
  refine ⟨h'.brief.trans h.brief, ?_⟩
  rw [h'.query, h.query]

theorem settle_framed (w : Work) (side : Side) (s : Snapshot) (counterpart : Option Snapshot) :
    Framed w (w.settle c unchecked side s counterpart).state := by
  refine ⟨settle_brief w c unchecked side s counterpart, ?_⟩
  unfold settle
  dsimp only
  split <;> rfl

theorem describe_framed (w : Work) (c : Context) (systems : Systems) (unchecked : Bool) :
    Framed w (w.describe c systems unchecked).state :=
  describe_keeps (P := Framed w) (fun side s counterpart v h =>
    h.trans (settle_framed v side s counterpart))
    (fun _ _ h => h.trans ⟨rfl, rfl⟩) (Framed.refl w)

structure ReadAs (r : Request) (q : Query) (operation : Operation)
    (configuredId : ExternalId) (w : Work) :
    Prop where
  parsed : Query.parse r.query = .ok q
  meant : r.operation.operationFor q.object = .ok operation
  named : r.configuredId q.object operation = .ok configuredId
  brief : w.brief = r.brief (.ofQuery q) operation configuredId
  query : w.query = { q with entries := w.query.entries }

theorem setUp_readAs {r : Request} (made : r.setUp c = .ok w) :
    ∃ q operation configuredId, w.ReadAs r q operation configuredId := by
  obtain ⟨x, operation, configuredId, resolved, meant, named, rfl⟩ := Request.setUp_eq_ok.mp made
  obtain ⟨q, parsed, rfl⟩ := Resolution.ofText_eq_ok.mp resolved
  exact ⟨q, operation, configuredId, parsed, meant, named, rfl, rfl⟩

theorem ReadAs.framed {r : Request} {q : Query} {operation : Operation} {configuredId : ExternalId}
    (h : v.ReadAs r q operation configuredId) (framed : Framed v w) :
    w.ReadAs r q operation configuredId where
  parsed := h.parsed
  meant := h.meant
  named := h.named
  brief := framed.brief.trans h.brief
  query := by rw [framed.query, h.query]

end Work

inductive Progress.Next : Progress → Progress → Prop where
  | setUp : Next .unconfigured .configured
  | describe : Next .configured .described

namespace Task

theorem call_progress (t : Task) (call : Call) :
    (t.call call).progress = t.progress ∨ t.progress.Next (t.call call).progress := by
  obtain ⟨stage, eq, step⟩ := call_step t call
  rw [eq]
  cases step with
  | stay => exact Or.inl rfl
  | setUp c w from_ made =>
    right
    rw [progress, from_]
    exact .setUp
  | interrupted c systems w f from_ error =>
    left
    rw [progress, progress, from_]
    rfl
  | described c systems w from_ ok =>
    right
    rw [progress, from_]
    exact .describe

theorem setUp_progress (c : Context) {t : Task} (stage : t.stage = .unconfigured) :
    (t.setUp c).state.progress = if (t.setUp c).isOk then .configured else .unconfigured := by
  cases made : t.request.setUp c with
  | error f =>
    obtain ⟨state, result⟩ := setUp_error c stage made
    rw [state, Outcome.isOk_error result]
    exact progress_unconfigured.mpr stage
  | ok w =>
    obtain ⟨state, result⟩ := setUp_ok c stage made
    rw [state, Outcome.isOk_ok result]
    rfl

/-- A description ends the second stage, exactly where it succeeds; it never succeeds in the
    first. -/
theorem describe_progress (c : Context) (systems : Systems) (t : Task) :
    (t.describe c systems).state.progress = if (t.describe c systems).isOk then .described
      else t.progress := by
  cases stage : t.stage with
  | unconfigured =>
    have fails : (t.describe c systems).result = .error (.object t.displayName .notSetUp) := by
      simp [describe, stage]
    rw [describe_unconfigured c systems stage, Outcome.isOk_error fails]
    rfl
  | configured w =>
    cases result : (w.describe c systems t.request.isExtraObject).result with
    | error f =>
      obtain ⟨state, fails⟩ := describe_error stage result
      rw [state, Outcome.isOk_error fails]
      exact (congrArg Stage.progress stage).symm
    | ok u =>
      obtain ⟨state, ends⟩ := describe_ok stage result
      rw [state, Outcome.isOk_ok ends]
      rfl
  | described w =>
    obtain ⟨state, ends⟩ := describe_described c systems stage
    rw [state, Outcome.isOk_ok ends]
    exact progress_described.mpr ⟨w, stage⟩

theorem setUp_failed {c : Context} {t : Task} {f : Fault} (fails : (t.setUp c).result = .error f) :
    (t.setUp c).state = t := by
  cases stage : t.stage with
  | unconfigured =>
    cases made : t.request.setUp c with
    | error g => exact (setUp_error c stage made).1
    | ok w =>
      rw [(setUp_ok c stage made).2] at fails
      cases fails
  | configured w => exact (setUp_of_work c (by simp [stage])).1
  | described w => exact (setUp_of_work c (by simp [stage])).1

theorem run_described {t : Task} (described : t.progress = .described) (calls : List Call) :
    t.run calls = t := by
  obtain ⟨w, stage⟩ := progress_described.mp described
  induction calls with
  | nil => rfl
  | cons call calls ih =>
    have same : t.call call = t := by
      cases call with
      | setUp c => exact (setUp_of_work c (by simp [stage])).1
      | describe c systems => exact (describe_described c systems stage).1
    rw [run, List.foldl_cons, same]
    exact ih

theorem run_request (t : Task) (calls : List Call) : (t.run calls).request = t.request := by
  induction calls generalizing t with
  | nil => rfl
  | cons call calls ih => exact (ih (t.call call)).trans (call_request t call)

/-! Once a task is set up, calls keep its frame. -/

theorem call_framed {t : Task} (setUp : t.stage ≠ .unconfigured) (call : Call) :
    Work.Framed t.work (t.call call).work := by
  obtain ⟨stage, eq, step⟩ := call_step t call
  rw [eq]
  cases step with
  | stay => exact .refl _
  | setUp c w from_ made => exact absurd from_ setUp
  | interrupted c systems w f from_ error =>
    rw [work, from_]
    exact w.describe_framed c systems t.request.isExtraObject
  | described c systems w from_ ok =>
    rw [work, from_]
    exact w.describe_framed c systems t.request.isExtraObject

theorem run_framed {t : Task} (setUp : t.stage ≠ .unconfigured) (calls : List Call) :
    Work.Framed t.work (t.run calls).work := by
  induction calls generalizing t with
  | nil => exact .refl _
  | cons call calls ih =>
    exact (call_framed setUp call).trans (ih (call_ne_unconfigured setUp call))

/-- Among the calls is a set-up that succeeds. -/
def HasSetUp (t : Task) (calls : List Call) : Prop :=
  ∃ before c after, calls = before ++ .setUp c :: after ∧ ((t.run before).setUp c).isOk = true

theorem HasSetUp.append {t : Task} {calls : List Call} (h : t.HasSetUp calls) (later : List Call) :
    t.HasSetUp (calls ++ later) := by
  obtain ⟨before, c, after, rfl, ok⟩ := h
  exact ⟨before, c, after ++ later, by simp, ok⟩

theorem run_unconfigured (r : Request) (calls : List Call) :
    (run { request := r } calls).stage = .unconfigured ↔ ¬ HasSetUp { request := r } calls := by
  constructor
  · intro stage hasSetUp
    obtain ⟨before, c, after, rfl, ok⟩ := hasSetUp
    rw [run_append] at stage
    exact run_ne_unconfigured (t := ((run { request := r } before).setUp c).state)
      (setUp_succeeded ok) after stage
  · induction calls using List.reverseRecOn with
    | nil => exact fun _ => rfl
    | append_singleton calls call ih =>
      intro never
      have before := ih fun hasSetUp => never (hasSetUp.append [call])
      rw [run_append]
      cases call with
      | setUp c =>
        cases result : ((run { request := r } calls).setUp c).result with
        | error f =>
          have same := setUp_failed result
          exact (congrArg Task.stage same).trans before
        | ok u => exact absurd ⟨calls, c, [], rfl, Outcome.isOk_ok result⟩ never
      | describe c systems =>
        exact (congrArg Task.stage (describe_unconfigured c systems before)).trans before

theorem run_readAs {r : Request} {calls : List Call} (setUp : HasSetUp { request := r } calls) :
    ∃ q operation configuredId,
      (run { request := r } calls).work.ReadAs r q operation configuredId := by
  have kept : Kept r fun w => ∃ q operation configuredId, w.ReadAs r q operation configuredId :=
    { setUp := fun c w made => Work.setUp_readAs made
      describe := by
        intro c systems w known
        obtain ⟨q, operation, configuredId, h⟩ := known
        exact ⟨q, operation, configuredId, h.framed (w.describe_framed c systems r.isExtraObject)⟩ }
  have knows := run_keeps (t := { request := r }) kept trivial calls
  exact knows.work fun stage => (run_unconfigured r calls).mp stage setUp

/-- Tasks move forward, one stage at a time, by the calls that succeed; a failed set-up leaves no
    trace, a task that is not set up cannot be described, and one that is described stays as it is.
    From the first successful set-up on the brief is what the request says, and the query is the one
    that it has, up to the select list. -/
theorem lifecycle_frame (r : Request) (calls : List Call) :
    let t := run { request := r } calls
    (∀ call, (t.call call).request = r ∧
      ((t.call call).progress = t.progress ∨ t.progress.Next (t.call call).progress)) ∧
    (∀ c, t.progress = .unconfigured →
      (t.setUp c).state.progress = if (t.setUp c).isOk then .configured else .unconfigured) ∧
    (∀ c systems,
      (t.describe c systems).state.progress = if (t.describe c systems).isOk then .described
        else t.progress) ∧
    (∀ c f, (t.setUp c).result = .error f → (t.setUp c).state = t) ∧
    (¬ HasSetUp { request := r } calls → ∀ c systems, (t.describe c systems).state = t ∧
      (t.describe c systems).result = .error (.object t.displayName .notSetUp)) ∧
    (HasSetUp { request := r } calls → ∃ q operation configuredId, Query.parse r.query = .ok q ∧
      r.operation.operationFor q.object = .ok operation ∧
        r.configuredId q.object operation = .ok configuredId ∧
      ∀ later, (t.run later).brief = r.brief (.ofQuery q) operation configuredId ∧
        (t.run later).query = { q with entries := (t.run later).query.entries }) ∧
    (t.progress = .described → ∀ later, t.run later = t) := by
  intro t
  refine ⟨?_, ?_, ?_, ?_, ?_, ?_, ?_⟩
  · intro call
    exact ⟨(call_request t call).trans (run_request _ calls), call_progress t call⟩
  · intro c first
    exact setUp_progress c (progress_unconfigured.mp first)
  · intro c systems
    exact describe_progress c systems t
  · intro c f fails
    exact setUp_failed fails
  · intro never c systems
    have stage := (run_unconfigured r calls).mpr never
    exact ⟨describe_unconfigured c systems stage, by simp [describe, t, stage]⟩
  · intro hasSetUp
    obtain ⟨q, operation, configuredId, h⟩ := run_readAs hasSetUp
    refine ⟨q, operation, configuredId, h.parsed, h.meant, h.named, fun later => ?_⟩
    have stage : t.stage ≠ .unconfigured := fun none => (run_unconfigured r calls).mp none hasSetUp
    have after := h.framed (run_framed stage later)
    exact ⟨after.brief, after.query⟩
  · intro described later
    exact run_described described later

def livingContacts : Request :=
  { query := "SELECT all, LastName FROM Contact WHERE IsDeleted = false ORDER BY LastName LIMIT 10"
    operation := .ofOperation .upsert
    externalId := some "LastName; Birthdate"
    deleteOldData := true }

def evenContacts : Systems := { source := unevenContacts.source, target := unevenContacts.source }

def uphillCalls : List Call :=
  [.describe betweenOrgs evenContacts, .setUp betweenOrgs, .describe betweenOrgs unevenContacts]

theorem livingContacts_hasSetUp : HasSetUp { request := livingContacts } uphillCalls :=
  ⟨[.describe betweenOrgs evenContacts], betweenOrgs, [.describe betweenOrgs unevenContacts],
    rfl, by decide +kernel⟩

theorem lifecycle_frame_contacts :
    HasSetUp { request := livingContacts } uphillCalls ∧
      (let t :=
        run { request := livingContacts } (uphillCalls ++ [.describe betweenOrgs evenContacts])
       t.progress = .described ∧ t.brief.operation = .upsert ∧
         t.brief.externalId.text = "LastName;Birthdate" ∧
         t.query.filter = some "IsDeleted = false" ∧ t.query.ordering = some "LastName" ∧
           t.query.limit = some 10 ∧
         t.run [.describe betweenOrgs unevenContacts, .setUp betweenOrgs] = t) := by
  have parsed : Query.parse livingContacts.query = .ok
      { object := "Contact"
        entries := [.plain "all", .plain "LastName"]
        filter := some "IsDeleted = false"
        ordering := some "LastName"
        limit := some 10 } := by decide +kernel
  obtain ⟨_, _, _, _, _, frame, _⟩ := lifecycle_frame livingContacts uphillCalls
  obtain ⟨q, operation, configuredId, reads, meant, named, stays⟩ := frame livingContacts_hasSetUp
  rw [parsed] at reads
  cases reads
  have upserts : livingContacts.operation.operationFor "Contact" = .ok .upsert := by decide +kernel
  rw [upserts] at meant
  cases meant
  obtain ⟨brief, query⟩ := stays [.describe betweenOrgs evenContacts]
  rw [← run_append] at brief query
  have described : (run { request := livingContacts }
      (uphillCalls ++ [.describe betweenOrgs evenContacts])).progress = .described := by
        decide +kernel
  obtain ⟨_, _, _, _, _, _, final⟩ :=
    lifecycle_frame livingContacts (uphillCalls ++ [.describe betweenOrgs evenContacts])
  have id : configuredId.text = "LastName;Birthdate" := by
    have known :
        livingContacts.configuredId "Contact" .upsert = .ok { text := "LastName;Birthdate" } := by
      decide +kernel
    rw [known] at named
    cases named
    rfl
  refine ⟨livingContacts_hasSetUp, described, ?_, ?_, ?_, ?_, ?_, final described _⟩
  · rw [brief]
    rfl
  · rw [brief]
    exact id
  · rw [query]
  · rw [query]
  · rw [query]

end Task

end MigrationPlan
