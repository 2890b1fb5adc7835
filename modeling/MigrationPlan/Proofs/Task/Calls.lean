import MigrationPlan.Task.Description
import MigrationPlan.Task.Setup

/- Sequences of calls on one task. Each call may come with a context and systems of its own, and a
   call that fails is followed by others all the same. What a set-up and a description can do to a
   task is said here once. -/
namespace MigrationPlan

namespace Outcome
variable {σ τ α β : Type}

theorem isOk_ok {o : Outcome σ α} {a : α} (ok : o.result = .ok a) : o.isOk = true := by
  rw [isOk, ok]
  rfl

theorem isOk_error {o : Outcome σ α} {f : Fault} (error : o.result = .error f) :
    o.isOk = false := by
  rw [isOk, error]
  rfl

theorem result_of_isOk {o : Outcome σ Unit} (ok : o.isOk = true) : o.result = .ok () := by
  cases result : o.result with
  | error f =>
    rw [isOk_error result] at ok
    cases ok
  | ok u => rfl

theorem andThen_ok {o : Outcome σ α} {a : α} (ok : o.result = .ok a) (next : σ → α → Outcome σ β) :
    (o.andThen next).state = (next o.state a).state ∧
      (o.andThen next).result = (next o.state a).result := by
  simp [andThen, ok]

theorem andThen_error {o : Outcome σ α} {f : Fault} (error : o.result = .error f)
    (next : σ → α → Outcome σ β) :
    (o.andThen next).state = o.state ∧ (o.andThen next).result = .error f := by
  simp [andThen, error]

theorem andThen_eq_ok {o : Outcome σ α} {next : σ → α → Outcome σ β} {b : β}
    (ok : (o.andThen next).result = .ok b) :
    ∃ a, o.result = .ok a ∧ (next o.state a).result = .ok b ∧
      (o.andThen next).state = (next o.state a).state := by
  cases result : o.result with
  | error f =>
    rw [(andThen_error result next).2] at ok
    cases ok
  | ok a =>
    obtain ⟨state, ends⟩ := andThen_ok result next
    exact ⟨a, rfl, ends.symm.trans ok, state⟩

theorem andThen_keeps {P : σ → Prop} {o : Outcome σ α} {next : σ → α → Outcome σ β}
    (first : P o.state)
    (later : ∀ a, o.result = .ok a → P (next o.state a).state) : P (o.andThen next).state := by
  cases result : o.result with
  | error f => exact (andThen_error result next).1 ▸ first
  | ok a => exact (andThen_ok result next).1 ▸ later a result

end Outcome

namespace Work
variable {c : Context} {systems : Systems} {unchecked : Bool}

theorem take_keeps_read {P : Work → Prop} {side : Side} {counterpart : Option Snapshot} {w : Work}
    (settled : ∀ s, w.fetch systems side = .ok s →
      P (w.settle c unchecked side s counterpart).state) (h : P w) :
    P (w.take c systems unchecked side counterpart).state := by
  unfold take
  cases read : w.fetch systems side with
  | error f => exact h
  | ok s => exact settled s read

theorem take_keeps {P : Work → Prop} {side : Side} {counterpart : Option Snapshot} {w : Work}
    (settled : ∀ s, P (w.settle c unchecked side s counterpart).state) (h : P w) :
    P (w.take c systems unchecked side counterpart).state :=
  take_keeps_read (fun s _ => settled s) h

/-- What settling by the snapshots that are read and storing snapshots keep, a description keeps,
    wherever it ends. -/
theorem describe_keeps_read {P : Work → Prop}
    (settle : ∀ side s counterpart w, (c.medium side).isDescribable = true →
      w.fetch systems side = .ok s → P w →
      P (w.settle c unchecked side s counterpart).state)
    (store : ∀ schemas w, P w → P { w with schemas }) {w : Work} (h : P w) :
    P (w.describe c systems unchecked).state := by
  have take : ∀ side counterpart v, (c.medium side).isDescribable = true → P v →
      P (v.take c systems unchecked side counterpart).state :=
    fun side counterpart v asked hv =>
      take_keeps_read (fun s read => settle side s counterpart v asked read hv) hv
  unfold describe
  cases source : c.source.isDescribable <;> cases target : c.target.isDescribable
  · exact h
  · have first := take .target w.schemas.source? w target h
    exact Outcome.andThen_keeps first fun s _ => store _ _ first
  · have first := take .source none w source h
    exact Outcome.andThen_keeps first fun s _ => store _ _ first
  · have first := take .source none w source h
    apply Outcome.andThen_keeps first
    intro s _
    have second := take .target (some s) _ target (store (.sourceOnly s) _ first)
    exact Outcome.andThen_keeps second fun t _ => store _ _ second

theorem describe_keeps {P : Work → Prop}
    (settle : ∀ side s counterpart w, P w → P (w.settle c unchecked side s counterpart).state)
    (store : ∀ schemas w, P w → P { w with schemas }) {w : Work} (h : P w) :
    P (w.describe c systems unchecked).state :=
  describe_keeps_read (fun side s counterpart v _ _ => settle side s counterpart v) store h

/-! The brief is fixed by the set-up. -/

theorem settle_brief (w : Work) (c : Context) (unchecked : Bool) (side : Side) (s : Snapshot)
    (counterpart : Option Snapshot) :
    (w.settle c unchecked side s counterpart).state.brief = w.brief := by
  unfold settle
  dsimp only
  split <;> rfl

theorem take_brief (w : Work) (c : Context) (systems : Systems) (unchecked : Bool) (side : Side)
    (counterpart : Option Snapshot) :
    (w.take c systems unchecked side counterpart).state.brief = w.brief :=
  take_keeps (P := fun v => v.brief = w.brief)
    (fun s => settle_brief w c unchecked side s counterpart) rfl

theorem describe_brief (w : Work) (c : Context) (systems : Systems) (unchecked : Bool) :
    (w.describe c systems unchecked).state.brief = w.brief :=
  describe_keeps (P := fun v => v.brief = w.brief)
    (fun side s counterpart v same => (settle_brief v c unchecked side s counterpart).trans same)
    (fun _ _ same => same) rfl

end Work

namespace Task

inductive Call where
  | setUp (context : Context)
  | describe (context : Context) (systems : Systems)

def call (t : Task) : Call → Task
  | .setUp c => (t.setUp c).state
  | .describe c systems => (t.describe c systems).state

def run (t : Task) (calls : List Call) : Task := calls.foldl call t

theorem run_append (t : Task) (first later : List Call) :
    t.run (first ++ later) = (t.run first).run later :=
  List.foldl_append

theorem progress_unconfigured {t : Task} :
    t.progress = .unconfigured ↔ t.stage = .unconfigured := by
  unfold progress
  cases t.stage <;> simp [Stage.progress]

theorem progress_configured {t : Task} :
    t.progress = .configured ↔ ∃ w, t.stage = .configured w := by
  unfold progress
  cases t.stage <;> simp [Stage.progress]

theorem progress_described {t : Task} : t.progress = .described ↔ ∃ w, t.stage = .described w := by
  unfold progress
  cases t.stage <;> simp [Stage.progress]

theorem setUp_of_work (c : Context) {t : Task} (h : t.stage ≠ .unconfigured) :
    (t.setUp c).state = t ∧ (t.setUp c).result = .ok () := by
  unfold setUp
  cases stage : t.stage with
  | unconfigured => exact absurd stage h
  | configured w => exact ⟨rfl, rfl⟩
  | described w => exact ⟨rfl, rfl⟩

theorem setUp_ok (c : Context) {t : Task} {w : Work} (h : t.stage = .unconfigured)
    (ok : t.request.setUp c = .ok w) :
    (t.setUp c).state = { t with stage := .configured w } ∧ (t.setUp c).result = .ok () := by
  simp [setUp, h, ok]

theorem setUp_error (c : Context) {t : Task} {f : Fault} (h : t.stage = .unconfigured)
    (error : t.request.setUp c = .error f) :
    (t.setUp c).state = t ∧ (t.setUp c).result = .error f := by
  simp [setUp, h, error]

theorem describe_unconfigured (c : Context) (systems : Systems) {t : Task}
    (h : t.stage = .unconfigured) :
    (t.describe c systems).state = t := by
  simp [describe, h]

theorem describe_described (c : Context) (systems : Systems) {t : Task} {w : Work}
    (h : t.stage = .described w) :
    (t.describe c systems).state = t ∧ (t.describe c systems).result = .ok () := by
  simp [describe, h]

theorem describe_ok {c : Context} {systems : Systems} {t : Task} {w : Work}
    (h : t.stage = .configured w)
    (ok : (w.describe c systems t.request.isExtraObject).result = .ok ()) :
    (t.describe c systems).state =
        { t with stage := .described (w.describe c systems t.request.isExtraObject).state } ∧
      (t.describe c systems).result = .ok () := by
  simp [describe, h, ok]

theorem describe_error {c : Context} {systems : Systems} {t : Task} {w : Work} {f : Fault}
    (h : t.stage = .configured w)
    (error : (w.describe c systems t.request.isExtraObject).result = .error f) :
    (t.describe c systems).state =
        { t with stage := .configured (w.describe c systems t.request.isExtraObject).state } ∧
      (t.describe c systems).result = .error f := by
  simp [describe, h, error]

theorem describe_succeeded {c : Context} {systems : Systems} {t : Task} {w : Work}
    (h : t.stage = .configured w) (ok : (t.describe c systems).isOk = true) :
    (w.describe c systems t.request.isExtraObject).result = .ok () ∧
      (t.describe c systems).state.work = (w.describe c systems t.request.isExtraObject).state := by
  cases result : (w.describe c systems t.request.isExtraObject).result with
  | error f =>
    rw [Outcome.isOk_error (describe_error h result).2] at ok
    cases ok
  | ok u => exact ⟨rfl, congrArg Task.work (describe_ok h result).1⟩

inductive Step (t : Task) : Stage → Prop where
  | stay : Step t t.stage
  | setUp (c : Context) (w : Work) (from_ : t.stage = .unconfigured)
      (made : t.request.setUp c = .ok w) :
      Step t (.configured w)
  | interrupted (c : Context) (systems : Systems) (w : Work) (f : Fault)
      (from_ : t.stage = .configured w)
      (error : (w.describe c systems t.request.isExtraObject).result = .error f) :
      Step t (.configured (w.describe c systems t.request.isExtraObject).state)
  | described (c : Context) (systems : Systems) (w : Work) (from_ : t.stage = .configured w)
      (ok : (w.describe c systems t.request.isExtraObject).result = .ok ()) :
      Step t (.described (w.describe c systems t.request.isExtraObject).state)

theorem call_step (t : Task) (call : Call) :
    ∃ stage, t.call call = { t with stage } ∧ Step t stage := by
  cases call with
  | setUp c =>
    cases stage : t.stage with
    | unconfigured =>
      cases made : t.request.setUp c with
      | error f => exact ⟨t.stage, (setUp_error c stage made).1, .stay⟩
      | ok w => exact ⟨_, (setUp_ok c stage made).1, .setUp c w stage made⟩
    | configured w => exact ⟨t.stage, (setUp_of_work c (by simp [stage])).1, .stay⟩
    | described w => exact ⟨t.stage, (setUp_of_work c (by simp [stage])).1, .stay⟩
  | describe c systems =>
    cases stage : t.stage with
    | unconfigured => exact ⟨t.stage, describe_unconfigured c systems stage, .stay⟩
    | configured w =>
      cases result : (w.describe c systems t.request.isExtraObject).result with
      | error f =>
        exact ⟨_, (describe_error stage result).1, .interrupted c systems w f stage result⟩
      | ok u => exact ⟨_, (describe_ok stage result).1, .described c systems w stage result⟩
    | described w => exact ⟨t.stage, (describe_described c systems stage).1, .stay⟩

theorem call_request (t : Task) (call : Call) : (t.call call).request = t.request := by
  obtain ⟨stage, eq, _⟩ := call_step t call
  rw [eq]

/-- A property of what is known of a task that setting up establishes and describing keeps. -/
structure Kept (r : Request) (P : Work → Prop) : Prop where
  setUp : ∀ c w, r.setUp c = .ok w → P w
  describe : ∀ c systems w, P w → P (w.describe c systems r.isExtraObject).state

def Knows (P : Work → Prop) : Stage → Prop
  | .unconfigured => True
  | .configured w | .described w => P w

theorem Knows.work {P : Work → Prop} {t : Task} (knows : Knows P t.stage)
    (setUp : t.stage ≠ .unconfigured) :
    P t.work := by
  unfold Task.work
  cases stage : t.stage with
  | unconfigured => exact absurd stage setUp
  | configured w => rwa [stage] at knows
  | described w => rwa [stage] at knows

theorem call_keeps {P : Work → Prop} {t : Task} (kept : Kept t.request P)
    (h : Knows P t.stage) (call : Call) :
    Knows P (t.call call).stage := by
  obtain ⟨stage, eq, step⟩ := call_step t call
  rw [eq]
  cases step with
  | stay => exact h
  | setUp c w from_ made => exact kept.setUp c w made
  | interrupted c systems w f from_ error => exact kept.describe c systems w (by rwa [from_] at h)
  | described c systems w from_ ok => exact kept.describe c systems w (by rwa [from_] at h)

theorem run_keeps {P : Work → Prop} {t : Task} (kept : Kept t.request P) (h : Knows P t.stage)
    (calls : List Call) : Knows P (t.run calls).stage := by
  induction calls generalizing t with
  | nil => exact h
  | cons call calls ih => exact ih (call_request t call ▸ kept) (call_keeps kept h call)

theorem call_ne_unconfigured {t : Task} (h : t.stage ≠ .unconfigured) (call : Call) :
    (t.call call).stage ≠ .unconfigured := by
  obtain ⟨stage, eq, step⟩ := call_step t call
  rw [eq]
  cases step with
  | stay => exact h
  | setUp c w from_ made => simp
  | interrupted c systems w f from_ error => simp
  | described c systems w from_ ok => simp

theorem run_ne_unconfigured {t : Task} (h : t.stage ≠ .unconfigured) (calls : List Call) :
    (t.run calls).stage ≠ .unconfigured := by
  induction calls generalizing t with
  | nil => exact h
  | cons call calls ih => exact ih (call_ne_unconfigured h call)

theorem setUp_succeeded {c : Context} {t : Task} (ok : (t.setUp c).isOk = true) :
    (t.setUp c).state.stage ≠ .unconfigured := by
  cases stage : t.stage with
  | unconfigured =>
    cases made : t.request.setUp c with
    | error f =>
      rw [Outcome.isOk_error (setUp_error c stage made).2] at ok
      cases ok
    | ok w => simp [(setUp_ok c stage made).1]
  | configured w => simp [(setUp_of_work c (t := t) (by simp [stage])).1, stage]
  | described w => simp [(setUp_of_work c (t := t) (by simp [stage])).1, stage]

end Task

end MigrationPlan
