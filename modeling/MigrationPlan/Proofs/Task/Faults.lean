import MigrationPlan.Proofs.Task.Attempts
import MigrationPlan.Proofs.Task.Setup

/- The faults of a task. What the task finds by itself is a fault of its configuration. Each side
   that is asked reports so before it is; when it answers with a fault, this ends the description,
   and what is no fault of the configuration becomes the side's. -/
namespace MigrationPlan

namespace Fault

theorem exitCode_configuration {f : Fault} (configuration : f.isConfiguration = true) :
    f.exitCode = 1 := by
  cases f with
  | object _ _ | query _ | job _ => rfl
  | metadata _ _ _ | describe _ | file _ | yaml | json => cases configuration

def Classed (object : String) (f : Fault) : Prop :=
  (f.isConfiguration = true ∧ f.exitCode = 1) ∨ ∃ side text, f = .metadata object side text ∧
    f.exitCode = 3

theorem Classed.of_object {object name : String} {x : ObjectFault} {f : Fault}
    (h : f = .object name x) :
    f.Classed object := by
  rw [h]
  exact Or.inl ⟨rfl, rfl⟩

def attributed (e : Fault) (object : String) (side : Side) : Fault :=
  if e.isConfiguration then e else .metadata object side e.message

theorem attributed_classed (e : Fault) (object : String) (side : Side) :
    (e.attributed object side).Classed object := by
  unfold attributed
  split
  · next configuration => exact Or.inl ⟨configuration, exitCode_configuration configuration⟩
  · exact Or.inr ⟨side, e.message, rfl, rfl⟩

end Fault

/-! What a task finds by itself. -/

def FailsByObject {α : Type} (x : Except Fault α) : Prop :=
  ∀ f, x = .error f → ∃ name fault, f = .object name fault

theorem FailsByObject.bind {α β : Type} {x : Except Fault α} {next : α → Except Fault β}
    (first : FailsByObject x)
    (later : ∀ a, FailsByObject (next a)) : FailsByObject (x.bind next) := by
  intro f error
  cases x with
  | error g => exact first f (congrArg Except.error (Except.error.inj error))
  | ok a => exact later a f error

theorem FailsByObject.of_ok {α : Type} (a : α) : FailsByObject (.ok a) := nofun

theorem Resolution.ofText_fails (s : String) : FailsByObject (ofText s) := by
  intro f error
  unfold ofText at error
  split at error
  · exact ⟨_, _, (Except.error.inj error).symm⟩
  · cases error

theorem OperationSetting.operationFor_fails (s : OperationSetting) (object : String) :
    FailsByObject (s.operationFor object) := by
  intro f error
  unfold operationFor at error
  split at error
  · cases error
  · exact ⟨_, _, (Except.error.inj error).symm⟩

namespace Request

theorem configuredId_fails (r : Request) (object : String) (operation : Operation) :
    FailsByObject (r.configuredId object operation) := by
  intro f error
  unfold configuredId at error
  dsimp only at error
  split at error
  · exact ⟨_, _, (Except.error.inj error).symm⟩
  · cases error

theorem setUp_fails (r : Request) (c : Context) : FailsByObject (r.setUp c) := by
  rw [setUp_bind]
  refine (Resolution.ofText_fails r.query).bind fun x => ?_
  refine (r.operation.operationFor_fails x.query.object).bind fun operation => ?_
  exact (r.configuredId_fails x.query.object operation).bind fun configuredId => .of_ok _

end Request

theorem validateSelection_fails (l : List Entry) (s : Snapshot) (scope : ValidationScope) :
    FailsByObject (validateSelection l s scope) := by
  intro f error
  unfold validateSelection at error
  split at error
  · exact ⟨_, _, (Except.error.inj error).symm⟩
  · split at error
    · cases error
    · dsimp only at error
      split at error
      · exact ⟨_, _, (Except.error.inj error).symm⟩
      · cases error

namespace Work
variable {c : Context} {systems : Systems} {unchecked : Bool} {w : Work}

theorem fetch_unanswered {side : Side} {e : Fault}
    (answer : (systems.on side).describe w.brief.object = .error e) :
    w.fetch systems side = .error (e.attributed w.brief.object side) := by
  unfold fetch Fault.attributed
  rw [answer]

theorem fetch_error {side : Side} {f : Fault} (error : w.fetch systems side = .error f) :
    ∃ e, (systems.on side).describe w.brief.object = .error e ∧
      f = e.attributed w.brief.object side := by
  cases answer : (systems.on side).describe w.brief.object with
  | error e =>
    rw [fetch_unanswered answer] at error
    exact ⟨e, rfl, (Except.error.inj error).symm⟩
  | ok s =>
    rw [fetch_eq_ok.mpr ⟨s, answer, rfl⟩] at error
    cases error

theorem take_classed {side : Side} {counterpart : Option Snapshot} {f : Fault}
    (error : (w.take c systems unchecked side counterpart).result = .error f) :
    f.Classed w.brief.object := by
  cases fetched : w.fetch systems side with
  | error g =>
    obtain ⟨e, _, rfl⟩ := fetch_error fetched
    rw [(take_unread c systems unchecked side counterpart fetched).2] at error
    cases error
    exact e.attributed_classed w.brief.object side
  | ok s =>
    rw [(take_read c systems unchecked side counterpart fetched).2] at error
    cases valid : validateSelection (w.brief.expanded c w.query.entries s counterpart) s
        { object := w.brief.object, side, critical := w.brief.critical, unchecked } with
    | error g =>
      rw [(settle_invalid c unchecked side counterpart valid).1] at error
      cases error
      obtain ⟨name, x, found⟩ := validateSelection_fails _ _ _ f valid
      exact .of_object found
    | ok p =>
      rw [(settle_valid c unchecked side counterpart valid).1] at error
      cases error

theorem describe_classed {f : Fault} (error : (w.describe c systems unchecked).result = .error f) :
    f.Classed w.brief.object := by
  cases asks : c.source.isDescribable || c.target.isDescribable with
  | false =>
    obtain ⟨source, target⟩ := Bool.or_eq_false_iff.mp asks
    simp only [describe, source, target] at error
    exact .of_object (Except.error.inj error).symm
  | true =>
    obtain ⟨v, side, counterpart, schemas, brief, _, same⟩ := describe_last (w := w) asks
    rw [same.result] at error
    exact brief ▸ take_classed (keep_error error).1

end Work

/-! Which sides are asked. -/

def Notice.asked? : Notice → Option Side
  | describing _ side _ => some side
  | _ => none

def Outcome.asked {σ α : Type} (o : Outcome σ α) : List Side := o.notices.filterMap Notice.asked?

theorem Outcome.asked_andThen {σ α β : Type} (o : Outcome σ α) (next : σ → α → Outcome σ β) :
    (o.andThen next).asked =
      o.asked ++ match o.result with
        | .error _ => []
        | .ok a => (next o.state a).asked := by
  unfold asked andThen
  cases o.result with
  | error f => exact (List.append_nil _).symm
  | ok a => exact List.filterMap_append

namespace Work
variable {c : Context} {systems : Systems} {unchecked : Bool} {w : Work}

theorem settle_asked (side : Side) (s : Snapshot) (counterpart : Option Snapshot) :
    (w.settle c unchecked side s counterpart).asked = [] := by
  have expansion :
      ∀ l, (w.brief.expansionNotices c l s counterpart).filterMap Notice.asked? = [] := by
    intro l
    unfold Brief.expansionNotices
    split <;> rfl
  have dropped : ∀ l : List Warning, (l.map .dropped).filterMap Notice.asked? = [] := by
    intro l
    rw [List.filterMap_map, List.filterMap_eq_nil_iff]
    exact fun _ _ => rfl
  unfold settle Outcome.asked
  dsimp only
  split
  · exact expansion _
  · rw [List.filterMap_append, expansion, dropped]
    rfl

theorem take_asked (side : Side) (counterpart : Option Snapshot) :
    (w.take c systems unchecked side counterpart).asked = [side] := by
  unfold take
  dsimp only
  split
  · rfl
  · next s _ =>
    have none : (w.settle c unchecked side s counterpart).asked = [] :=
      settle_asked side s counterpart
    unfold Outcome.asked at none ⊢
    rw [List.filterMap_append, none]
    rfl

theorem takes_source :
    (w.take c systems unchecked .source none).isOk = true ↔
      ∃ s, w.PassesSource c systems unchecked s := by
  constructor
  · intro ok
    cases taken : (w.take c systems unchecked .source none).result with
    | error f =>
      rw [Outcome.isOk_error taken] at ok
      cases ok
    | ok s =>
      obtain ⟨read, settled, _⟩ := take_eq_ok taken
      exact ⟨s, read, settled⟩
  · rintro ⟨s, passes⟩
    have result := (take_read c systems unchecked .source none passes.read).2
    rw [passes.settled] at result
    exact Outcome.isOk_ok result

/-- The source is asked first, and the target where the source has not failed. -/
theorem describe_asked :
    (w.describe c systems unchecked).asked =
      (if c.source.isDescribable then [.source] else []) ++
        if c.target.isDescribable &&
          (!c.source.isDescribable || (w.take c systems unchecked .source none).isOk) then
          [.target]
        else [] := by
  have kept : ∀ {v : Work} {side counterpart} {schemas : Snapshot → Schemas},
      ((v.take c systems unchecked side counterpart).andThen fun u s => u.keep (schemas s)).asked =
        [side] := by
    intro v side counterpart schemas
    rw [Outcome.asked_andThen, take_asked]
    split <;> rfl
  unfold describe
  cases source : c.source.isDescribable <;> cases target : c.target.isDescribable
  · rfl
  · exact kept
  · exact kept
  · rw [Outcome.asked_andThen, take_asked]
    cases taken : (w.take c systems unchecked .source none).result with
    | error f =>
      rw [Outcome.isOk_error taken]
      rfl
    | ok s =>
      rw [Outcome.isOk_ok taken]
      exact congrArg _ kept

theorem source_asked :
    .source ∈ (w.describe c systems unchecked).asked ↔ c.source.isDescribable = true := by
  rw [describe_asked]
  cases c.source.isDescribable <;> cases c.target.isDescribable <;>
    cases (w.take c systems unchecked .source none).isOk <;> simp

theorem target_asked :
    .target ∈ (w.describe c systems unchecked).asked ↔
      c.target.isDescribable = true ∧
        (c.source.isDescribable = true → ∃ s, w.PassesSource c systems unchecked s) := by
  rw [describe_asked, ← takes_source]
  cases c.source.isDescribable <;> cases c.target.isDescribable <;>
    cases (w.take c systems unchecked .source none).isOk <;> simp

theorem describe_unanswered {side : Side}
    (asked : side ∈ (w.describe c systems unchecked).asked) {e : Fault}
    (answer : (systems.on side).describe w.brief.object = .error e) :
    (w.describe c systems unchecked).result = .error (e.attributed w.brief.object side) := by
  have unread := fetch_unanswered answer
  cases side with
  | source =>
    have source := source_asked.mp asked
    unfold describe
    cases target : c.target.isDescribable <;> simp only [source]
    · exact (take_unread_andThen c systems unchecked .source none unread _).2
    · exact (take_unread_andThen c systems unchecked .source none unread _).2
  | target =>
    obtain ⟨target, passes⟩ := target_asked.mp asked
    cases source : c.source.isDescribable with
    | false =>
      simp only [describe, source, target]
      exact (take_unread_andThen c systems unchecked .target _ unread _).2
    | true =>
      obtain ⟨s, passes⟩ := passes source
      have both : c.isTwoSided = true := by rw [Context.isTwoSided, source, target]; rfl
      have brief : (w.betweenSides c unchecked s).brief = w.brief :=
        settle_brief w c unchecked .source s none
      rw [(describe_past both passes).result, finish]
      exact (take_unread_andThen c systems unchecked .target
        _ ((fetch_congr brief).trans unread) _).2

theorem take_congr {systems' : Systems} {side : Side}
    (same : systems'.on side = systems.on side) (v : Work) (counterpart : Option Snapshot) :
    v.take c systems' unchecked side counterpart = v.take c systems unchecked side counterpart := by
  unfold take fetch
  rw [same]

theorem describe_congr {systems' : Systems}
    (same : ∀ side ∈ (w.describe c systems unchecked).asked, systems'.on side = systems.on side) :
    w.describe c systems' unchecked = w.describe c systems unchecked := by
  have source : c.source.isDescribable = true → systems'.on .source = systems.on .source :=
    fun describable =>
    same .source (source_asked.mpr describable)
  have target : c.target.isDescribable = true →
      (c.source.isDescribable = true → ∃ s, w.PassesSource c systems unchecked s) →
        systems'.on .target = systems.on .target := fun describable passes =>
    same .target (target_asked.mpr ⟨describable, passes⟩)
  unfold describe
  cases isSource : c.source.isDescribable <;> cases isTarget : c.target.isDescribable
  · rfl
  · exact congrArg (Outcome.andThen · _) (take_congr (target isTarget (by simp [isSource])) w _)
  · exact congrArg (Outcome.andThen · _) (take_congr (source isSource) w _)
  · dsimp only
    rw [take_congr (source isSource)]
    cases taken : (w.take c systems unchecked .source none).result with
    | error f => simp [Outcome.andThen, taken]
    | ok s =>
      have passes := takes_source.mp (Outcome.isOk_ok taken)
      simp only [take_congr (target isTarget fun _ => passes)]

end Work

namespace Task
variable {c : Context} {systems : Systems} {t : Task}

theorem setUp_fails (c : Context) (t : Task) : FailsByObject (t.setUp c).result := by
  intro f error
  cases stage : t.stage with
  | unconfigured =>
    cases made : t.request.setUp c with
    | error g =>
      rw [(setUp_error c stage made).2] at error
      cases error
      exact t.request.setUp_fails c f made
    | ok w =>
      rw [(setUp_ok c stage made).2] at error
      cases error
  | configured w | described w =>
    rw [(setUp_of_work c (by simp [stage])).2] at error
    cases error

section Configured
variable {w : Work} (stage : t.stage = .configured w)
include stage

theorem configured_work : t.work = w := by rw [work, stage]; rfl

theorem describe_asked :
    (t.describe c systems).asked = (w.describe c systems t.request.isExtraObject).asked := by
  unfold describe
  simp only [stage]
  split
  · rfl
  · unfold Outcome.asked
    rw [List.filterMap_append]
    exact List.append_nil _

theorem describe_congr {systems' : Systems}
    (same : ∀ side ∈ (t.describe c systems).asked, systems'.on side = systems.on side) :
    t.describe c systems' = t.describe c systems := by
  rw [describe_asked stage] at same
  unfold describe
  simp only [stage, Work.describe_congr same]

theorem describe_unanswered {side : Side} (asked : side ∈ (t.describe c systems).asked) {e : Fault}
    (answer : (systems.on side).describe t.object = .error e) :
    (t.describe c systems).result = .error (e.attributed t.object side) := by
  have object : t.object = w.brief.object := by rw [Task.object, brief, configured_work stage]
  rw [describe_asked stage] at asked
  rw [object] at answer ⊢
  exact (describe_error stage (Work.describe_unanswered asked answer)).2

theorem describe_classed {f : Fault} (error : (t.describe c systems).result = .error f) :
    f.Classed t.object := by
  have object : t.object = w.brief.object := by rw [Task.object, brief, configured_work stage]
  rw [object]
  cases result : (w.describe c systems t.request.isExtraObject).result with
  | error g =>
    rw [(describe_error stage result).2] at error
    cases error
    exact Work.describe_classed result
  | ok u =>
    rw [(describe_ok stage result).2] at error
    cases error

end Configured

end Task

end MigrationPlan
