import MigrationPlan.Proofs.Task.Calls

/- One attempt at a description, by the sides that it has to describe. Where it can stop, and what
   it leaves there, is said once here. -/
namespace MigrationPlan

def Context.isTwoSided (c : Context) : Bool := c.source.isDescribable && c.target.isDescribable

theorem Context.sides_of_isTwoSided {c : Context} (both : c.isTwoSided = true) :
    c.source.isDescribable = true ∧ c.target.isDescribable = true := by
  unfold isTwoSided at both
  exact Bool.and_eq_true_iff.mp both

namespace Outcome
variable {σ α β : Type}

structure Same (o p : Outcome σ α) : Prop where
  state : o.state = p.state
  result : o.result = p.result

namespace Same
variable {o p q : Outcome σ α}

theorem symm (h : Same o p) : Same p o := ⟨h.state.symm, h.result.symm⟩

theorem trans (h : Same o p) (h' : Same p q) : Same o q :=
  ⟨h.state.trans h'.state, h.result.trans h'.result⟩

theorem andThen {next next' : σ → α → Outcome σ β} (first : Same o p)
    (later : ∀ a, o.result = .ok a → Same (next o.state a) (next' o.state a)) :
    Same (o.andThen next) (p.andThen next') := by
  cases result : o.result with
  | error f =>
    obtain ⟨state, fails⟩ := andThen_error result next
    obtain ⟨state', fails'⟩ := andThen_error (first.result ▸ result) next'
    exact ⟨state.trans (first.state.trans state'.symm), fails.trans fails'.symm⟩
  | ok a =>
    obtain ⟨state, ends⟩ := andThen_ok result next
    obtain ⟨state', ends'⟩ := andThen_ok (first.result ▸ result) next'
    rw [← first.state] at state' ends'
    exact ⟨state.trans ((later a result).state.trans state'.symm),
      ends.trans ((later a result).result.trans ends'.symm)⟩

end Same

theorem andThen_same {o : Outcome σ α} {a : α} (ok : o.result = .ok a)
    (next : σ → α → Outcome σ β) :
    Same (o.andThen next) (next o.state a) := ⟨(andThen_ok ok next).1, (andThen_ok ok next).2⟩

end Outcome

namespace Work
variable {w : Work}

theorem fetch_eq_ok {systems : Systems} {side : Side} {s : Snapshot} :
    w.fetch systems side = .ok s ↔
      ∃ t, (systems.on side).describe w.brief.object = .ok t ∧ t.ownedBy w.brief.object = s := by
  unfold fetch
  cases (systems.on side).describe w.brief.object with
  | error f => simp
  | ok t => simp

theorem fetch_congr {systems : Systems} {side : Side} {v : Work} (brief : v.brief = w.brief) :
    v.fetch systems side = w.fetch systems side := by
  unfold fetch
  rw [brief]

section Take
variable (c : Context) (systems : Systems) (unchecked : Bool) (side : Side)
  (counterpart : Option Snapshot)

theorem settle_schemas (w : Work) (s : Snapshot) :
    (w.settle c unchecked side s counterpart).state.schemas = w.schemas := by
  unfold settle
  dsimp only
  split <;> rfl

theorem settle_valid {s : Snapshot} {kept : List Entry} {warnings : List Warning}
    (valid : validateSelection (w.brief.expanded c w.query.entries s counterpart) s
      { object := w.brief.object, side, critical := w.brief.critical, unchecked } =
        .ok (kept, warnings)) :
    (w.settle c unchecked side s counterpart).result = .ok () ∧
      (w.settle c unchecked side s counterpart).state =
        { w with
          query := { w.query with entries := kept }
          queryText := ({ w.query with entries := kept } : Query).compose
          warnings := w.warnings ++ warnings } := by
  unfold settle
  dsimp only
  rw [valid]
  exact ⟨rfl, rfl⟩

theorem settle_invalid {s : Snapshot} {f : Fault}
    (invalid : validateSelection (w.brief.expanded c w.query.entries s counterpart) s
      { object := w.brief.object, side, critical := w.brief.critical, unchecked } = .error f) :
    (w.settle c unchecked side s counterpart).result = .error f ∧
      (w.settle c unchecked side s counterpart).state =
        { w with
          query :=
            { w.query with entries := w.brief.expanded c w.query.entries s counterpart } } := by
  unfold settle
  dsimp only
  rw [invalid]
  exact ⟨rfl, rfl⟩

theorem settle_ok {s : Snapshot} (ok : (w.settle c unchecked side s counterpart).result = .ok ()) :
    ∃ kept warnings,
      validateSelection (w.brief.expanded c w.query.entries s counterpart) s
          { object := w.brief.object, side, critical := w.brief.critical, unchecked } =
            .ok (kept, warnings) ∧
        (w.settle c unchecked side s counterpart).state =
          { w with
            query := { w.query with entries := kept }
            queryText := ({ w.query with entries := kept } : Query).compose
            warnings := w.warnings ++ warnings } := by
  cases valid : validateSelection (w.brief.expanded c w.query.entries s counterpart) s
      { object := w.brief.object, side, critical := w.brief.critical, unchecked } with
  | error f =>
    rw [(settle_invalid c unchecked side counterpart valid).1] at ok
    cases ok
  | ok p => exact ⟨p.1, p.2, rfl, (settle_valid c unchecked side counterpart valid).2⟩

theorem take_unread {f : Fault} (unread : w.fetch systems side = .error f) :
    (w.take c systems unchecked side counterpart).state = w ∧
      (w.take c systems unchecked side counterpart).result = .error f := by
  unfold take
  rw [unread]
  exact ⟨rfl, rfl⟩

theorem take_read {s : Snapshot} (read : w.fetch systems side = .ok s) :
    (w.take c systems unchecked side counterpart).state =
      (w.settle c unchecked side s counterpart).state ∧
      (w.take c systems unchecked side counterpart).result =
        (w.settle c unchecked side s counterpart).result.map fun _ => s := by
  unfold take
  rw [read]
  exact ⟨rfl, rfl⟩

theorem take_unread_andThen {β : Type} {f : Fault} (unread : w.fetch systems side = .error f)
    (next : Work → Snapshot → Outcome Work β) :
    ((w.take c systems unchecked side counterpart).andThen next).state = w ∧
      ((w.take c systems unchecked side counterpart).andThen next).result = .error f := by
  obtain ⟨state, result⟩ := take_unread c systems unchecked side counterpart unread
  obtain ⟨state', result'⟩ := Outcome.andThen_error result next
  exact ⟨state'.trans state, result'⟩

theorem take_read_andThen {β : Type} {s : Snapshot} (read : w.fetch systems side = .ok s)
    (next : Work → Snapshot → Outcome Work β) :
    ((w.take c systems unchecked side counterpart).andThen next).Same
      ((w.settle c unchecked side s counterpart).andThen fun v _ => next v s) := by
  obtain ⟨state, result⟩ := take_read c systems unchecked side counterpart read
  cases settled : (w.settle c unchecked side s counterpart).result with
  | error f =>
    rw [settled] at result
    obtain ⟨stays, fails⟩ := Outcome.andThen_error result next
    obtain ⟨stays', fails'⟩ := Outcome.andThen_error settled fun v _ => next v s
    exact ⟨stays.trans (state.trans stays'.symm), fails.trans fails'.symm⟩
  | ok u =>
    rw [settled] at result
    have taken := Outcome.andThen_same result next
    rw [state] at taken
    exact taken.trans (Outcome.andThen_same settled fun v _ => next v s).symm

theorem take_schemas (w : Work) :
    (w.take c systems unchecked side counterpart).state.schemas = w.schemas := by
  cases fetched : w.fetch systems side with
  | error f => rw [(take_unread c systems unchecked side counterpart fetched).1]
  | ok s => rw [(take_read c systems unchecked side counterpart fetched).1, settle_schemas]

variable {c systems unchecked side counterpart} {schemas : Snapshot → Schemas}

theorem take_eq_ok {s : Snapshot}
    (ok : (w.take c systems unchecked side counterpart).result = .ok s) :
    w.fetch systems side = .ok s ∧ (w.settle c unchecked side s counterpart).result = .ok () ∧
      (w.take c systems unchecked side counterpart).state =
        (w.settle c unchecked side s counterpart).state := by
  cases fetched : w.fetch systems side with
  | error f =>
    rw [(take_unread c systems unchecked side counterpart fetched).2] at ok
    cases ok
  | ok t =>
    obtain ⟨state, result⟩ := take_read c systems unchecked side counterpart fetched
    rw [result] at ok
    cases settled : (w.settle c unchecked side t counterpart).result with
    | error f =>
      rw [settled] at ok
      cases ok
    | ok u =>
      rw [settled] at ok
      cases ok
      exact ⟨rfl, settled, state⟩

theorem keep_ok
    (ok : ((w.take c systems unchecked side counterpart).andThen fun v s =>
      v.keep (schemas s)).result = .ok ()) :
    ∃ s, (w.take c systems unchecked side counterpart).result = .ok s ∧
      ((w.take c systems unchecked side counterpart).andThen fun v s => v.keep (schemas s)).state =
        { (w.take c systems unchecked side counterpart).state with schemas := schemas s } := by
  obtain ⟨s, taken, _, state⟩ := Outcome.andThen_eq_ok ok
  exact ⟨s, taken, state⟩

theorem keep_error {f : Fault}
    (error : ((w.take c systems unchecked side counterpart).andThen fun v s =>
      v.keep (schemas s)).result = .error f) :
    (w.take c systems unchecked side counterpart).result = .error f ∧
      ((w.take c systems unchecked side counterpart).andThen fun v s => v.keep (schemas s)).state =
        (w.take c systems unchecked side counterpart).state := by
  cases taken : (w.take c systems unchecked side counterpart).result with
  | error g =>
    obtain ⟨state, result⟩ := Outcome.andThen_error taken fun v s => v.keep (schemas s)
    rw [result] at error
    cases error
    exact ⟨rfl, state⟩
  | ok s =>
    rw [(Outcome.andThen_ok taken _).2] at error
    cases error

end Take

section Describe
variable (c : Context) (systems : Systems) (unchecked : Bool)

/-- The query is settled by what the source answers. -/
structure PassesSource (w : Work) (s : Snapshot) : Prop where
  read : w.fetch systems .source = .ok s
  settled : (w.settle c unchecked .source s none).result = .ok ()

def betweenSides (w : Work) (s : Snapshot) : Work :=
  { (w.settle c unchecked .source s none).state with schemas := .sourceOnly s }

def finish (v : Work) (s : Snapshot) : Outcome Work Unit :=
  (v.take c systems unchecked .target (some s)).andThen fun v t => v.keep (.pair s t)

variable {c systems unchecked}

theorem describe_past {s : Snapshot} (both : c.isTwoSided = true)
    (passes : w.PassesSource c systems unchecked s) :
    (w.describe c systems unchecked).Same
      ((w.betweenSides c unchecked s).finish c systems unchecked s) := by
  obtain ⟨source, target⟩ := Context.sides_of_isTwoSided both
  simp only [describe, source, target]
  exact (take_read_andThen c systems unchecked .source none passes.read _).trans
    (Outcome.andThen_same passes.settled _)

theorem describe_short {f : Fault}
    (short : c.isTwoSided = true → ∀ s, ¬ w.PassesSource c systems unchecked s)
    (error : (w.describe c systems unchecked).result = .error f) :
    (w.describe c systems unchecked).state.schemas = w.schemas := by
  have kept : ∀ {side counterpart} {schemas : Snapshot → Schemas},
      ((w.take c systems unchecked side counterpart).andThen fun v s => v.keep (schemas s)).result =
        .error f →
        ((w.take c systems unchecked side counterpart).andThen fun v s =>
          v.keep (schemas s)).state.schemas =
          w.schemas := fun failed => by rw [(keep_error failed).2, take_schemas]
  unfold describe at error ⊢
  cases source : c.source.isDescribable <;> cases target : c.target.isDescribable <;>
    simp only [source, target] at error ⊢
  · exact kept error
  · exact kept error
  · have both : c.isTwoSided = true := by rw [Context.isTwoSided, source, target]; rfl
    cases fetched : w.fetch systems .source with
    | error g => rw [(take_unread_andThen c systems unchecked .source none fetched _).1]
    | ok s =>
      cases settled : (w.settle c unchecked .source s none).result with
      | error g =>
        rw [(take_read_andThen c systems unchecked .source none fetched _).state,
          (Outcome.andThen_error settled _).1, settle_schemas]
      | ok u => exact absurd ⟨fetched, settled⟩ (short both s)

/-- Behind the source its snapshot is kept, even where the target fails. -/
theorem describe_behind {s : Snapshot} {f : Fault} (both : c.isTwoSided = true)
    (passes : w.PassesSource c systems unchecked s)
    (error : (w.describe c systems unchecked).result = .error f) :
    (w.describe c systems unchecked).state.schemas = .sourceOnly s := by
  obtain ⟨state, result⟩ := describe_past both passes
  rw [error] at result
  rw [state, finish, (keep_error result.symm).2, take_schemas]
  rfl

theorem describe_last (asks : (c.source.isDescribable || c.target.isDescribable) = true) :
    ∃ (v : Work) (side : Side) (counterpart : Option Snapshot) (schemas : Snapshot → Schemas),
      v.brief = w.brief ∧ (∀ s t, schemas s ≠ .sourceOnly t) ∧
      (w.describe c systems unchecked).Same
        ((v.take c systems unchecked side counterpart).andThen fun u s => u.keep (schemas s)) := by
  unfold describe
  cases source : c.source.isDescribable <;> cases target : c.target.isDescribable
  · simp [source, target] at asks
  · exact ⟨w, .target, w.schemas.source?, .shared, rfl, by simp, rfl, rfl⟩
  · exact ⟨w, .source, none, .shared, rfl, by simp, rfl, rfl⟩
  · cases taken : (w.take c systems unchecked .source none).result with
    | error f =>
      refine ⟨w, .source, none, .shared, rfl, by simp, ?_⟩
      obtain ⟨state, result⟩ := Outcome.andThen_error taken fun u s => u.keep (.shared s)
      obtain ⟨state', result'⟩ := Outcome.andThen_error taken fun u s =>
        finish c systems unchecked { u with schemas := .sourceOnly s } s
      exact ⟨state'.trans state.symm, result'.trans result.symm⟩
    | ok s =>
      have brief := take_brief w c systems unchecked .source none
      exact ⟨{ (w.take c systems unchecked .source none).state with schemas := .sourceOnly s },
        .target, some s, .pair s, brief, by simp, Outcome.andThen_same taken _⟩

theorem describe_asks (ok : (w.describe c systems unchecked).result = .ok ()) :
    (c.source.isDescribable || c.target.isDescribable) = true := by
  cases source : c.source.isDescribable <;> cases target : c.target.isDescribable
  · simp only [describe, source, target] at ok
    cases ok
  · rfl
  · rfl
  · rfl

theorem describe_whole (ok : (w.describe c systems unchecked).result = .ok ()) (s : Snapshot) :
    (w.describe c systems unchecked).state.schemas ≠ .sourceOnly s := by
  obtain ⟨v, side, counterpart, schemas, _, whole, same⟩ :=
    describe_last (w := w) (describe_asks ok)
  obtain ⟨t, _, state⟩ := keep_ok (same.result.symm.trans ok)
  rw [same.state, state]
  exact whole t s

end Describe

end Work

namespace Task

theorem describe_of_same {c c' : Context} {systems systems' : Systems} {r : Request} {v w : Work}
    (same : (v.describe c systems r.isExtraObject).Same (w.describe c' systems' r.isExtraObject)) :
    (describe c systems { request := r, stage := .configured v }).Same
      (describe c' systems' { request := r, stage := .configured w }) := by
  cases result : (w.describe c' systems' r.isExtraObject).result with
  | error f =>
    obtain ⟨state, fails⟩ :=
      describe_error (t := { request := r, stage := .configured v }) rfl (same.result.trans result)
    obtain ⟨state', fails'⟩ :=
      describe_error (t := { request := r, stage := .configured w }) rfl result
    rw [same.state] at state
    exact ⟨state.trans state'.symm, fails.trans fails'.symm⟩
  | ok u =>
    obtain ⟨state, ends⟩ :=
      describe_ok (t := { request := r, stage := .configured v }) rfl (same.result.trans result)
    obtain ⟨state', ends'⟩ := describe_ok (t := { request := r, stage := .configured w }) rfl result
    rw [same.state] at state
    exact ⟨state.trans state'.symm, ends.trans ends'.symm⟩

end Task

end MigrationPlan
