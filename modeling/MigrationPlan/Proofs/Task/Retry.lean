import MigrationPlan.Proofs.Task.Reconciliation
import MigrationPlan.Proofs.Task.Settling
import MigrationPlan.Proofs.Task.Views

/- Attempts that end because a side does not answer. Such an attempt leaves a task as it was, or
   settled by the source; as long as the source answers the same, the next attempt goes on from
   either as from the start. -/
namespace MigrationPlan

namespace Work
variable {c : Context} {systems : Systems} {unchecked : Bool} {w v : Work}

/-- A description that ends at a fetch: at the first side that is asked, or at the target behind the
    source. -/
inductive Interrupted (c : Context) (systems : Systems) (unchecked : Bool) (w : Work) : Prop where
  | source (f : Fault) (asked : c.source.isDescribable = true)
      (unread : w.fetch systems .source = .error f)
  | target (f : Fault) (asked : c.target.isDescribable = true)
      (past : c.source.isDescribable = true → ∃ s, w.PassesSource c systems unchecked s)
      (unread : w.fetch systems .target = .error f)

theorem take_same {systems' : Systems} {side : Side}
    (answers : w.fetch systems side = w.fetch systems' side) (counterpart : Option Snapshot) :
    (w.take c systems unchecked side counterpart).Same
      (w.take c systems' unchecked side counterpart) := by
  cases fetched : w.fetch systems side with
  | error f =>
    obtain ⟨state, result⟩ := take_unread c systems unchecked side counterpart fetched
    obtain ⟨state', result'⟩ :=
      take_unread c systems' unchecked side counterpart (answers ▸ fetched)
    exact ⟨state.trans state'.symm, result.trans result'.symm⟩
  | ok s =>
    obtain ⟨state, result⟩ := take_read c systems unchecked side counterpart fetched
    obtain ⟨state', result'⟩ := take_read c systems' unchecked side counterpart (answers ▸ fetched)
    exact ⟨state.trans state'.symm, result.trans result'.symm⟩

theorem betweenSides_brief (c : Context) (unchecked : Bool) (w : Work) (s : Snapshot) :
    (w.betweenSides c unchecked s).brief = w.brief := settle_brief w c unchecked .source s none

theorem describe_same {systems' : Systems}
    (source : c.source.isDescribable = true → w.fetch systems .source = w.fetch systems' .source)
    (target : c.target.isDescribable = true → w.fetch systems .target = w.fetch systems' .target) :
    (w.describe c systems unchecked).Same (w.describe c systems' unchecked) := by
  unfold describe
  cases onSource : c.source.isDescribable <;> cases onTarget : c.target.isDescribable
  · exact ⟨rfl, rfl⟩
  · exact (take_same (target onTarget) _).andThen fun _ _ => ⟨rfl, rfl⟩
  · exact (take_same (source onSource) _).andThen fun _ _ => ⟨rfl, rfl⟩
  · apply (take_same (source onSource) _).andThen
    intro s _
    have brief := take_brief w c systems unchecked .source none
    have answers := target onTarget
    rw [
      ← fetch_congr
        (v := { (w.take c systems unchecked .source none).state with schemas := .sourceOnly s })
        brief,
      ← fetch_congr
        (v := { (w.take c systems unchecked .source none).state with schemas := .sourceOnly s })
        brief] at answers
    exact (take_same answers _).andThen fun _ _ => ⟨rfl, rfl⟩

theorem describe_interrupted (ended : w.Interrupted c systems unchecked) :
    (∃ f, (w.describe c systems unchecked).result = .error f) ∧
      ((w.describe c systems unchecked).state = w ∨
        ∃ s, c.isTwoSided = true ∧ w.PassesSource c systems unchecked s ∧
          (w.describe c systems unchecked).state = w.betweenSides c unchecked s) := by
  cases ended with
  | source f asked unread =>
    cases onTarget : c.target.isDescribable <;> simp only [describe, asked, onTarget]
    · obtain ⟨stays, fails⟩ :=
        take_unread_andThen c systems unchecked .source none unread fun v s => v.keep (.shared s)
      exact ⟨⟨f, fails⟩, Or.inl stays⟩
    · obtain ⟨stays, fails⟩ :=
        take_unread_andThen c systems unchecked .source none unread fun v s =>
        finish c systems unchecked { v with schemas := .sourceOnly s } s
      exact ⟨⟨f, fails⟩, Or.inl stays⟩
  | target f asked past unread =>
    cases onSource : c.source.isDescribable with
    | false =>
      simp only [describe, asked, onSource]
      obtain ⟨stays, fails⟩ :=
        take_unread_andThen c systems unchecked .target w.schemas.source? unread fun v s =>
        v.keep (.shared s)
      exact ⟨⟨f, fails⟩, Or.inl stays⟩
    | true =>
      obtain ⟨s, passes⟩ := past onSource
      have both : c.isTwoSided = true := by rw [Context.isTwoSided, onSource, asked]; rfl
      obtain ⟨state, result⟩ := describe_past both passes
      rw [← fetch_congr (betweenSides_brief c unchecked w s)] at unread
      obtain ⟨stays, fails⟩ :=
        take_unread_andThen c systems unchecked .target (some s) unread fun v t =>
        v.keep (.pair s t)
      exact ⟨⟨f, result.trans fails⟩, Or.inr ⟨s, both, passes, state.trans stays⟩⟩

inductive Retried (c : Context) (unchecked : Bool) (w : Work) (s : Snapshot) : Work → Prop where
  | untouched : Retried c unchecked w s w
  | settled (both : c.isTwoSided = true)
      (ok : (w.settle c unchecked .source s none).result = .ok ()) :
      Retried c unchecked w s (w.betweenSides c unchecked s)

section Retried
variable {s : Snapshot}

theorem Retried.brief (h : Retried c unchecked w s v) : v.brief = w.brief := by
  cases h with
  | untouched => rfl
  | settled both ok => exact betweenSides_brief c unchecked w s

variable (selected : w.brief.WellSelected w.query.entries)
include selected

theorem betweenSides_again (ok : (w.settle c unchecked .source s none).result = .ok ()) :
    ((w.betweenSides c unchecked s).settle c unchecked .source s none).result = .ok () ∧
      (w.betweenSides c unchecked s).betweenSides c unchecked s = w.betweenSides c unchecked s := by
  obtain ⟨state, result⟩ := settle_again selected ok (.sourceOnly s) .source none
  refine ⟨result, ?_⟩
  have again :
      ((w.betweenSides c unchecked s).settle c unchecked .source s none).state =
        w.betweenSides c unchecked s :=
    state
  rw [betweenSides, again]
  rfl

theorem Retried.describe (h : Retried c unchecked w s v) (ended : v.Interrupted c systems unchecked)
    (sameSource : c.source.isDescribable = true → ∀ t, w.fetch systems .source = .ok t → t = s) :
    Retried c unchecked w s (v.describe c systems unchecked).state := by
  obtain ⟨_, stays | ⟨t, both, passes, between⟩⟩ := describe_interrupted ended
  · rwa [stays]
  · have read : w.fetch systems .source = .ok t := (fetch_congr h.brief).symm.trans passes.read
    have same : t = s := sameSource (Context.sides_of_isTwoSided both).1 t read
    subst t
    rw [between]
    cases h with
    | untouched => exact .settled both passes.settled
    | settled _ ok =>
      rw [(betweenSides_again selected ok).2]
      exact .settled both ok

/-- From whatever the attempts left, the next one that is not ended by a fetch of the source is as
    from the start. -/
theorem Retried.describe_same {single : Systems} (h : Retried c unchecked w s v)
    (source : c.source.isDescribable = true →
      w.fetch systems .source = .ok s ∧ w.fetch single .source = .ok s)
    (target : c.target.isDescribable = true → w.fetch systems .target = w.fetch single .target) :
    (v.describe c systems unchecked).Same (w.describe c single unchecked) := by
  cases h with
  | untouched =>
    exact Work.describe_same (fun asked => (source asked).1.trans (source asked).2.symm) target
  | settled both ok =>
    obtain ⟨onSource, onTarget⟩ := Context.sides_of_isTwoSided both
    obtain ⟨settled, between⟩ := betweenSides_again selected ok
    have brief := betweenSides_brief c unchecked w s
    have again := describe_past both ⟨(fetch_congr brief).trans (source onSource).1, settled⟩
    have once := describe_past both ⟨(source onSource).2, ok⟩
    rw [between] at again
    have answers := target onTarget
    rw [← fetch_congr brief, ← fetch_congr brief] at answers
    have finished : ((w.betweenSides c unchecked s).finish c systems unchecked s).Same
        ((w.betweenSides c unchecked s).finish c single unchecked s) :=
      (take_same answers _).andThen fun _ _ => ⟨rfl, rfl⟩
    exact again.trans (finished.trans once.symm)

end Retried

end Work

namespace Task

/-- The task is configured, and the attempt at describing it ends at a fetch. -/
def Interrupted (c : Context) (systems : Systems) (t : Task) : Prop :=
  ∃ w, t.stage = .configured w ∧ w.Interrupted c systems t.request.isExtraObject

def AllInterrupted (c : Context) : Task → List Systems → Prop
  | _, [] => True
  | t, systems :: later =>
    t.Interrupted c systems ∧ AllInterrupted c (t.describe c systems).state later

def describeEach (c : Context) (t : Task) (attempts : List Systems) : Task :=
  t.run (attempts.map (.describe c))

theorem describeEach_retried {c : Context} {r : Request} {w : Work} {s : Snapshot}
    (selected : w.brief.WellSelected w.query.entries) (attempts : List Systems) {v : Work}
    (before : w.Retried c r.isExtraObject s v)
    (ended : AllInterrupted c { request := r, stage := .configured v } attempts)
    (sameSource : c.source.isDescribable = true →
      ∀ systems ∈ attempts, ∀ t, w.fetch systems .source = .ok t → t = s) :
    ∃ u, describeEach c { request := r, stage := .configured v } attempts =
      { request := r, stage := .configured u } ∧
      w.Retried c r.isExtraObject s u := by
  induction attempts generalizing v with
  | nil => exact ⟨v, rfl, before⟩
  | cons systems later ih =>
    obtain ⟨⟨v', stage, interrupted⟩, rest⟩ := ended
    cases stage
    obtain ⟨⟨f, error⟩, _⟩ := Work.describe_interrupted interrupted
    have state := (describe_error (t := { request := r, stage := .configured v }) rfl error).1
    rw [state] at rest
    have next :=
      before.describe selected interrupted fun asked => sameSource asked systems List.mem_cons_self
    obtain ⟨u, reached, retried⟩ :=
      ih next rest fun asked a member => sameSource asked a (List.mem_cons_of_mem _ member)
    refine ⟨u, ?_, retried⟩
    rw [← reached, describeEach, describeEach, List.map_cons]
    exact congrArg (fun t : Task => t.run (later.map (.describe c))) state

/-- After any number of attempts that end at a fetch, one that does not ends as a single description
    of the task that was set up would: with the same result and the same state. The source answers
    with one snapshot throughout. -/
theorem retry_leaves_no_trace (r : Request) (c₀ c : Context) (w : Work) (s : Snapshot)
    (attempts : List Systems)
    (last single : Systems) (setUp : (Task.setUp c₀ { request := r }).state.stage = .configured w)
    (ended : AllInterrupted c (Task.setUp c₀ { request := r }).state attempts)
    (fetched : ¬ (describeEach c (Task.setUp c₀
      { request := r }).state attempts).Interrupted c last)
    (sameSource : c.source.isDescribable = true →
      ∀ systems ∈ attempts ++ [last], ∀ t, w.fetch systems .source = .ok t → t = s)
    (source : c.source.isDescribable = true → w.fetch single .source = .ok s)
    (target : c.target.isDescribable = true → w.fetch last .target = w.fetch single .target) :
    let retried := (describeEach c (Task.setUp c₀ { request := r }).state attempts).describe c last
    let once := (Task.setUp c₀ { request := r }).state.describe c single
    retried.result = once.result ∧ retried.state = once.state := by
  obtain ⟨state, made⟩ := configured_of_setUp setUp
  have selected : w.brief.WellSelected w.query.entries :=
    ((Work.wellFormed_kept r).setUp c₀ w made).selection
  rw [state] at ended fetched ⊢
  obtain ⟨u, reached, retried⟩ :=
    describeEach_retried selected attempts .untouched ended fun asked systems member =>
    sameSource asked systems (List.mem_append_left _ member)
  rw [reached] at fetched ⊢
  have answered : c.source.isDescribable = true → w.fetch last .source = .ok s := by
    intro asked
    cases read : w.fetch last .source with
    | error f =>
      rw [← Work.fetch_congr retried.brief] at read
      exact absurd ⟨u, rfl, .source f asked read⟩ fetched
    | ok t => rw [sameSource asked last (List.mem_append_right _ List.mem_cons_self) t read]
  have same :=
    describe_of_same (r := r)
      (retried.describe_same selected (fun asked => ⟨answered asked, source asked⟩) target)
  exact ⟨same.result, same.state⟩

def sourceDown : Systems :=
  { source := { name := "old",
                describe := fun _ => .error (.describe (.reported "session expired")) }
    target := { name := "new", describe := fun _ => .ok contactSchema } }

def contactSystems : Systems :=
  { source := { name := "old", describe := fun _ => .ok contactSchema }
    target := { name := "new", describe := fun _ => .ok newContacts } }

theorem retry_leaves_no_trace_contacts :
    AllInterrupted betweenOrgs (Task.setUp betweenOrgs { request := contactsOfAccounts }).state
        [sourceDown, targetDown] ∧
      ((describeEach betweenOrgs (Task.setUp betweenOrgs { request := contactsOfAccounts }).state
          [sourceDown, targetDown]).describe betweenOrgs contactSystems).state =
        ((Task.setUp betweenOrgs { request := contactsOfAccounts }).state.describe betweenOrgs
          contactSystems).state := by
  have setUp : (Task.setUp betweenOrgs { request := contactsOfAccounts }).state =
      { request := contactsOfAccounts, stage := .configured contactsOfAccountsWork } :=
        contactsOfAccounts_setUp
  have settled :
      (contactsOfAccountsWork.settle betweenOrgs false .source (contactSchema.ownedBy "Contact")
        none).result =
      .ok () := by decide +kernel
  have ended :
      AllInterrupted betweenOrgs (Task.setUp betweenOrgs { request := contactsOfAccounts }).state
        [sourceDown, targetDown] := by
    rw [setUp]
    refine ⟨⟨contactsOfAccountsWork, rfl, .source _ rfl rfl⟩, ?_, trivial⟩
    exact ⟨contactsOfAccountsWork, rfl, .target _ rfl (fun _ => ⟨_, rfl, settled⟩) rfl⟩
  have fetched :
      ¬ (describeEach betweenOrgs (Task.setUp betweenOrgs { request := contactsOfAccounts }).state
      [sourceDown, targetDown]).Interrupted betweenOrgs contactSystems := by
    have reached :
        describeEach betweenOrgs (Task.setUp betweenOrgs { request := contactsOfAccounts }).state
        [sourceDown, targetDown] = stoppedTask := by
      rw [setUp]
      decide +kernel
    rw [reached]
    rintro ⟨w, stage, ⟨f, _, unread⟩ | ⟨f, _, _, unread⟩⟩
    · cases stage
      cases unread
    · cases stage
      cases unread
  have sameSource : ∀ systems ∈ [sourceDown, targetDown] ++ [contactSystems], ∀ t,
      contactsOfAccountsWork.fetch systems .source = .ok t →
        t = contactSchema.ownedBy "Contact" := by
    intro systems member t read
    simp only [List.cons_append, List.nil_append, List.mem_cons, List.not_mem_nil,
      or_false] at member
    rcases member with rfl | rfl | rfl
    · cases read
    · exact (Except.ok.inj read).symm
    · exact (Except.ok.inj read).symm
  exact ⟨ended,
    (retry_leaves_no_trace contactsOfAccounts betweenOrgs betweenOrgs contactsOfAccountsWork
      (contactSchema.ownedBy "Contact") [sourceDown, targetDown] contactSystems contactSystems
      (by rw [setUp]) ended fetched (fun _ => sameSource) (fun _ => rfl) (fun _ => rfl)).2⟩

end Task

end MigrationPlan
