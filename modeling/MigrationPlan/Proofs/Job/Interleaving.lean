import Mathlib.Logic.Function.Iterate
import MigrationPlan.Job.Basic
import MigrationPlan.Proofs.Task.Calls

/- Descriptions that wait for one another's turns. A description stops before each fetch and goes on
   when its fetch is complete, and a schedule says whose fetch is complete next. In whatever order
   that is, every task ends as when it is described alone. -/
namespace MigrationPlan

inductive Describing where
  /-- The snapshot of a side is awaited; the notices are those so far. -/
  | awaiting (task : Task) (work : Work) (side : Side) (counterpart : Option Snapshot)
      (notices : List Notice)
  | ended (outcome : Outcome Task Unit)

namespace Describing

def close (t : Task) (notices : List Notice) (o : Outcome Work Unit) : Describing :=
  match o.result with
  | .error f =>
    ended { state := { t with stage := .configured o.state }, result := .error f,
            notices := notices ++ o.notices }
  | .ok _ =>
    let w := o.state
    ended
      { state := { t with stage := .described w }
        result := .ok ()
        notices :=
          notices ++ o.notices ++
            [.described w.brief.object w.query.entries.length w.warnings.length] }

def start (c : Context) (t : Task) : Describing :=
  match t.stage with
  | .unconfigured => ended { state := t, result := .error (.object t.displayName .notSetUp) }
  | .described _ => ended { state := t, result := .ok () }
  | .configured w =>
    if c.source.isDescribable then awaiting t w .source none []
    else if c.target.isDescribable then awaiting t w .target w.schemas.source? []
    else close t [] { state := w, result := .error (.object w.brief.object .neitherSideDescribed) }

def resume (c : Context) (systems : Systems) : Describing → Describing
  | ended o => ended o
  | awaiting t w side counterpart notices =>
    let o := w.take c systems t.request.isExtraObject side counterpart
    if c.source.isDescribable && c.target.isDescribable then
      match side, counterpart with
      | .target, some first => close t notices (o.andThen fun w s => w.keep (.pair first s))
      | _, _ =>
        match o.result with
        | .error f => close t notices { state := o.state, result := .error f, notices := o.notices }
        | .ok s =>
          awaiting t { o.state with schemas := .sourceOnly s } .target (some s)
            (notices ++ o.notices)
    else close t notices (o.andThen fun w s => w.keep (.shared s))

def outcome? : Describing → Option (Outcome Task Unit)
  | awaiting .. => none
  | ended o => some o

variable (c : Context) (systems : Systems)

theorem resume_ended (n : Nat) (o : Outcome Task Unit) :
    (resume c systems)^[n] (ended o) = ended o := by
  induction n with
  | zero => rfl
  | succ n ih => rw [Function.iterate_succ_apply, resume, ih]

theorem close_ended (t : Task) (notices : List Notice) (o : Outcome Work Unit) :
    resume c systems (close t notices o) = close t notices o := by
  unfold close
  cases o.result <;> rfl

theorem close_append (t : Task) (first later : List Notice) (o : Outcome Work Unit) :
    close t (first ++ later) o = close t first { o with notices := later ++ o.notices } := by
  unfold close
  cases o.result <;> simp

theorem describe_configured {t : Task} {w : Work} (stage : t.stage = .configured w) :
    ended (t.describe c systems) = close t [] (w.describe c systems t.request.isExtraObject) := by
  unfold close Task.describe
  simp only [stage]
  cases (w.describe c systems t.request.isExtraObject).result <;> rfl

section Resume
variable {c} (t : Task) (w : Work) (counterpart : Option Snapshot) (notices : List Notice)

theorem resume_only (side : Side)
    (only : (c.source.isDescribable && c.target.isDescribable) = false) :
    resume c systems (awaiting t w side counterpart notices) =
      close t notices ((w.take c systems t.request.isExtraObject side counterpart).andThen
        fun w s => w.keep (.shared s)) := by
  simp [resume, only]

variable (both : (c.source.isDescribable && c.target.isDescribable) = true)
include both

theorem resume_source_error {f : Fault}
    (error : (w.take c systems t.request.isExtraObject .source counterpart).result = .error f)
    (next : Work → Snapshot → Outcome Work Unit) :
    resume c systems (awaiting t w .source counterpart notices) =
      close t notices
        ((w.take c systems t.request.isExtraObject .source counterpart).andThen next) := by
  simp [resume, both, error, Outcome.andThen]

theorem resume_source_ok {s : Snapshot}
    (ok : (w.take c systems t.request.isExtraObject .source counterpart).result = .ok s) :
    resume c systems (awaiting t w .source counterpart notices) =
      awaiting t { (w.take c systems t.request.isExtraObject .source counterpart).state with
                   schemas := .sourceOnly s }
        .target (some s)
        (notices ++ (w.take c systems t.request.isExtraObject .source counterpart).notices) := by
  simp [resume, both, ok]

theorem resume_target (first : Snapshot) :
    resume c systems (awaiting t w .target (some first) notices) =
      close t notices ((w.take c systems t.request.isExtraObject .target (some first)).andThen
        fun w s => w.keep (.pair first s)) := by
  simp [resume, both]

end Resume

/-- Two fetches are all that a description can wait for. -/
theorem resume_twice (t : Task) :
    (resume c systems)^[2] (start c t) = ended (t.describe c systems) := by
  cases stage : t.stage with
  | unconfigured =>
    have started : start c t = ended (t.describe c systems) := by simp [start, Task.describe, stage]
    rw [started, resume_ended]
  | described w =>
    have started : start c t = ended (t.describe c systems) := by simp [start, Task.describe, stage]
    rw [started, resume_ended]
  | configured w =>
    have twice : ∀ d, (resume c systems)^[2] d = resume c systems (resume c systems d) :=
      fun d => rfl
    rw [describe_configured c systems stage, twice]
    cases source : c.source.isDescribable with
    | false =>
      cases target : c.target.isDescribable with
      | false =>
        have started : start c t =
            close t [] { state := w,
                         result := .error (.object w.brief.object .neitherSideDescribed) } := by
          simp [start, stage, source, target]
        rw [started, close_ended, close_ended]
        simp only [Work.describe, source, target]
      | true =>
        have started : start c t = awaiting t w .target w.schemas.source? [] := by
          simp [start, stage, source, target]
        rw [started, resume_only _ _ _ _ _ _ (by simp [source]), close_ended]
        simp only [Work.describe, source, target]
    | true =>
      -- with both sides, a failed first fetch ends the description and the second one is not begun
      have started : start c t = awaiting t w .source none [] := by simp [start, stage, source]
      cases target : c.target.isDescribable with
      | false =>
        rw [started, resume_only _ _ _ _ _ _ (by simp [target]), close_ended]
        simp only [Work.describe, source, target]
      | true =>
        have both : (c.source.isDescribable && c.target.isDescribable) = true := by
          simp [source, target]
        rw [started]
        simp only [Work.describe, source, target]
        cases first : (w.take c systems t.request.isExtraObject .source none).result with
        | error f => rw [resume_source_error _ _ _ _ _ both first, close_ended]
        | ok s =>
          rw [resume_source_ok _ _ _ _ _ both first, resume_target _ _ _ _ both, close_append]
          simp only [Outcome.andThen, first]

theorem resume_after_two {n : Nat} (enough : 2 ≤ n) (t : Task) :
    (resume c systems)^[n] (start c t) = ended (t.describe c systems) := by
  obtain ⟨more, rfl⟩ := Nat.exists_eq_add_of_le enough
  rw [Nat.add_comm, Function.iterate_add_apply, resume_twice, resume_ended]

theorem outcome_describe {n : Nat} {t : Task} {o : Outcome Task Unit}
    (done : ((resume c systems)^[n] (start c t)).outcome? = some o) : o = t.describe c systems := by
  have ends : (resume c systems)^[n] (start c t) = ended o := by
    cases d : (resume c systems)^[n] (start c t) with
    | awaiting t w side counterpart notices => simp [d, outcome?] at done
    | ended o' =>
      rw [d] at done
      rw [Option.some.inj done]
  -- two more fetches change nothing, and after them the outcome is known
  have later := resume_after_two c systems (Nat.le_add_right 2 n) t
  rw [Function.iterate_add_apply, ends, resume_ended] at later
  cases later
  rfl

def advance (l : List Describing) (index : Nat) : List Describing :=
  l.modify index (resume c systems)

def run (l : List Describing) (schedule : List Nat) : List Describing :=
  schedule.foldl (advance c systems) l

theorem run_get (l : List Describing) (schedule : List Nat) (i : Nat) :
    (run c systems l schedule)[i]? = l[i]?.map (resume c systems)^[schedule.count i] := by
  induction schedule generalizing l with
  | nil => simp [run]
  | cons index schedule ih =>
    have step :
        run c systems l (index :: schedule) =
          run c systems (l.modify index (resume c systems)) schedule := rfl
    rw [step, ih, List.getElem?_modify]
    by_cases named : index = i
    · subst named
      cases l[index]? with
      | none => rfl
      | some d => simp
    · simp [named]

end Describing

namespace Job

def begin_ (j : Job) : List Describing :=
  j.tasks.mapIdx fun index t =>
    if !j.hasFailed index && t.progress == .configured then .start j.context t
    else .ended { state := t, result := .ok () }

def record (j : Job) (outcomes : List (Outcome Task Unit)) : Job :=
  { j with tasks := outcomes.map (·.state), failures := j.failures ++ failuresOf outcomes }

/-- The job after all descriptions have ended; none if the schedule leaves one waiting. -/
def describeAllBy (j : Job) (systems : Systems) (schedule : List Nat) : Option Job :=
  let l := Describing.run j.context systems j.begin_ schedule
  if l.all (·.outcome?.isSome) then some (j.record (l.filterMap Describing.outcome?)) else none

def prepareBy (j : Job) (systems : Systems) (schedule : List Nat) : Option Job :=
  j.setUpAll.1.describeAllBy systems schedule

variable {j : Job} {systems : Systems} {schedule : List Nat}

theorem run_complete
    (complete :
      (Describing.run j.context systems j.begin_ schedule).all (·.outcome?.isSome) = true) :
    Describing.run j.context systems j.begin_ schedule = (j.descriptions systems).map .ended := by
  apply List.ext_getElem?
  intro i
  have reached := Describing.run_get j.context systems j.begin_ schedule i
  rw [reached]
  simp only [begin_, descriptions, List.getElem?_mapIdx, List.getElem?_map] at reached ⊢
  cases task : j.tasks[i]? with
  | none => rfl
  | some t =>
    simp only [task, Option.map_some] at reached ⊢
    by_cases open_ : (!j.hasFailed i && t.progress == .configured) = true
    · simp only [open_, ↓reduceIte] at reached ⊢
      have ended := List.all_eq_true.mp complete _ (List.mem_of_getElem? reached)
      obtain ⟨o, done⟩ := Option.isSome_iff_exists.mp ended
      have same := Describing.outcome_describe j.context systems done
      cases d :
        (Describing.resume j.context systems)^[schedule.count i] (Describing.start j.context t) with
      | awaiting t w side counterpart notices => simp [d, Describing.outcome?] at done
      | ended o' =>
        rw [d] at done
        rw [← same, Option.some.inj done]
    · simp only [open_, Bool.false_eq_true, ↓reduceIte, Describing.resume_ended]

/-- The order in which fetches end plays no part: the job is the one whose tasks were described one
    by one. -/
theorem describeAllBy_some {j' : Job} (done : j.describeAllBy systems schedule = some j') :
    j' = (j.describeAll systems).1 := by
  unfold describeAllBy at done
  simp only at done
  split at done
  · next complete =>
    rw [run_complete complete] at done
    have outcomes : ((j.descriptions systems).map Describing.ended).filterMap Describing.outcome? =
        j.descriptions systems := by
      simp [List.filterMap_map, Function.comp_def, Describing.outcome?]
    rw [outcomes] at done
    exact (Option.some.inj done).symm
  · cases done

/-- A schedule that names every task twice leaves none waiting. -/
theorem describeAllBy_fair (fair : ∀ i < j.tasks.length, 2 ≤ schedule.count i) :
    j.describeAllBy systems schedule = some (j.describeAll systems).1 := by
  have complete :
      (Describing.run j.context systems j.begin_ schedule).all (·.outcome?.isSome) = true := by
    rw [List.all_eq_true]
    intro d member
    obtain ⟨i, at_⟩ := List.mem_iff_getElem?.mp member
    rw [Describing.run_get] at at_
    simp only [begin_, List.getElem?_mapIdx] at at_
    cases task : j.tasks[i]? with
    | none => simp [task] at at_
    | some t =>
      have inside : i < j.tasks.length := (List.getElem?_eq_some_iff.mp task).1
      simp only [task, Option.map_some, Option.some.injEq] at at_
      subst at_
      by_cases open_ : (!j.hasFailed i && t.progress == .configured) = true
      · simp only [open_, ↓reduceIte, Describing.resume_after_two _ _ (fair i inside)]
        rfl
      · simp only [open_, Bool.false_eq_true, ↓reduceIte, Describing.resume_ended]
        rfl
  cases done : j.describeAllBy systems schedule with
  | none => simp [describeAllBy, complete] at done
  | some j' => rw [describeAllBy_some done]

end Job

end MigrationPlan
