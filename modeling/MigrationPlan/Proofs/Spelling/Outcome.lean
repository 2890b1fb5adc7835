import MigrationPlan.Task.Basic

/- Results and outcomes compared up to what does not matter: what was computed through a function,
   and what went wrong by its kind, which is a fault without the texts in it. -/
namespace MigrationPlan

def Query.ParseError.kind : ParseError → ParseError
  | invalidObject _ => invalidObject ""
  | invalidNumber clause _ => invalidNumber clause ""
  | e => e

def FileFault.kind : FileFault → FileFault
  | reported _ => reported ""
  | f => f

def ObjectFault.kind : ObjectFault → ObjectFault
  | malformedQuery _ error => malformedQuery "" error.kind
  | unknownOperation _ => unknownOperation ""
  | emptyExternalId _ => emptyExternalId ""
  | missingRecordId _ side => missingRecordId "" side
  | missingExternalId _ side => missingExternalId "" side
  | reported _ => reported ""
  | f => f

def DescribeFault.kind : DescribeFault → DescribeFault
  | unknownObject _ _ => unknownObject "" ""
  | unreadable _ fault => unreadable "" fault.kind
  | malformed _ _ => malformed "" ""
  | otherObject _ _ _ => otherObject "" "" ""
  | reported _ => reported ""

def JobFault.kind : JobFault → JobFault
  | unknownLogFormat _ => unknownLogFormat ""
  | reported _ => reported ""
  | f => f

namespace Fault

def kind : Fault → Fault
  | object _ fault => object "" fault.kind
  | query error => query error.kind
  | job fault => job fault.kind
  | metadata _ side _ => metadata "" side ""
  | describe fault => describe fault.kind
  | file fault => file fault.kind
  | yaml _ => yaml ""
  | json _ => json ""

theorem isConfiguration_kind (f : Fault) : f.kind.isConfiguration = f.isConfiguration := by
  cases f <;> rfl

end Fault

section UpTo
variable {α β γ δ : Type}

def upTo (f : α → β) : Except Fault α → Except Fault β
  | .ok a => .ok (f a)
  | .error fault => .error fault.kind

theorem upTo_cases {f : α → β} {f' : γ → β} {e : Except Fault α} {e' : Except Fault γ}
    (same : upTo f e = upTo f' e') :
    (∃ a a', e = .ok a ∧ e' = .ok a' ∧ f a = f' a') ∨
      ∃ fault fault', e = .error fault ∧ e' = .error fault' ∧ fault.kind = fault'.kind := by
  cases e with
  | error fault =>
    cases e' with
    | error fault' => exact Or.inr ⟨fault, fault', rfl, rfl, Except.error.inj same⟩
    | ok a' => cases same
  | ok a =>
    cases e' with
    | error fault' => cases same
    | ok a' => exact Or.inl ⟨a, a', rfl, rfl, Except.ok.inj same⟩

theorem upTo_bind {f : α → β} {g : γ → δ} {e e' : Except Fault α} {next next' : α → Except Fault γ}
    (same : upTo f e = upTo f e')
    (each : ∀ a a', f a = f a' → upTo g (next a) = upTo g (next' a')) :
    upTo g (e.bind next) = upTo g (e'.bind next') := by
  rcases upTo_cases same with ⟨a, a', rfl, rfl, alike⟩ | ⟨fault, fault', rfl, rfl, alike⟩
  · exact each a a' alike
  · exact congrArg Except.error alike

end UpTo

namespace Outcome
variable {σ ρ α β γ δ : Type}

/-- Outcomes with the same state by `f` and the same result by `g`; what they report is left out. -/
structure Alike (f : σ → ρ) (g : α → β) (o p : Outcome σ α) : Prop where
  state : f o.state = f p.state
  result : upTo g o.result = upTo g p.result

namespace Alike
variable {f : σ → ρ} {g : α → β} {o p q : Outcome σ α}

theorem symm (h : Alike f g o p) : Alike f g p o := ⟨h.state.symm, h.result.symm⟩

theorem trans (h : Alike f g o p) (h' : Alike f g p q) : Alike f g o q :=
  ⟨h.state.trans h'.state, h.result.trans h'.result⟩

theorem andThen {h : γ → δ} {next next' : σ → α → Outcome σ γ} (first : Alike f g o p)
    (later : ∀ a a', g a = g a' → Alike f h (next o.state a) (next' p.state a')) :
    Alike f h (o.andThen next) (p.andThen next') := by
  rcases upTo_cases first.result with ⟨a, a', ends, ends', alike⟩
    | ⟨fault, fault', ends, ends', alike⟩
  · obtain ⟨state, result⟩ := later a a' alike
    simp only [Outcome.andThen, ends, ends']
    exact ⟨state, result⟩
  · simp only [Outcome.andThen, ends, ends']
    exact ⟨first.state, congrArg Except.error alike⟩

end Alike

end Outcome

end MigrationPlan
