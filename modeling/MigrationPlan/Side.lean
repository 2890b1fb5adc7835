import MigrationPlan.Document

/- The two ends of a migration. -/
namespace MigrationPlan

inductive Side where
  | source
  | target
  deriving DecidableEq, Repr

namespace Side

def name : Side → String
  | source => "source"
  | target => "target"

def tree (s : Side) : Tree := .text s.name

def read {δ : Type} [Document δ] : δ → Option Side :=
  Document.choiceOf [("source", source), ("target", target)]

end Side

end MigrationPlan
