/- Names are compared ignoring the case of ASCII letters only: É and é differ. -/
namespace MigrationPlan.Text

/-- The spelling that two names share exactly when they differ in ASCII case alone. -/
@[irreducible]
def fold (s : String) : String := String.ofList (s.toList.map Char.toLower)

def sameName (a b : String) : Bool := fold a == fold b

def isWordChar (c : Char) : Bool := c.isAlphanum || c == '_'

end MigrationPlan.Text
