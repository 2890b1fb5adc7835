import MigrationPlan.Document
import MigrationPlan.Text.Fold

/- Data types of fields and their names. -/
namespace MigrationPlan
open Text

inductive FieldType where
  | id
  | reference
  | string
  | boolean
  | int
  | double
  | currency
  | percent
  | date
  | datetime
  | time
  | picklist
  | multipicklist
  | combobox
  | textarea
  | email
  | phone
  | url
  | address
  | location
  | base64
  | other
  deriving DecidableEq, Repr

namespace FieldType

def name : FieldType → String
  | id => "id"
  | reference => "reference"
  | string => "string"
  | boolean => "boolean"
  | int => "int"
  | double => "double"
  | currency => "currency"
  | percent => "percent"
  | date => "date"
  | datetime => "datetime"
  | time => "time"
  | picklist => "picklist"
  | multipicklist => "multipicklist"
  | combobox => "combobox"
  | textarea => "textarea"
  | email => "email"
  | phone => "phone"
  | url => "url"
  | address => "address"
  | location => "location"
  | base64 => "base64"
  | other => "other"

def named : List FieldType :=
  [id, reference, string, boolean, int, double, currency, percent, date, datetime, time,
    picklist, multipicklist,
   combobox, textarea, email, phone, url, address, location, base64]

def ofName? (s : String) : Option FieldType := named.find? fun t => t.name == fold s

def tree (t : FieldType) : Tree := .text t.name

/-- In documents names are lowercase, and any other text is a type too. -/
def read {δ : Type} [Document δ] (d : δ) : Option FieldType :=
  (Document.choice? d).map fun s => (named.find? fun t => t.name == s).getD other

end FieldType

end MigrationPlan
