import MigrationPlan.Json.Token

/- JSON text to data trees: one step per token on the stack of brackets that are open. -/
namespace MigrationPlan.Json

/-- What an open bracket holds so far, last first. -/
inductive Frame where
  | list (items : List Tree)
  | record (members : List (Option String × Tree)) (key : Option String)

inductive Expected where
  | value
  | valueOrClose
  | key
  | keyOrClose
  | colon
  | commaOrClose

structure State where
  expected : Expected
  frames : List Frame
  result : Option Tree := none

def start : State := { expected := .value, frames := [] }

def closedRecord (members : List (Option String × Tree)) : Tree :=
  match members.reverse.mapM fun m => m.1.map fun key => (key, m.2) with
  | some members => .record members
  | none => .other

def place (value : Tree) : List Frame → State
  | [] => { expected := .commaOrClose, frames := [], result := some value }
  | .list items :: frames =>
    { expected := .commaOrClose, frames := .list (value :: items) :: frames }
  | .record members key :: frames =>
    { expected := .commaOrClose, frames := .record ((key, value) :: members) none :: frames }

def valueStep (frames : List Frame) : Token → Option State
  | .listOpen => some { expected := .valueOrClose, frames := .list [] :: frames }
  | .recordOpen => some { expected := .keyOrClose, frames := .record [] none :: frames }
  | .text (some s) => some (place (.text s) frames)
  | .text none => some (place .other frames)
  | .literal value => some (place value frames)
  | _ => none

def keyStep (frames : List Frame) : Token → Option State
  | .text key =>
    match frames with
    | .record members _ :: frames =>
      some { expected := .colon, frames := .record members key :: frames }
    | _ => none
  | _ => none

def closeStep (frames : List Frame) : Token → Option State
  | .listClose =>
    match frames with
    | .list items :: frames => some (place (.list items.reverse) frames)
    | _ => none
  | .recordClose =>
    match frames with
    | .record members _ :: frames => some (place (closedRecord members) frames)
    | _ => none
  | _ => none

def commaStep (frames : List Frame) : Option State :=
  match frames with
  | .list _ :: _ => some { expected := .value, frames }
  | .record _ _ :: _ => some { expected := .key, frames }
  | [] => none

def step (s : State) (t : Token) : Option State :=
  if s.result.isSome then none
  else
    match s.expected, t with
    | .value, t => valueStep s.frames t
    | .valueOrClose, .listClose => closeStep s.frames .listClose
    | .valueOrClose, t => valueStep s.frames t
    | .key, t => keyStep s.frames t
    | .keyOrClose, .recordClose => closeStep s.frames .recordClose
    | .keyOrClose, t => keyStep s.frames t
    | .colon, .colon => some { expected := .value, frames := s.frames }
    | .colon, _ => none
    | .commaOrClose, .comma => commaStep s.frames
    | .commaOrClose, t => closeStep s.frames t

def read? (s : String) : Option Tree := do
  let ts ← tokens s.toList
  let state ← ts.foldlM step start
  state.result

end MigrationPlan.Json
