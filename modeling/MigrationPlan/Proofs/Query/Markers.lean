import Mathlib.Data.String.Basic
import MigrationPlan.Proofs.Query.Stability

/- The search for clauses by position. It goes over the characters of a text with an index, jumps
   over words and escaped characters, and marks each keyword by the bytes at which it and its body
   start; the bodies are sliced out of the text between these bytes. Reading or slicing where the
   text has no character is an outcome of its own. The depth has no bound, as when the text is
   cut. -/
namespace MigrationPlan.Query
open Text

inductive Halt where
  | refused (e : ParseError)
  | outOfBounds
  deriving DecidableEq, Repr

/-- A clause by the bytes at which its keyword and its body start. -/
structure Marker where
  clause : Clause
  start : Nat
  body : Nat
  deriving DecidableEq, Repr

/-! Reading a text by position. -/

def positionsFrom (start : Nat) : List Char → List (Nat × Char)
  | [] => []
  | c :: s => (start, c) :: positionsFrom (start + c.utf8Size) s

def positions (t : String) : List (Nat × Char) := positionsFrom 0 t.toList

def positionAt (t : String) (i : Nat) : Except Halt (Nat × Char) :=
  match (positions t)[i]? with
  | some position => .ok position
  | none => .error .outOfBounds

/-- The byte at which a character starts, or at which the text ends if the index is behind all
    characters. -/
def byteAt (t : String) (i : Nat) : Nat := (positions t)[i]?.elim t.utf8ByteSize Prod.fst

/-- The text between two bytes, neither of which may be inside a character, and the first not behind
    the second. -/
def slice (t : String) (start stop : Nat) : Except Halt String :=
  if (⟨start⟩ : String.Pos.Raw).IsValid t ∧ (⟨stop⟩ : String.Pos.Raw).IsValid t ∧ start ≤ stop then
    .ok (String.Pos.Raw.extract t ⟨start⟩ ⟨stop⟩)
  else .error .outOfBounds

def runEnd (t : String) (test : Char → Bool) (i : Nat) : Nat :=
  if inside : i < (positions t).length then
    if test (positions t)[i].2 then runEnd t test (i + 1) else i
  else i
termination_by (positions t).length - i

def boundaryAt (t : String) (i : Nat) : Except Halt Bool :=
  if i = 0 then .ok true else (positionAt t (i - 1)).map fun position => isBoundary position.2

def secondWordAt (t : String) (i : Nat) : Except Halt (Option (Clause × Nat)) :=
  let next := runEnd t isBlank i
  let stop := runEnd t isWordChar next
  if i < next then
    (slice t (byteAt t next) (byteAt t stop)).map fun word =>
      if word.toList.map Char.toLower == "by".toList then some (.ordering, stop) else none
  else .ok none

def keywordAt (t : String) (i start : Nat) : Except Halt (Option (Clause × Nat)) :=
  let stop := runEnd t isWordChar i
  (slice t start (byteAt t stop)).bind fun word =>
    if isOrder word.toList then secondWordAt t stop
    else .ok ((Clause.ofWord? word.toList).map fun clause => (clause, stop))

/-! The search, character by character. -/

structure Search where
  index : Nat := 0
  depth : Int := 0
  quoted : Bool := false
  markers : List Marker := []
  deriving DecidableEq, Repr

namespace Search

/-- A word may be the keyword of a clause, or the first of its two words; the search goes on behind
    it either way. -/
def enterWord (t : String) (s : Search) (start : Nat) : Except Halt Search :=
  (keywordAt t s.index start).map fun
    | some (clause, stop) =>
      { s with index := stop, markers := s.markers ++ [⟨clause, start, byteAt t stop⟩] }
    | none => { s with index := runEnd t isWordChar s.index }

def step (t : String) (s : Search) : Except Halt Search :=
  (positionAt t s.index).bind fun (start, c) =>
    if s.quoted then
      if c = '\\' then .ok { s with index := s.index + 2 }
      else .ok { s with index := s.index + 1, quoted := c ≠ '\'' }
    else if c = '\'' then .ok { s with index := s.index + 1, quoted := true }
    else if c = '(' then .ok { s with index := s.index + 1, depth := s.depth + 1 }
    else if c = ')' then
      if s.depth - 1 < 0 then .error (.refused .unbalancedParentheses)
      else .ok { s with index := s.index + 1, depth := s.depth - 1 }
    else
      (boundaryAt t s.index).bind fun boundary =>
        if s.depth = 0 ∧ c.isAlpha ∧ boundary then s.enterWord t start
        else .ok { s with index := s.index + 1 }

def finish (s : Search) : Except Halt (List Marker) :=
  if s.quoted then .error (.refused .unterminatedLiteral)
  else if s.depth ≠ 0 then .error (.refused .unbalancedParentheses)
  else .ok s.markers

end Search

/-! Each step goes on in the text, which is why the search ends. -/

theorem le_runEnd (t : String) (test : Char → Bool) (i : Nat) : i ≤ runEnd t test i := by
  fun_induction runEnd t test i with
  | case1 i inside passes ih => omega
  | case2 i inside fails => exact Nat.le_refl i
  | case3 i outside => exact Nat.le_refl i

theorem lt_runEnd {t : String} {test : Char → Bool} {i start : Nat} {c : Char}
    (here : positionAt t i = .ok (start, c)) (passes : test c = true) : i < runEnd t test i := by
  unfold positionAt at here
  split at here
  · next position found =>
    obtain rfl := Except.ok.inj here
    obtain ⟨inside, same⟩ := List.getElem?_eq_some_iff.mp found
    rw [runEnd, dif_pos inside, same, if_pos passes]
    exact le_runEnd t test (i + 1)
  · cases here

theorem le_secondWordAt {t : String} {i stop : Nat} {clause : Clause}
    (found : secondWordAt t i = .ok (some (clause, stop))) : i ≤ stop := by
  unfold secondWordAt at found
  dsimp only at found
  split at found
  · next further =>
    obtain ⟨word, _, found⟩ := map_ok found
    split at found
    · obtain ⟨_, rfl⟩ := Prod.mk.inj (Option.some.inj found)
      exact Nat.le_trans (Nat.le_of_lt further) (le_runEnd t isWordChar _)
    · cases found
  · cases found

theorem le_keywordAt {t : String} {i start stop : Nat} {clause : Clause}
    (found : keywordAt t i start = .ok (some (clause, stop))) : runEnd t isWordChar i ≤ stop := by
  obtain ⟨word, _, found⟩ := bind_ok found
  split at found
  · exact le_secondWordAt found
  · obtain ⟨_, _, same⟩ := Option.map_eq_some_iff.mp (Except.ok.inj found)
    exact Nat.le_of_eq (Prod.mk.inj same).2

namespace Search

theorem enterWord_progress {t : String} {s s' : Search} {start : Nat}
    (entered : s.enterWord t start = .ok s')
    (word : s.index < runEnd t isWordChar s.index) : s.index < s'.index := by
  obtain ⟨keyword, found, rfl⟩ := map_ok entered
  cases keyword with
  | none => exact word
  | some keyword => exact Nat.lt_of_lt_of_le word (le_keywordAt found)

theorem step_progress {t : String} {s s' : Search} (stepped : s.step t = .ok s') :
    s.index < s'.index := by
  obtain ⟨⟨start, c⟩, here, stepped⟩ := bind_ok stepped
  dsimp only at stepped
  split at stepped
  · split at stepped
    · obtain rfl := Except.ok.inj stepped
      exact Nat.lt_add_of_pos_right (by decide)
    · obtain rfl := Except.ok.inj stepped
      exact Nat.lt_add_one s.index
  · split_ifs at stepped
    · obtain rfl := Except.ok.inj stepped
      exact Nat.lt_add_one s.index
    · obtain rfl := Except.ok.inj stepped
      exact Nat.lt_add_one s.index
    · obtain rfl := Except.ok.inj stepped
      exact Nat.lt_add_one s.index
    · obtain ⟨boundary, _, stepped⟩ := bind_ok stepped
      split at stepped
      · next word =>
        exact enterWord_progress stepped (lt_runEnd here (letter_isWordChar word.2.1))
      · obtain rfl := Except.ok.inj stepped
        exact Nat.lt_add_one s.index

def run (t : String) (s : Search) : Except Halt (List Marker) :=
  if s.index < (positions t).length then
    match stepped : s.step t with
    | .error halt => .error halt
    | .ok s' =>
      have := step_progress stepped
      run t s'
  else s.finish
termination_by (positions t).length - s.index

end Search

def markers (t : String) : Except Halt (List Marker) := Search.run t {}

end MigrationPlan.Query
